import IdeModules.CommandLine
import IdeModules.Proofs.Failing
import IdeModules.Proofs.FileTree.Standing

/-!
# Malformed build files

Reading build data stops with a report about the build file, or about a project
directory that does not exist, whatever the kinds of the values in it.  Two kinds
of files escape: one whose bytes are no text, and one whose entries are all read
but whose path variables are no object of texts and nulls.
-/

namespace IdeModules

/-! ## Kinds of failures -/

/-- Whether a failure is about a value that has another kind than its place asks for. -/
def Error.IsShape : Error → Prop
  | .noSuchMember => True
  | .wrongKind => True
  | .missingMember _ => True
  | _ => False

/-- Whether a failure is about a project directory that does not exist. -/
def Error.IsMissingProject (isDirectory : Path → Bool) : Error → Prop
  | .missingInput what directory => what = "project directory" ∧ isDirectory directory = false
  | _ => False

/-- Whether a failure reports a build file, or a project directory that does not exist. -/
def Error.IsBuildReport (isDirectory : Path → Bool) (source : Path) : Error → Prop
  | .invalidBuild file _ => file = source
  | failure => failure.IsMissingProject isDirectory

theorem FileTree.eq_notText_of_textOf {content : ByteArray} {failure : Error}
    (isFailure : textOf content = .error failure) : failure = .notText := by
  unfold textOf at isFailure
  split at isFailure
  · exact (Except.error.inj isFailure).symm
  · exact nomatch isFailure

namespace Build

open Json (Value)

/-! ## Values -/

theorem lacksMember_membersOf (value : Value) :
    FailsOnly (· = .noSuchMember) (membersOf value) := by
  cases value with
  | obj members => exact .ok members
  | _ => exact .error rfl

theorem lacksMember_memberOf (name : String) (value : Value) :
    FailsOnly (· = .noSuchMember) (memberOf name value) :=
  (lacksMember_membersOf value).map _

theorem isShape_of_lacksMember (failure : Error) (lacks : failure = .noSuchMember) :
    failure.IsShape :=
  lacks ▸ trivial

theorem failsOnly_membersOf (value : Value) : FailsOnly Error.IsShape (membersOf value) :=
  (lacksMember_membersOf value).imp isShape_of_lacksMember

theorem failsOnly_memberOf (name : String) (value : Value) :
    FailsOnly Error.IsShape (memberOf name value) :=
  (lacksMember_memberOf name value).imp isShape_of_lacksMember

theorem failsOnly_itemsOf (value : Value) : FailsOnly Error.IsShape (itemsOf value) := by
  cases value with
  | arr items => exact .ok items
  | str text => exact .ok _
  | obj members => exact .ok _
  | _ => exact .error trivial

theorem failsOnly_memberItems (name : String) (value : Value) :
    FailsOnly Error.IsShape (memberItems name value) := by
  apply FailsOnly.bind (failsOnly_memberOf name value)
  intro found
  cases found with
  | none => exact .pure _
  | some items => exact failsOnly_itemsOf items

theorem failsOnly_memberMembers (name : String) (value : Value) :
    FailsOnly Error.IsShape (memberMembers name value) := by
  apply FailsOnly.bind (failsOnly_memberOf name value)
  intro found
  cases found with
  | none => exact .pure _
  | some members => exact failsOnly_membersOf members

theorem failsOnly_pathIn (base : Path) (value : Value) :
    FailsOnly Error.IsShape (pathIn base value) := by
  cases value with
  | null => exact .ok _
  | str text => exact .ok _
  | _ => exact .error trivial

theorem failsOnly_memberPath (base : Path) (name : String) (value : Value) :
    FailsOnly Error.IsShape (memberPath base name value) :=
  .bind (failsOnly_memberOf name value) fun _ => failsOnly_pathIn base _

theorem failsOnly_memberPaths (base : Path) (name : String) (value : Value) :
    FailsOnly Error.IsShape (memberPaths base name value) := by
  apply FailsOnly.bind (failsOnly_memberOf name value)
  intro found
  dsimp only
  split
  · exact .pure _
  · exact .bind (failsOnly_itemsOf _) fun items => .mapM (failsOnly_pathIn base) items

theorem failsOnly_textOf (value : Value) : FailsOnly Error.IsShape (textOf value) := by
  cases value with
  | str text => exact .ok text
  | _ => exact .error trivial

theorem failsOnly_partsOf (value : Value) : FailsOnly Error.IsShape (partsOf value) := by
  cases value with
  | str text => exact .ok _
  | _ => exact .error trivial

theorem failsOnly_holdsName (name : String) (value : Value) :
    FailsOnly Error.IsShape (holdsName name value) := by
  cases value with
  | obj members => exact .ok _
  | arr items => exact .ok _
  | str text => exact .ok _
  | _ => exact .error trivial

theorem failsOnly_heldMember (name : String) (value : Value) :
    FailsOnly Error.IsShape (heldMember name value) := by
  unfold heldMember
  split
  · split
    · exact .ok _
    · exact .error trivial
  · exact .error trivial

theorem failsOnly_filesDeclaration (files : List Value) :
    FailsOnly Error.IsShape (filesDeclaration files) :=
  .bind (.mapM failsOnly_textOf files) fun _ => .pure _

theorem failsOnly_filledItems (name : String) (value : Value) :
    FailsOnly Error.IsShape (filledItems name value) := by
  apply FailsOnly.bind (failsOnly_memberOf name value)
  intro found
  dsimp only
  split
  · exact .pure _
  · exact failsOnly_itemsOf _

/-! ## Entries -/

theorem failsOnly_addDependency (base : Path) (configuration : Configuration)
    (dependency : Value) :
    FailsOnly Error.IsShape (addDependency base configuration dependency) := by
  unfold addDependency
  apply FailsOnly.bind (failsOnly_holdsName _ _)
  intro holds
  split
  · exact .bind (failsOnly_heldMember _ _) fun _ => .pure _
  · apply FailsOnly.bind (failsOnly_memberOf _ _)
    intro files
    apply FailsOnly.bind (failsOnly_memberOf _ _)
    intro _
    -- The steps behind a choice are shared by its branches: one fact about them serves all.
    extract_lets stated withDeclaration
    have declared (declaration : Value) :
        FailsOnly Error.IsShape (withDeclaration declaration) := by
      unfold withDeclaration
      extract_lets notations withParts
      have parted (parts : DeclaredParts) : FailsOnly Error.IsShape (withParts parts) := by
        apply FailsOnly.bind (failsOnly_memberOf _ _)
        intro reason
        split
        · exact .pure _
        · extract_lets withFiles
          have resolved (found : List Value) : FailsOnly Error.IsShape (withFiles found) := by
            refine .bind (.mapM ?_ found) fun _ => .pure _
            intro file
            apply FailsOnly.bind (failsOnly_pathIn base file)
            intro _
            apply FailsOnly.bind (failsOnly_memberOf _ _)
            intro _
            apply FailsOnly.bind (failsOnly_memberPath _ _ _)
            intro _
            exact .bind (failsOnly_memberPath _ _ _) fun _ => .pure _
          split
          · exact .bind (.pure _) resolved
          · exact .bind (failsOnly_itemsOf _) resolved
      split
      · exact .bind (.pure _) parted
      · exact .bind (failsOnly_partsOf _) parted
    split
    · exact .bind (failsOnly_filledItems _ _) fun _ =>
        .bind (failsOnly_filesDeclaration _) fun _ => .bind (.pure _) declared
    · exact .bind (.pure _) declared

theorem failsOnly_addArtifact (base : Path) (configuration : Configuration) (artifact : Value) :
    FailsOnly Error.IsShape (addArtifact base configuration artifact) := by
  apply FailsOnly.bind (failsOnly_memberOf _ _)
  intro _
  apply FailsOnly.bind (failsOnly_partsOf _)
  intro _
  apply FailsOnly.bind (failsOnly_heldMember _ _)
  intro _
  apply FailsOnly.bind (failsOnly_pathIn _ _)
  intro _
  apply FailsOnly.bind (failsOnly_memberOf _ _)
  intro _
  apply FailsOnly.bind (failsOnly_memberPath _ _ _)
  intro _
  apply FailsOnly.bind (failsOnly_memberPath _ _ _)
  intro _
  apply FailsOnly.bind (failsOnly_memberOf _ _)
  intro _
  exact .pure _

theorem failsOnly_configurationOf (base : Path) (name : String) (value : Value) :
    FailsOnly Error.IsShape (configurationOf base name value) := by
  apply FailsOnly.bind (failsOnly_memberItems _ _)
  intro _
  apply FailsOnly.bind (failsOnly_memberItems _ _)
  intro _
  apply FailsOnly.bind (.foldlM (failsOnly_addDependency base) _ _)
  intro _
  exact .bind (failsOnly_memberItems _ _) fun _ => .foldlM (failsOnly_addArtifact base) _ _

theorem failsOnly_outputDirectoryOf (base : Path) (value : Value) :
    FailsOnly Error.IsShape (outputDirectoryOf base value) := by
  unfold outputDirectoryOf
  split
  · exact .bind (failsOnly_pathIn base _) fun _ => .pure _
  · apply FailsOnly.bind (failsOnly_heldMember _ _)
    intro _
    apply FailsOnly.bind (failsOnly_pathIn base _)
    intro _
    exact .bind (failsOnly_memberOf _ _) fun _ => .pure _

theorem failsOnly_sourceSetOf (base : Path) (name : String) (value : Value) :
    FailsOnly Error.IsShape (sourceSetOf base name value) := by
  apply FailsOnly.bind (failsOnly_memberItems _ _)
  intro _
  apply FailsOnly.bind (.mapM (failsOnly_outputDirectoryOf base) _)
  intro _
  exact .bind (failsOnly_memberPaths _ _ _) fun _ => .pure _

theorem failsOnly_customizationOf (value : Value) :
    FailsOnly Error.IsShape (customizationOf value) :=
  .bind (failsOnly_memberItems _ _) fun _ => .bind (failsOnly_memberItems _ _) fun _ => .pure _

theorem failsOnly_nameOf (idea value : Value) (directory : Path) :
    FailsOnly Error.IsShape (nameOf idea value directory) :=
  .bind (failsOnly_memberOf _ _) fun _ => .bind (failsOnly_memberOf _ _) fun _ => .pure _

theorem lacksMember_shownMember (name : String) (value : Value) :
    FailsOnly (· = .noSuchMember) (shownMember name value) := by
  apply FailsOnly.bind (lacksMember_memberOf name value)
  intro found
  split
  · exact .pure _
  · exact .pure _
  · exact .pure _

theorem failsOnly_shownMember (name : String) (value : Value) :
    FailsOnly Error.IsShape (shownMember name value) :=
  (lacksMember_shownMember name value).imp isShape_of_lacksMember

theorem failsOnly_members {step : String × Value → Except Error α}
    (each : ∀ member, FailsOnly Error.IsShape (step member)) (members : List (String × Value)) :
    FailsOnly Error.IsShape (members.mapM fun member => do pure (member.1, ← step member)) :=
  .mapM (fun member => .bind (each member) fun _ => .pure _) members

/-! ## Modules -/

/-- Whether a failure is one of a module entry. -/
def IsModuleFailure (isDirectory : Path → Bool) (failure : Error) : Prop :=
  failure.IsShape ∨ failure.IsMissingProject isDirectory

section Module

variable (isDirectory : Path → Bool) (root : Path) (value : Value)

theorem failsOnly_projectDirectoryOf :
    FailsOnly (IsModuleFailure isDirectory) (projectDirectoryOf isDirectory root value) := by
  have shape {failure : Error} (isShape : failure.IsShape) :
    IsModuleFailure isDirectory failure := .inl isShape
  apply FailsOnly.bind ((failsOnly_memberOf _ _).imp fun _ => shape)
  intro _
  apply FailsOnly.bind ((failsOnly_pathIn _ _).imp fun _ => shape)
  intro found
  split
  · exact .error (shape trivial)
  · split
    · exact .pure _
    · rename_i missing
      exact .error (.inr ⟨rfl, by simpa using missing⟩)

theorem failsOnly_moduleOf :
    FailsOnly (IsModuleFailure isDirectory) (moduleOf isDirectory root value) := by
  apply FailsOnly.bind (failsOnly_projectDirectoryOf isDirectory root value)
  intro base
  refine .imp (fun _ => Or.inl) ?_
  apply FailsOnly.bind (failsOnly_memberOf _ _)
  intro idea
  apply FailsOnly.bind (failsOnly_nameOf _ _ _)
  intro _
  apply FailsOnly.bind (failsOnly_memberMembers _ _)
  intro _
  apply FailsOnly.bind (failsOnly_members (fun member => failsOnly_customizationOf member.2) _)
  intro _
  apply FailsOnly.bind (failsOnly_memberOf _ _)
  intro _
  apply FailsOnly.bind (failsOnly_memberPath _ _ _)
  intro _
  apply FailsOnly.bind (failsOnly_memberPath _ _ _)
  intro _
  apply FailsOnly.bind (failsOnly_shownMember _ _)
  intro _
  apply FailsOnly.bind (failsOnly_memberMembers _ _)
  intro _
  apply FailsOnly.bind (.mapM (fun member => failsOnly_sourceSetOf base _ _) _)
  intro _
  apply FailsOnly.bind (failsOnly_memberMembers _ _)
  intro _
  apply FailsOnly.bind (failsOnly_members (fun member => failsOnly_configurationOf base _ _) _)
  intro _
  apply FailsOnly.bind (failsOnly_memberPath _ _ _)
  intro _
  apply FailsOnly.bind (failsOnly_memberPaths _ _ _)
  intro _
  apply FailsOnly.bind (failsOnly_memberPaths _ _ _)
  intro _
  apply FailsOnly.bind (failsOnly_memberPaths _ _ _)
  intro _
  apply FailsOnly.bind (failsOnly_memberPath _ _ _)
  intro _
  apply FailsOnly.bind (failsOnly_memberPath _ _ _)
  intro _
  apply FailsOnly.bind (failsOnly_memberPath _ _ _)
  intro _
  apply FailsOnly.bind (failsOnly_memberMembers _ _)
  intro _
  apply FailsOnly.bind (failsOnly_members (fun member => failsOnly_pathIn base _) _)
  intro _
  apply FailsOnly.bind (failsOnly_memberOf _ _)
  intro _
  apply FailsOnly.bind (failsOnly_memberOf _ _)
  intro _
  exact .bind (failsOnly_memberOf _ _) fun _ => .bind (failsOnly_memberOf _ _) fun _ => .pure _

end Module

/-! ## Builds -/

/-- What is read of data before their path variables: the project and the modules. -/
def entriesOf (isDirectory : Path → Bool) (root source : Path) (data : Value) :
    Except Error (Option ProjectSettings × List ModuleSettings) :=
  match listedModules data with
  | none => .error (.invalidBuild source .notModules)
  | some listed => do
    let project ← (projectOf data).mapError (inProject source)
    let modules ← (listed.mapM (moduleOf isDirectory root)).mapError (inModule source)
    pure (project, modules)

def variablesOf (root : Path) (data : Value) : Except Error (List (String × Option Path)) := do
  (← memberMembers "pathVariables" data).mapM fun member => do
    pure (member.1, ← pathIn root member.2)

theorem ofData_eq (isDirectory : Path → Bool) (start directory source : Path) (data : Value) :
    ofData isDirectory start directory source data =
      entriesOf isDirectory (Path.normalize start directory) source data >>= fun entries =>
        variablesOf (Path.normalize start directory) data >>= fun variablePaths =>
          pure ⟨Path.normalize start directory, entries.2, entries.1, .ofPairs variablePaths⟩ := by
  unfold ofData entriesOf variablesOf
  cases listedModules data with
  | none => rfl
  | some listed => simp only [bind_assoc, pure_bind]

def isPathText : Value → Bool
  | .null => true
  | .str _ => true
  | _ => false

/-- Whether data are an object whose path variables, if it has any, are an object of texts and
nulls. -/
def hasPlainVariables : Value → Bool
  | .obj members =>
    match Value.lookup "pathVariables" members with
    | none => true
    | some (.obj variablePaths) => variablePaths.all fun member => isPathText member.2
    | some _ => false
  | _ => false

theorem exists_pathIn_iff {base : Path} {value : Value} :
    (∃ path, pathIn base value = .ok path) ↔ isPathText value = true := by
  cases value with
  | null => exact ⟨fun _ => rfl, fun _ => ⟨_, rfl⟩⟩
  | str text => exact ⟨fun _ => rfl, fun _ => ⟨_, rfl⟩⟩
  | _ => exact ⟨nofun, nofun⟩

theorem failsOnly_variablesOf (root : Path) (data : Value) :
    FailsOnly Error.IsShape (variablesOf root data) :=
  .bind (failsOnly_memberMembers _ _) fun _ =>
    failsOnly_members (fun member => failsOnly_pathIn root member.2) _

/-- Path variables are read if and only if they are an object of texts and nulls. -/
theorem exists_variablesOf_iff {root : Path} {data : Value} :
    (∃ variablePaths, variablesOf root data = .ok variablePaths) ↔
      hasPlainVariables data = true := by
  have named (member : String × Value) :
      (∃ entry, ((pathIn root member.2 >>= fun path => pure (member.1, path)) :
        Except Error (String × Option Path)) = .ok entry) ↔ isPathText member.2 = true := by
    rw [← exists_pathIn_iff]
    cases pathIn root member.2 with
    | error failure => exact ⟨nofun, nofun⟩
    | ok path => exact ⟨fun _ => ⟨_, rfl⟩, fun _ => ⟨_, rfl⟩⟩
  cases data with
  | obj members =>
      unfold variablesOf hasPlainVariables memberMembers memberOf membersOf
      simp only [Except.map]
      cases Value.lookup "pathVariables" members with
      | none => exact ⟨fun _ => rfl, fun _ => ⟨[], rfl⟩⟩
      | some value =>
          cases value with
          | obj variablePaths =>
              rw [List.all_eq_true]
              exact exists_mapM_iff.trans (forall₂_congr fun member _ => named member)
          | _ => exact ⟨nofun, nofun⟩
  | _ => exact ⟨nofun, nofun⟩

theorem lacksMember_projectOf (data : Value) :
    FailsOnly (· = .noSuchMember) (projectOf data) := by
  apply FailsOnly.bind (lacksMember_memberOf _ _)
  intro found
  split
  · exact .pure _
  · exact .pure _
  · exact .bind (lacksMember_shownMember _ _) fun _ => .pure _

/-- A failure of a module entry is reported for the build file, unless it is a report already. -/
theorem isBuildReport_inModule {isDirectory : Path → Bool} (source : Path) {failure : Error}
    (isFailure : IsModuleFailure isDirectory failure) :
    (inModule source failure).IsBuildReport isDirectory source := by
  rcases isFailure with isShape | isMissing
  · cases failure with
    | noSuchMember => rfl
    | wrongKind => rfl
    | missingMember name => rfl
    | _ => exact isShape.elim
  · cases failure with
    | missingInput what directory => exact isMissing
    | _ => exact isMissing.elim

theorem failsOnly_entriesOf (isDirectory : Path → Bool) (root source : Path) (data : Value) :
    FailsOnly (Error.IsBuildReport isDirectory source)
      (entriesOf isDirectory root source data) := by
  unfold entriesOf
  split
  · exact .error rfl
  · refine .bind (.mapError ?_) fun _ => .bind (.mapError ?_) fun _ => .pure _
    · refine (lacksMember_projectOf data).imp ?_
      rintro _ rfl
      rfl
    · exact (FailsOnly.mapM (failsOnly_moduleOf isDirectory root) _).imp fun _ =>
        isBuildReport_inModule source

theorem not_isShape_of_isBuildReport {isDirectory : Path → Bool} {source : Path} {failure : Error}
    (isReport : failure.IsBuildReport isDirectory source) : ¬failure.IsShape := by
  cases failure with
  | invalidBuild file fault => exact id
  | missingInput what directory => exact id
  | _ => exact isReport.elim

/-- Data fail with a report if and only if their path variables are an object of texts and nulls,
or are not reached. -/
theorem reports_ofData_iff {isDirectory : Path → Bool} {start directory source : Path}
    {data : Value} :
    FailsOnly (Error.IsBuildReport isDirectory source)
        (ofData isDirectory start directory source data) ↔
      ∀ entries, entriesOf isDirectory (Path.normalize start directory) source data = .ok entries →
        hasPlainVariables data = true := by
  have reports := failsOnly_entriesOf isDirectory (Path.normalize start directory) source data
  rw [ofData_eq]
  cases isRead : entriesOf isDirectory (Path.normalize start directory) source data with
  | error failure => exact ⟨fun _ _ => nofun, fun _ => .error (reports failure isRead)⟩
  | ok entries =>
      have shape := failsOnly_variablesOf (Path.normalize start directory) data
      rw [← @exists_variablesOf_iff (Path.normalize start directory) data]
      cases areRead : variablesOf (Path.normalize start directory) data with
      | error failure =>
          constructor
          · intro fails
            exact absurd (shape failure areRead) (not_isShape_of_isBuildReport (fails failure rfl))
          · intro plain
            obtain ⟨_, isRead⟩ := plain entries rfl
            exact nomatch isRead
      | ok variablePaths => exact ⟨fun _ _ _ => ⟨variablePaths, rfl⟩, fun _ => .ok _⟩

/-! ## Build files -/

section File

variable {files : FileTree} {path : Path} {content : ByteArray}
  (found : files.find? path = some (.file content))

include found

theorem load_of_textOf_error {failure : Error}
    (isFailure : FileTree.textOf content = .error failure) :
    load files path = .error failure := by
  rw [load, loadWith, if_pos (FileTree.contains_of_find? found), FileTree.readText, found]
  simp only [isFailure]

theorem load_of_textOf {text : String} (isText : FileTree.textOf content = .ok text) :
    load files path = (Json.read text).elim (.error (.invalidBuild path .notJson))
      (ofData files.isDirectory files.workingDirectory path.parent path) := by
  rw [load, loadWith, if_pos (FileTree.contains_of_find? found), FileTree.readText, found]
  simp only [isText]
  cases Json.read text <;> rfl

end File

/-- Whether loading a build file gives a build, or a report about this file or about a project
directory that does not exist. -/
def LoadsOrReports (files : FileTree) (path : Path) : Prop :=
  (∃ build, load files path = .ok build) ∨
    ∃ failure, load files path = .error failure ∧ failure.IsBuildReport files.isDirectory path

end Build

/-- A build file that exists is loaded or reported if and only if its bytes are a text and, where
all entries of its data are read, its path variables are an object of texts and nulls. -/
theorem build_file_is_reported_iff {files : FileTree} {path : Path} {content : ByteArray}
    (found : files.find? path = some (.file content)) :
    Build.LoadsOrReports files path ↔
      ∃ text, FileTree.textOf content = .ok text ∧
        ∀ data, Json.read text = some data → ∀ entries,
          Build.entriesOf files.isDirectory (Path.normalize files.workingDirectory path.parent)
              path data = .ok entries →
            Build.hasPlainVariables data = true := by
  rw [Build.LoadsOrReports, ← FailsOnly.iff_ok_or_error]
  cases isText : FileTree.textOf content with
  | error failure =>
      rw [Build.load_of_textOf_error found isText, FileTree.eq_notText_of_textOf isText]
      constructor
      · exact fun fails => (fails .notText rfl).elim
      · rintro ⟨_, isRead, _⟩
        exact nomatch isRead
  | ok text =>
      rw [Build.load_of_textOf found isText]
      simp only [Except.ok.injEq, exists_eq_left']
      cases Json.read text with
      | none => exact ⟨fun _ _ => nofun, fun _ => .error rfl⟩
      | some data =>
          simp only [Option.some.injEq, forall_eq']
          exact Build.reports_ofData_iff

/-! ## Files that are loaded, and files that escape -/

/-- The files of a workspace with the bytes of its build file. -/
def buildFiles (content : ByteArray) : FileTree where
  workingDirectory := Path.workspace
  entries := [(["ws"], .directory), (["ws", "build.json"], .file content)]
  rooted := by simp [entryIn, Keyed.get?]
  starts := rfl

def buildPath : Path := ⟨.single, ["ws", "build.json"], by decide⟩

theorem find?_buildFiles (content : ByteArray) :
    (buildFiles content).find? buildPath = some (.file content) :=
  rfl

/-- A text whose module is malformed and whose path variables are not. -/
def malformedModuleText : String :=
  "\x7b\"modules\": [\"a\"], \"pathVariables\": \x7b\"LIB\": \"lib\", \"NONE\": null\x7d\x7d"

/-- The malformed module is reported. -/
theorem malformed_module_is_reported :
    Build.LoadsOrReports (buildFiles malformedModuleText.toUTF8) buildPath := by
  refine (build_file_is_reported_iff (find?_buildFiles _)).mpr
    ⟨_, FileTree.textOf_toUTF8 malformedModuleText, ?_⟩
  intro data isData _ _
  have plain : (Json.read (String.ofList
      (Xml.normalizeLineEnds malformedModuleText.toList))).all Build.hasPlainVariables = true := by
    decide +kernel
  rwa [isData] at plain

/-- The failure of a result that is no success. -/
def failure? : Except Error α → Option Error
  | .error failure => some failure
  | .ok _ => none

theorem eq_error_of_failure? {result : Except Error α} {failure : Error}
    (isFailure : failure? result = some failure) : result = .error failure := by
  cases result with
  | error other => exact congrArg Except.error (Option.some.inj isFailure)
  | ok value => exact nomatch isFailure

theorem not_loadsOrReports {files : FileTree} {path : Path} {failure : Error}
    (isFailure : Build.load files path = .error failure)
    (escapes : ¬failure.IsBuildReport files.isDirectory path) :
    ¬Build.LoadsOrReports files path := by
  rintro (⟨build, isOk⟩ | ⟨other, isOther, isReport⟩)
  · exact nomatch isFailure.symm.trans isOk
  · obtain rfl := Except.error.inj (isFailure.symm.trans isOther)
    exact escapes isReport

/-- The failure of loading a build file with a text. -/
theorem load_buildFiles {text : String} {failure : Error}
    (fails : failure? ((Json.read (String.ofList (Xml.normalizeLineEnds text.toList))).elim
      (.error (.invalidBuild buildPath .notJson))
      (Build.ofData (buildFiles text.toUTF8).isDirectory Path.workspace buildPath.parent
        buildPath)) = some failure) :
    Build.load (buildFiles text.toUTF8) buildPath = .error failure := by
  rw [Build.load_of_textOf (find?_buildFiles _) (FileTree.textOf_toUTF8 text)]
  exact eq_error_of_failure? fails

/-- A text whose path variables are a list. -/
def listedVariablesText : String := "\x7b\"modules\": [], \"pathVariables\": []\x7d"

/-- A text with a number among its path variables. -/
def countedVariablesText : String := "\x7b\"modules\": [], \"pathVariables\": \x7b\"A\": 3\x7d\x7d"

/-- A build file whose bytes are no text, one whose path variables are a list and one with a
number among them fail without a report. -/
theorem malformed_build_file_escapes :
    (Build.load (buildFiles ⟨#[0xff]⟩) buildPath = .error .notText ∧
      ¬Build.LoadsOrReports (buildFiles ⟨#[0xff]⟩) buildPath) ∧
    (Build.load (buildFiles listedVariablesText.toUTF8) buildPath = .error .noSuchMember ∧
      ¬Build.LoadsOrReports (buildFiles listedVariablesText.toUTF8) buildPath) ∧
    Build.load (buildFiles countedVariablesText.toUTF8) buildPath = .error .wrongKind ∧
      ¬Build.LoadsOrReports (buildFiles countedVariablesText.toUTF8) buildPath := by
  have noText : Build.load (buildFiles ⟨#[0xff]⟩) buildPath = .error .notText :=
    Build.load_of_textOf_error (find?_buildFiles _) rfl
  have listed : Build.load (buildFiles listedVariablesText.toUTF8) buildPath =
      .error .noSuchMember := load_buildFiles (by decide +kernel)
  have counted : Build.load (buildFiles countedVariablesText.toUTF8) buildPath =
      .error .wrongKind := load_buildFiles (by decide +kernel)
  exact ⟨⟨noText, not_loadsOrReports noText id⟩, ⟨listed, not_loadsOrReports listed id⟩,
    counted, not_loadsOrReports counted id⟩

end IdeModules
