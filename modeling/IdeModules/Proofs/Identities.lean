import IdeModules.Proofs.DeclarationOrder
import IdeModules.Proofs.Entries

/-!
# Identities of entries

A file is identified by its text, an unresolved dependency by its coordinate, and a project by
its path behind a word.  Texts of these three kinds differ as long as no coordinate starts as one
of the others does, and within each kind they differ for different things: a normal path is read
back from its text, and the parts of a coordinate from the places of its colons.  Only what is no
text, or has no parts to tell it by, is taken for something else.
-/

namespace IdeModules

/-! ## Coordinates -/

/-- Whether the parts of an unresolved dependency can be told from its coordinate. -/
structure UnresolvedDependency.HasPlainParts (dependency : UnresolvedDependency) : Prop where
  group : ':' ∉ dependency.group.toList
  name : ':' ∉ dependency.name.toList
  version : ∀ text, dependency.version = some text → ':' ∉ text.toList ∧ text ≠ ""

theorem plain_of_declaredPart {text part : String} {index : Nat}
    (isPart : declaredPart (pieces ':' text) index = some part) :
    ':' ∉ part.toList ∧ part ≠ "" := by
  obtain ⟨isThere, notEmpty⟩ := Option.filter_eq_some_iff.mp isPart
  obtain ⟨piece, isPiece, rfl⟩ := List.mem_map.mp (List.mem_of_getElem? isThere)
  rw [String.toList_ofList]
  exact ⟨not_mem_of_mem_splitChars isPiece, by simpa using notEmpty⟩

theorem plain_getD_declaredPart (text : String) (index : Nat) :
    ':' ∉ ((declaredPart (pieces ':' text) index).getD "").toList := by
  cases isPart : declaredPart (pieces ':' text) index with
  | none => exact List.not_mem_nil
  | some part => exact (plain_of_declaredPart isPart).1

theorem toList_coordinate (group name : String) (version : Option String) :
    (coordinate group name version).toList = group.toList ++ ':' :: (name.toList ++
      ((version.filter (· ≠ "")).map fun text => ':' :: text.toList).getD []) := by
  rw [coordinate, joined, String.toList_intercalate]
  cases version.filter (· ≠ "") <;> simp [List.intercalate]

namespace UnresolvedDependency

variable {dependency other : UnresolvedDependency}

theorem hasPlainParts_of_isRead (isRead : dependency.IsNoted ∨ dependency.IsBare) :
    dependency.HasPlainParts := by
  rcases isRead with ⟨text, _, group, name, version⟩ | ⟨_, group, name, version⟩
  · refine ⟨?_, ?_, ?_⟩
    · rw [group]
      exact plain_getD_declaredPart text 0
    · rw [name]
      exact plain_getD_declaredPart text 1
    · intro part isPart
      rw [version] at isPart
      exact plain_of_declaredPart isPart
  · refine ⟨?_, ?_, ?_⟩
    · rw [group]
      exact List.not_mem_nil
    · rw [name]
      exact List.not_mem_nil
    · rw [version]
      exact nofun

/-- The colons of a coordinate stand between the parts. -/
theorem splitChars_coordinate (plain : dependency.HasPlainParts) :
    splitChars ':' dependency.coordinate.toList =
      [dependency.group.toList, dependency.name.toList] ++
        (dependency.version.map String.toList).toList := by
  rw [UnresolvedDependency.coordinate, toList_coordinate, splitChars_append plain.group]
  cases isVersion : dependency.version with
  | none => simp [splitChars_of_not_mem plain.name]
  | some text =>
      obtain ⟨noColon, notEmpty⟩ := plain.version text isVersion
      simp [Option.filter, notEmpty, splitChars_append plain.name, splitChars_of_not_mem noColon]

/-- Different parts make different coordinates. -/
theorem parts_of_coordinate (plain : dependency.HasPlainParts) (otherPlain : other.HasPlainParts)
    (same : dependency.coordinate = other.coordinate) :
    dependency.group = other.group ∧ dependency.name = other.name ∧
      dependency.version = other.version := by
  have sameParts := splitChars_coordinate plain
  rw [same, splitChars_coordinate otherPlain] at sameParts
  simp only [List.cons_append, List.nil_append, List.cons.injEq, String.toList_inj] at sameParts
  obtain ⟨sameGroup, sameName, sameVersion⟩ := sameParts
  refine ⟨sameGroup.symm, sameName.symm, ?_⟩
  cases left : dependency.version <;> cases right : other.version <;>
    simp_all [String.toList_inj]

/-- A coordinate that starts with a text without a colon has a group that starts so. -/
theorem exists_group_of_prefix {front rest : String} (noColon : ':' ∉ front.toList)
    (starts : dependency.coordinate = front ++ rest) :
    ∃ ending, dependency.group = front ++ ending := by
  have chars := congrArg String.toList starts
  rw [coordinate, toList_coordinate, String.toList_append] at chars
  rcases List.append_eq_append_iff.mp chars with ⟨middle, isFront, isColon⟩ | ⟨ending, isGroup, _⟩
  · -- The colon behind the group would stand in the front, unless that is the whole group.
    cases middle with
    | nil => exact ⟨"", by rw [← String.toList_inj, String.toList_append, isFront]; simp⟩
    | cons c others =>
        obtain ⟨rfl, _⟩ := List.cons.inj isColon
        exact absurd (isFront ▸ List.mem_append_right _ List.mem_cons_self) noColon
  · exact ⟨String.ofList ending, by rw [← String.toList_inj, isGroup]; simp⟩

end UnresolvedDependency

/-! ## Texts of files -/

theorem text_spelledPath {file : Option Path} (normal : IsPlainIfAny file) :
    (file = none ∧ (spelledPath file).text = "None") ∨
      ∃ rest, (spelledPath file).text = "/" ++ rest := by
  cases file with
  | none => exact .inl ⟨rfl, rfl⟩
  | some found =>
      obtain ⟨rest, starts⟩ := PathVariables.exists_text_cons (normal found rfl).absolute
      refine .inr ⟨String.ofList rest, ?_⟩
      rw [spelledPath, Option.getD_some, ← String.toList_inj, starts]
      simp

theorem file_eq_of_text {left right : Option Path} (leftPlain : IsPlainIfAny left)
    (rightPlain : IsPlainIfAny right)
    (same : (spelledPath left).text = (spelledPath right).text) : left = right := by
  have samePath : spelledPath left = spelledPath right := by
    rw [← Path.ofText_text (spelledPath left), same, Path.ofText_text]
  -- The path that stands for a missing file is relative, and so is no file.
  have notFile {file : Path} (normal : file.IsPlain) : spelledPath none ≠ file := by
    rintro rfl
    exact absurd normal.absolute (by decide)
  cases left with
  | none =>
      cases right with
      | none => rfl
      | some file => exact absurd samePath (notFile (rightPlain file rfl))
  | some file =>
      cases right with
      | none => exact absurd samePath.symm (notFile (leftPlain file rfl))
      | some other => exact congrArg some samePath

theorem text_ne_project {file : Option Path} (normal : IsPlainIfAny file) (text : String) :
    (spelledPath file).text ≠ "project " ++ text := by
  rcases text_spelledPath normal with ⟨_, isText⟩ | ⟨rest, isText⟩
  · rw [isText]
    intro same
    exact absurd (congrArg (·.toList.head?) same) (by simp)
  · rw [isText]
    intro same
    exact absurd (congrArg (·.toList.head?) same) (by simp)

/-- A coordinate that is the text of a file has a group that starts at a root. -/
theorem exists_group_of_file {dependency : UnresolvedDependency} {file : Option Path}
    (normal : IsPlainIfAny file) (same : dependency.coordinate = (spelledPath file).text) :
    ∃ rest, dependency.group = "/" ++ rest := by
  rcases text_spelledPath normal with ⟨_, isText⟩ | ⟨rest, isText⟩
  · have chars := congrArg String.toList (same.trans isText)
    rw [UnresolvedDependency.coordinate, toList_coordinate] at chars
    have hasColon : ':' ∈ "None".toList :=
      chars ▸ List.mem_append_right _ List.mem_cons_self
    exact absurd hasColon (by decide)
  · exact UnresolvedDependency.exists_group_of_prefix (by decide) (same.trans isText)

/-! ## Entries -/

namespace Entry

/-- Whether two entries stand for the same thing: one file, the same parts of two notations, or
one path of a project. -/
def SameThing : Entry → Entry → Prop
  | .artifact left, .artifact right => left.file = right.file
  | .unresolved left, .unresolved right => left.IsNoted ∧ right.IsNoted ∧
      left.group = right.group ∧ left.name = right.name ∧ left.version = right.version
  | .reference (.project left), .reference (.project right) => left = right
  | _, _ => False

/-- Whether an entry can be taken for another one: an unresolved dependency without a notation for
one without parts, one whose group starts as the text of a file or of a project does for such a
thing, and a project whose path is no text for another project. -/
def IsMistakable : Entry → Entry → Prop
  | .unresolved left, .unresolved right => left.IsBare ∧ right.coordinate = ":"
  | .unresolved left, .artifact _ => ∃ rest, left.group = "/" ++ rest
  | .unresolved left, .reference _ => ∃ rest, left.group = "project " ++ rest
  | .reference (.project left), .reference (.project _) => ∀ text, left ≠ .str text
  | _, _ => False

variable {left right : Entry}

theorem SameThing.identity_eq (same : left.SameThing right) : left.identity = right.identity := by
  cases left with
  | artifact left =>
      cases right with
      | artifact right => exact congrArg (fun file => (spelledPath file).text) same
      | _ => exact same.elim
  | unresolved left =>
      cases right with
      | unresolved right =>
          obtain ⟨_, _, group, name, version⟩ := same
          simp only [identity, UnresolvedDependency.coordinate, group, name, version]
      | _ => exact same.elim
  | reference left =>
      cases left with
      | project left =>
          cases right with
          | reference right =>
              cases right with
              | project right => exact congrArg (fun path => "project " ++ path.display) same
              | unsupported _ => exact same.elim
          | _ => exact same.elim
      | unsupported _ => exact same.elim

theorem sameThing_or_bare {left right : UnresolvedDependency}
    (leftRead : left.IsNoted ∨ left.IsBare) (rightRead : right.IsNoted ∨ right.IsBare)
    (same : left.coordinate = right.coordinate) :
    SameThing (.unresolved left) (.unresolved right) ∨
      IsMistakable (.unresolved left) (.unresolved right) ∨
        IsMistakable (.unresolved right) (.unresolved left) := by
  have bare {dependency : UnresolvedDependency} (isBare : dependency.IsBare) :
      dependency.coordinate = ":" := by
    obtain ⟨_, group, name, version⟩ := isBare
    rw [UnresolvedDependency.coordinate, group, name, version]
    rfl
  obtain leftNoted | leftBare := leftRead
  · obtain rightNoted | rightBare := rightRead
    · exact .inl ⟨leftNoted, rightNoted, UnresolvedDependency.parts_of_coordinate
        (UnresolvedDependency.hasPlainParts_of_isRead (.inl leftNoted))
        (UnresolvedDependency.hasPlainParts_of_isRead (.inl rightNoted)) same⟩
    · exact .inr (.inr ⟨rightBare, same.trans (bare rightBare)⟩)
  · exact .inr (.inl ⟨leftBare, same.symm.trans (bare leftBare)⟩)

theorem sameThing_or_other {left right : Json.Value}
    (same : "project " ++ left.display = "project " ++ right.display) :
    SameThing (.reference (.project left)) (.reference (.project right)) ∨
      IsMistakable (.reference (.project left)) (.reference (.project right)) ∨
        IsMistakable (.reference (.project right)) (.reference (.project left)) := by
  by_cases leftText : ∃ text, left = .str text
  · by_cases rightText : ∃ text, right = .str text
    · obtain ⟨text, rfl⟩ := leftText
      obtain ⟨other, rfl⟩ := rightText
      exact .inl (congrArg Json.Value.str (String.append_right_inj "project " |>.mp same))
    · exact .inr (.inr fun text isText => rightText ⟨text, isText⟩)
  · exact .inr (.inl fun text isText => leftText ⟨text, isText⟩)

/-- Entries of one identity stand for the same thing, or one can be taken for the other. -/
theorem sameThing_or_mistakable (leftRead : left.IsRead) (rightRead : right.IsRead)
    (same : left.identity = right.identity) :
    left.SameThing right ∨ left.IsMistakable right ∨ right.IsMistakable left := by
  cases left with
  | artifact left =>
      cases right with
      | artifact right => exact .inl (file_eq_of_text leftRead rightRead same)
      | unresolved right => exact .inr (.inr (exists_group_of_file leftRead same.symm))
      | reference right =>
          obtain ⟨path, rfl⟩ := rightRead
          exact absurd same (text_ne_project leftRead path.display)
  | unresolved left =>
      cases right with
      | artifact right => exact .inr (.inl (exists_group_of_file rightRead same))
      | unresolved right => exact sameThing_or_bare leftRead rightRead same
      | reference right =>
          obtain ⟨path, rfl⟩ := rightRead
          exact .inr (.inl (UnresolvedDependency.exists_group_of_prefix (by decide) same))
  | reference left =>
      obtain ⟨leftPath, rfl⟩ := leftRead
      cases right with
      | artifact right => exact absurd same.symm (text_ne_project rightRead leftPath.display)
      | unresolved right =>
          exact .inr (.inr (UnresolvedDependency.exists_group_of_prefix (by decide) same.symm))
      | reference right =>
          obtain ⟨rightPath, rfl⟩ := rightRead
          exact sameThing_or_other same

end Entry

/-- Whether a module of a build lists an entry in one of its configurations. -/
def Build.Lists (build : Build) (entry : Entry) : Prop :=
  ∃ settings ∈ build.modules, ∃ named ∈ settings.configurations, entry ∈ named.2.entries

/-- Entries that are read from data have one identity if they stand for the same thing, and only
then unless one of them can be taken for the other; every unresolved dependency has the parts of
its notation, or is declared by files alone and has none. -/
theorem identities_tell_entries_apart {isDirectory : Path → Bool} {start directory source : Path}
    {data : Json.Value} {build : Build}
    (read : Build.ofData isDirectory start directory source data = .ok build)
    {left right : Entry} (isLeft : build.Lists left) (isRight : build.Lists right) :
    (left.SameThing right → left.identity = right.identity) ∧
      (left.identity = right.identity →
        left.SameThing right ∨ left.IsMistakable right ∨ right.IsMistakable left) ∧
      ∀ dependency, left = .unresolved dependency → dependency.IsNoted ∨ dependency.IsBare := by
  have isRead {entry : Entry} (isEntry : build.Lists entry) : entry.IsRead := by
    obtain ⟨settings, isModule, named, isNamed, member⟩ := isEntry
    exact (Build.isRead_of_ofData read isModule named isNamed).entries entry member
  refine ⟨Entry.SameThing.identity_eq,
    Entry.sameThing_or_mistakable (isRead isLeft) (isRead isRight), ?_⟩
  rintro dependency rfl
  exact isRead isLeft

/-! ## Entries of one identity -/

section Collisions

open Json (Value)

/-- The data of a build with one module, which has one configuration with dependencies. -/
def compiledData (dependencies : List Value) : Value :=
  .obj [("modules", .arr [.obj [("name", .str "a"), ("configurations",
    .obj [("compile", .obj [("dependencies", .arr dependencies)])])]])]

def compiledModule (configuration : Configuration) : ModuleSettings :=
  { ModuleSettings.ofNameAndDirectory (.str "a") Path.workspace with
    configurations := [("compile", configuration)] }

def compiledBuild (configuration : Configuration) : Build where
  rootDirectory := Path.workspace
  modules := [compiledModule configuration]
  project := none
  pathVariables := ∅

/-- Whether data of a build in a workspace are read to a build. -/
def ReadsTo (data : Value) (build : Build) : Prop :=
  Build.ofData (fun _ => true) Path.workspace Path.here ⟨.relative, ["build.json"], by decide⟩
    data = .ok build

/-- Whether the data with some dependencies are read to a build. -/
def IsReadTo (dependencies : List Value) (build : Build) : Prop :=
  ReadsTo (compiledData dependencies) build

def missingNotation (text : String) : Value :=
  .obj [("notation", .str text), ("unresolved", .str "missing")]

def missingFile (text : String) : Value :=
  .obj [("files", .arr [.str text]), ("unresolved", .str "missing")]

/-- What a notation that could not be resolved is read to. -/
def notedDependency (text group name : String) (version : Option String) :
    UnresolvedDependency :=
  ⟨group, name, version, .str "missing", .str text⟩

/-- What a dependency on a file alone that could not be resolved is read to. -/
def bareDependency (text : String) : UnresolvedDependency :=
  ⟨"", "", none, .str "missing", .str ("files(" ++ text ++ ")")⟩

/-- The scopes of one configuration: only one of them holds its entries. -/
theorem classify_compiled (configuration : Configuration) :
    classify standardScopes [("compile", configuration)] =
      [("PROVIDED", ⟨[], []⟩),
        ("COMPILE", ⟨distinct (configuration.entries.map Entry.identity), ["compile"]⟩),
        ("RUNTIME", ⟨[], ["runtime"]⟩), ("TEST", ⟨[], ["testRuntime"]⟩)] := by
  have order : scopeOrder standardScopes = builtInScopes := by decide
  rw [classify, order, builtInScopes]
  simp [claimScopes, standardScopes, Keyed.get?, ScopeRules.reach, identitiesIn, identitiesOf,
    addTestOverlap, testOverlap, addShared, sharedScope, distinct]

/-- The libraries of one configuration whose entries stand in the order of their declarations. -/
theorem libraries_compiledModule {configuration : Configuration} {anchors : PathVariables}
    {libraries : List Library}
    (flattened : flatten [("compile", configuration)] = .ok [("compile", configuration)])
    (ordered : configuration.declarationOrder = .ok configuration.entries)
    (made : librariesOf
      (Entry.library anchors (compiledModule configuration).attachments "COMPILE")
      (freshEntries (distinct (configuration.entries.map Entry.identity)) []
        configuration.entries) = .ok libraries)
    (someMade : libraries.isEmpty = false) :
    (compiledModule configuration).libraries anchors standardScopes =
      .ok [("COMPILE", libraries)] := by
  have configurations : (compiledModule configuration).configurations =
      [("compile", configuration)] := rfl
  have found : Keyed.get? "compile" [("compile", configuration)] = some configuration := rfl
  rw [ModuleSettings.libraries, configurations, flattened]
  dsimp only [bind, Except.bind]
  rw [classify_compiled]
  simp only [buildLibraries, scopeLibraries, found, ordered, made, bind, Except.bind, pure,
    Except.pure, List.append_nil, List.isEmpty_nil, someMade, if_true, Bool.false_eq_true, if_false]
  rfl

theorem lists_compiledBuild {configuration : Configuration} {entry : Entry}
    (member : entry ∈ configuration.entries) : (compiledBuild configuration).Lists entry :=
  ⟨_, List.mem_singleton_self _, _, List.mem_singleton_self _, member⟩

/-- Notations that differ in their classifiers stand for the same thing. -/
theorem classified_notations_are_one_thing : ∃ build left right,
    IsReadTo [missingNotation "g:n:1", missingNotation "g:n:1:tests"] build ∧
      build.Lists left ∧ build.Lists right ∧ left.identity = right.identity ∧
      left.SameThing right := by
  let left := notedDependency "g:n:1" "g" "n" (some "1")
  let right := notedDependency "g:n:1:tests" "g" "n" (some "1")
  let build := compiledBuild { Configuration.empty "compile" with
    declared := [.str "g:n:1", .str "g:n:1:tests"]
    unresolved := [left, right] }
  have read : IsReadTo [missingNotation "g:n:1", missingNotation "g:n:1:tests"] build := rfl
  have isLeft : build.Lists (.unresolved left) := lists_compiledBuild List.mem_cons_self
  have isRight : build.Lists (.unresolved right) :=
    lists_compiledBuild (List.mem_cons_of_mem _ List.mem_cons_self)
  have apart := (identities_tell_entries_apart read isLeft isRight).2.1
  refine ⟨build, .unresolved left, .unresolved right, read, isLeft, isRight, rfl, ?_⟩
  rcases apart rfl with same | ⟨⟨_, group, _⟩, _⟩ | ⟨⟨_, group, _⟩, _⟩
  · exact same
  · exact absurd group (by decide)
  · exact absurd group (by decide)

/-- Whether data are read to a build with entries that have one identity and stand for different
things. -/
def Confuses (dependencies : List Value) : Prop :=
  ∃ build left right, IsReadTo dependencies build ∧ build.Lists left ∧ build.Lists right ∧
    left.identity = right.identity ∧ ¬left.SameThing right

def bareConfiguration : Configuration :=
  { Configuration.empty "compile" with
    declared := [.str "files(a.jar)", .str "files(b.jar)"]
    unresolved := [bareDependency "a.jar", bareDependency "b.jar"] }

theorem libraries_bareConfiguration :
    (compiledModule bareConfiguration).libraries ⟨Path.workspace, ∅⟩ standardScopes =
      .ok [("COMPILE", [.unresolved "COMPILE" "" "" none])] := by
  have keys : keysOf bareConfiguration.declared =
      .ok [.str "files(a.jar)", .str "files(b.jar)"] := rfl
  have ordered := declarationOrder_of_ordered keys rfl (by decide)
  exact libraries_compiledModule rfl ordered (by decide +kernel) rfl

theorem confuses_bare : Confuses [missingFile "a.jar", missingFile "b.jar"] := by
  refine ⟨compiledBuild bareConfiguration, .unresolved (bareDependency "a.jar"),
    .unresolved (bareDependency "b.jar"), rfl, lists_compiledBuild List.mem_cons_self,
    lists_compiledBuild (List.mem_cons_of_mem _ List.mem_cons_self), rfl, ?_⟩
  rintro ⟨⟨text, isText, group, _⟩, _⟩
  obtain rfl := Value.str.inj isText
  exact absurd group (by decide +kernel)

theorem confuses_project :
    Confuses [missingNotation "project :b", .obj [("project", .str ":b")]] :=
  ⟨compiledBuild { Configuration.empty "compile" with
      declared := [.str "project :b", .str ":b"]
      unresolved := [notedDependency "project :b" "project " "b" none]
      references := [.project (.str ":b")] },
    _, _, rfl, lists_compiledBuild List.mem_cons_self,
    lists_compiledBuild (List.mem_cons_of_mem _ List.mem_cons_self), rfl, id⟩

theorem confuses_file :
    Confuses [missingNotation "/ws/a:b", .obj [("files", .arr [.str "a:b"])]] :=
  ⟨compiledBuild { Configuration.empty "compile" with
      declared := [.str "/ws/a:b", .str "files(a:b)"]
      unresolved := [notedDependency "/ws/a:b" "/ws/a" "b" none]
      artifacts := [⟨some ⟨.single, ["ws", "a:b"], by decide⟩, none, none, none, .null, none, none,
        .str "files(a:b)"⟩] },
    _, _, rfl, lists_compiledBuild List.mem_cons_self,
    lists_compiledBuild (List.mem_cons_of_mem _ List.mem_cons_self), rfl, id⟩

theorem confuses_number :
    Confuses [.obj [("project", .str "3")], .obj [("project", .int 3)]] :=
  ⟨compiledBuild { Configuration.empty "compile" with
      declared := [.str "3", .int 3]
      references := [.project (.str "3"), .project (.int 3)] },
    _, _, rfl, lists_compiledBuild List.mem_cons_self,
    lists_compiledBuild (List.mem_cons_of_mem _ List.mem_cons_self), rfl, nofun⟩

/-- Two dependencies on files alone have one identity, and so one library and one line that reports
it; and so have an unresolved dependency and a project or a file, and projects of a text and of a
number. -/
theorem different_entries_share_identities :
    Confuses [missingFile "a.jar", missingFile "b.jar"] ∧
    (compiledModule bareConfiguration).libraries ⟨Path.workspace, ∅⟩ standardScopes =
        .ok [("COMPILE", [.unresolved "COMPILE" "" "" none])] ∧
    diagnostics [("COMPILE", [.unresolved "COMPILE" "" "" none])]
        (compiledModule bareConfiguration).configurations = ["Could not resolve: :"] ∧
    Confuses [missingNotation "project :b", .obj [("project", .str ":b")]] ∧
    Confuses [missingNotation "/ws/a:b", .obj [("files", .arr [.str "a:b"])]] ∧
    Confuses [.obj [("project", .str "3")], .obj [("project", .int 3)]] :=
  ⟨confuses_bare, libraries_bareConfiguration, by decide +kernel, confuses_project,
    confuses_file, confuses_number⟩

end Collisions

end IdeModules
