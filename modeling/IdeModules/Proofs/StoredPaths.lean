import IdeModules.Proofs.Identities
import IdeModules.Proofs.Json.Worth
import IdeModules.Proofs.Loading
import IdeModules.Proofs.PathVariables
import Mathlib.Data.List.Forall2

/-!
# Stored paths

Every path of a build is made normal when it is read, so normalizing it again changes nothing.  The
text of a file is walked through segment by segment from the directory of its module, and the files
of two texts have one identity just where both walks end at one path.
-/

namespace IdeModules

/-! ## Evaluating a text -/

namespace Path

/-- The segments that a segment of a text leads to: empty segments and single dots lead nowhere
else, a double dot leads back unless at a root, and any other segment leads on. -/
def enter (walked : List String) (segment : String) : List String :=
  if segment = "" ∨ segment = "." then walked
  else if segment = ".." then walked.dropLast
  else walked ++ [segment]

/-- Where a text starts: at a root if there are slashes at its front, exactly two of which make a
root of their own, or else at the path that it is read from. -/
def origin (base : Path) (text : String) : Path :=
  match (text.toList.takeWhile (· = '/')).length with
  | 0 => base
  | 2 => ⟨.double, [], proper_nil⟩
  | _ => ⟨.single, [], proper_nil⟩

theorem enter_eq (walked : List String) (segment : String) : enter walked segment =
    if isSegment segment = true then step walked segment else walked := by
  by_cases stays : segment = "" ∨ segment = "."
  · have notSegment : isSegment segment = false := by
      rcases stays with rfl | rfl <;> rfl
    rw [enter, if_pos stays, notSegment, if_neg Bool.false_ne_true]
  · have isSegment : isSegment segment = true := by simpa [Path.isSegment] using stays
    rw [enter, if_neg stays, if_pos isSegment, step]

/-- Entering segments in turn is a walk through those of them that lead somewhere. -/
theorem foldl_enter (segments walked : List String) :
    segments.foldl enter walked = (segments.filter isSegment).foldl step walked := by
  induction segments generalizing walked with
  | nil => rfl
  | cons segment rest ih =>
      rw [List.foldl_cons, ih, enter_eq]
      by_cases leads : isSegment segment = true
      · rw [if_pos leads, List.filter_cons_of_pos leads, List.foldl_cons]
      · rw [if_neg leads, List.filter_cons_of_neg leads]

/-- The path that a text leads to from inside another one. -/
def evaluate (base : Path) (text : String) : Path where
  root := (origin base text).root
  segments := (pieces '/' text).foldl enter (origin base text).segments
  proper := by
    intro segment member
    rw [foldl_enter] at member
    rcases mem_of_mem_foldl_step member with inOrigin | inText
    · exact (origin base text).proper segment inOrigin
    · exact (ofText text).proper segment inText

theorem takeWhile_slash_eq_nil {cs : List Char} (noSlash : ∀ rest, cs ≠ '/' :: rest) :
    cs.takeWhile (· = '/') = [] := by
  cases cs with
  | nil => rfl
  | cons c rest =>
      apply List.takeWhile_cons_of_neg
      intro isSlash
      exact noSlash rest (by rw [of_decide_eq_true isSlash])

theorem origin_eq (base : Path) (text : String) : origin base text =
    if rootOf text.toList = .relative then base
    else ⟨rootOf text.toList, [], fun _ => nofun⟩ := by
  rw [rootOf.eq_def]
  split
  · rename_i rest isText
    simp [origin, isText]
  · rename_i rest notThird isText
    have stops : rest.takeWhile (· = '/') = [] :=
      takeWhile_slash_eq_nil fun more same => notThird more (by rw [same])
    simp [origin, isText, stops]
  · rename_i rest notThird notSecond isText
    have stops : rest.takeWhile (· = '/') = [] :=
      takeWhile_slash_eq_nil fun more same => notSecond more (by rw [same])
    simp [origin, isText, stops]
  · rename_i notThird notSecond notFirst
    have stops := takeWhile_slash_eq_nil notFirst
    simp [origin, stops]

/-- Evaluating a text from inside a plain path is normalizing the path that the text writes. -/
theorem evaluate_eq_normalize {base : Path} (plain : base.IsPlain) (text : String) :
    evaluate base text = normalize base (ofText text) := by
  have kept {root : PathRoot} (isRoot : root ≠ .relative) :
      (if root = .double then PathRoot.double else PathRoot.single) = root := by
    cases root with
    | relative => exact absurd rfl isRoot
    | single => rfl
    | double => rfl
  by_cases isRelative : rootOf text.toList = .relative
  · have starts : origin base text = base := by rw [origin_eq, if_pos isRelative]
    have joins : base.join (ofText text) = base.append (ofText text) :=
      if_neg (by simp [isAbsolute, ofText, isRelative])
    have isRoot : base.root ≠ .relative := by simpa [isAbsolute] using plain.absolute
    apply Path.ext
    · rw [root_normalize, joins]
      exact (congrArg Path.root starts).trans (kept isRoot).symm
    · show (pieces '/' text).foldl enter (origin base text).segments = _
      rw [starts, foldl_enter, segments_normalize, joins, segments_append, walk,
        List.foldl_append, FileTree.foldl_step_of_forward plain.forward, List.nil_append,
        segments_ofText]
  · have starts : origin base text = ⟨rootOf text.toList, [], fun _ => nofun⟩ := by
      rw [origin_eq, if_neg isRelative]
    have joins : base.join (ofText text) = ofText text :=
      join_of_isAbsolute (by simpa [isAbsolute, ofText] using isRelative) base
    apply Path.ext
    · rw [root_normalize, joins]
      exact (congrArg Path.root starts).trans (kept isRelative).symm
    · show (pieces '/' text).foldl enter (origin base text).segments = _
      rw [starts, foldl_enter, segments_normalize, joins, walk, segments_ofText]

end Path

/-! ## Stored paths -/

def Artifact.storedPaths (artifact : Artifact) : List (Option Path) :=
  [artifact.file, artifact.sources, artifact.javadoc]

def SourceSet.storedPaths (sources : SourceSet) : List (Option Path) :=
  sources.sourceDirectories ++ sources.outputDirectories.map Prod.fst

def ModuleSettings.storedPaths (settings : ModuleSettings) : List (Option Path) :=
  [some settings.projectDirectory, settings.buildDirectory, settings.metadataDirectory,
      settings.contentRoot, settings.outputDirectory, settings.testOutputDirectory,
      settings.generateTo] ++
    settings.sourceDirectories ++ settings.testSourceDirectories ++ settings.excludedDirectories ++
    settings.sourceSets.flatMap SourceSet.storedPaths ++
    Keyed.values settings.pathVariables.entries ++
    settings.configurations.flatMap fun named => named.2.artifacts.flatMap Artifact.storedPaths

def Build.storedPaths (build : Build) : List (Option Path) :=
  some build.rootDirectory :: Keyed.values build.pathVariables.entries ++
    build.modules.flatMap ModuleSettings.storedPaths

namespace Build

open Json (Value)

/-! ## Files of data -/

def member? (name : String) : Value → Option Value
  | .obj members => Value.lookup name members
  | _ => none

def listedItems (name : String) (value : Value) : List Value :=
  match (member? name value).map itemsOf with
  | some (.ok items) => items
  | _ => []

/-- The files that a dependency is resolved to: none for a project or if it is unresolved. -/
def dependencyFiles (dependency : Value) : List Value :=
  if (member? "project" dependency).isSome ∨ (member? "unresolved" dependency).isSome then []
  else listedItems "files" dependency

/-- The files of a configuration: those of its dependencies, then the ones that it lists itself. -/
def configurationFiles (configuration : Value) : List Value :=
  (listedItems "dependencies" configuration).flatMap dependencyFiles ++
    (listedItems "artifacts" configuration).flatMap fun artifact =>
      (member? "file" artifact).toList

def configurationMembers (value : Value) : List (String × Value) :=
  match member? "configurations" value with
  | some (.obj members) => members
  | _ => []

theorem member?_of_memberOf {name : String} {value : Value} {found : Option Value}
    (isMember : memberOf name value = .ok found) : member? name value = found := by
  cases value with
  | obj members => exact Except.ok.inj isMember
  | _ => exact nomatch isMember

theorem member?_of_heldMember {name : String} {value found : Value}
    (isMember : heldMember name value = .ok found) : member? name value = some found := by
  cases value with
  | obj members =>
      simp only [heldMember] at isMember
      split at isMember
      · rename_i same
        exact same.trans (congrArg some (Except.ok.inj isMember))
      · exact nomatch isMember
  | _ => exact nomatch isMember

/-- An empty value lists nothing, whether or not it could list something. -/
theorem listedItems_of_isEmpty {name : String} {value : Value} {found : Option Value}
    (isMember : memberOf name value = .ok found) (isEmpty : (found.getD .null).isEmpty = true) :
    listedItems name value = [] := by
  rw [listedItems, member?_of_memberOf isMember]
  cases found with
  | none => rfl
  | some held => cases held <;> simp_all [Value.isEmpty, itemsOf]

theorem listedItems_of_itemsOf {name : String} {value : Value} {found : Option Value}
    {items : List Value} (isMember : memberOf name value = .ok found)
    (areItems : itemsOf (found.getD .null) = .ok items) : listedItems name value = items := by
  rw [listedItems, member?_of_memberOf isMember]
  cases found with
  | none => exact nomatch areItems
  | some held =>
      have isRead : itemsOf held = .ok items := areItems
      simp [isRead]

theorem listedItems_of_memberItems {name : String} {value : Value} {items : List Value}
    (areItems : memberItems name value = .ok items) : listedItems name value = items := by
  obtain ⟨found, isFound, areItems⟩ := except_bind_ok areItems
  cases found with
  | none =>
      rw [listedItems, member?_of_memberOf isFound]
      exact Except.ok.inj areItems
  | some held => exact listedItems_of_itemsOf isFound areItems

theorem listedItems_of_filledItems {name : String} {value : Value} {items : List Value}
    (areItems : filledItems name value = .ok items) : listedItems name value = items := by
  obtain ⟨found, isFound, areItems⟩ := except_bind_ok areItems
  dsimp only at areItems
  split at areItems
  · rename_i isEmpty
    obtain rfl := Except.ok.inj areItems
    exact listedItems_of_isEmpty isFound isEmpty
  · exact listedItems_of_itemsOf isFound areItems

theorem configurationMembers_of_memberMembers {value : Value} {members : List (String × Value)}
    (areMembers : memberMembers "configurations" value = .ok members) :
    configurationMembers value = members := by
  obtain ⟨found, isFound, areMembers⟩ := except_bind_ok areMembers
  rw [configurationMembers, member?_of_memberOf isFound]
  cases found with
  | none => exact Except.ok.inj areMembers
  | some held =>
      cases held with
      | obj own => exact Except.ok.inj areMembers
      | _ => exact nomatch areMembers

theorem member?_of_holdsName {name : String} {value : Value}
    (absent : holdsName name value = .ok false) : member? name value = none := by
  cases value with
  | obj members =>
      have noMember : members.any (fun member => member.1 = name) = false := Except.ok.inj absent
      cases found : Value.lookup name members with
      | none => exact found
      | some held =>
          have other := List.any_eq_false.mp noMember _ (Json.Value.mem_of_lookup found)
          exact absurd (decide_eq_true rfl) other
  | _ => rfl

/-! ## Artifacts of files -/

/-- Whether an artifact is what a file is read to. -/
structure IsArtifactOf (base : Path) (file : Value) (artifact : Artifact) : Prop where
  file : pathIn base file = .ok artifact.file
  sources : ∃ value, pathIn base value = .ok artifact.sources
  javadoc : ∃ value, pathIn base value = .ok artifact.javadoc

/-- Whether a configuration has gained the artifacts of some files, in their order. -/
def AddsFiles (base : Path) (files : List Value) (before after : Configuration) : Prop :=
  ∃ added, after.artifacts = before.artifacts ++ added ∧
    List.Forall₂ (IsArtifactOf base) files added

/-- Whether a named configuration has the name of a member and the artifacts of its files. -/
def ReadsFiles (base : Path) (member : String × Value) (named : String × Configuration) : Prop :=
  named.1 = member.1 ∧
    List.Forall₂ (IsArtifactOf base) (configurationFiles member.2) named.2.artifacts

section Reading

variable {base : Path}

theorem exists_of_memberPath {name : String} {value : Value} {path : Option Path}
    (read : memberPath base name value = .ok path) : ∃ held, pathIn base held = .ok path := by
  obtain ⟨found, _, read⟩ := except_bind_ok read
  exact ⟨_, read⟩

theorem addsNone (before : Configuration) : AddsFiles base [] before before :=
  ⟨[], (List.append_nil _).symm, .nil⟩

theorem readsOnly_addDependency (configuration : Configuration) (dependency : Value) :
    ReadsOnly (AddsFiles base (dependencyFiles dependency) configuration)
      (addDependency base configuration dependency) := by
  intro result added
  cases readsDependency base configuration dependency result added with
  | reference isPath =>
      rw [dependencyFiles, member?_of_heldMember isPath, if_pos (.inl rfl)]
      exact addsNone configuration
  | unresolved _ isReason _ =>
      rw [dependencyFiles, member?_of_memberOf isReason, if_pos (.inr rfl)]
      exact addsNone configuration
  | artifacts absent isReason areFiles areRead =>
      rw [dependencyFiles, member?_of_holdsName absent, member?_of_memberOf isReason,
        if_neg (by simp), listedItems_of_filledItems areFiles]
      refine ⟨_, rfl, areRead.imp ?_⟩
      intro file artifact isRead
      exact ⟨isRead.file, exists_of_memberPath isRead.sources, exists_of_memberPath isRead.javadoc⟩

theorem readsOnly_addArtifact (configuration : Configuration) (artifact : Value) :
    ReadsOnly (AddsFiles base (member? "file" artifact).toList configuration)
      (addArtifact base configuration artifact) := by
  apply ReadsOnly.bind
  intro _ _
  apply ReadsOnly.bind
  intro parts _
  apply ReadsOnly.bind
  intro file isFile
  apply ReadsOnly.bind
  intro path isPath
  apply ReadsOnly.bind
  intro _ _
  apply ReadsOnly.bind
  intro sources areSources
  apply ReadsOnly.bind
  intro javadoc isJavadoc
  refine .bind fun _ _ => .pure ⟨_, rfl, ?_⟩
  rw [member?_of_heldMember isFile]
  exact .cons ⟨isPath, exists_of_memberPath areSources, exists_of_memberPath isJavadoc⟩ .nil

/-- Items that each add files add all of them in turn. -/
theorem addsFiles_of_foldlM {step : Configuration → Value → Except Error Configuration}
    {filesOf : Value → List Value}
    (each : ∀ before item, ReadsOnly (AddsFiles base (filesOf item) before) (step before item))
    {items : List Value} {first last : Configuration} (done : items.foldlM step first = .ok last) :
    AddsFiles base (items.flatMap filesOf) first last := by
  induction items generalizing first with
  | nil =>
      obtain rfl := Except.ok.inj done
      exact addsNone first
  | cons item rest ih =>
      rw [List.foldlM_cons] at done
      obtain ⟨next, isNext, done⟩ := except_bind_ok done
      obtain ⟨own, gained, areOwn⟩ := each first item next isNext
      obtain ⟨others, gainedOthers, areOthers⟩ := ih done
      refine ⟨own ++ others, by rw [gainedOthers, gained, List.append_assoc], ?_⟩
      exact List.rel_append areOwn areOthers

theorem artifacts_of_configurationOf {name : String} {value : Value}
    {configuration : Configuration} (read : configurationOf base name value = .ok configuration) :
    List.Forall₂ (IsArtifactOf base) (configurationFiles value) configuration.artifacts := by
  simp only [configurationOf, except_bind_eq_ok_iff] at read
  obtain ⟨_, _, dependencies, areDependencies, declared, areDeclared, artifacts, areArtifacts,
    read⟩ := read
  obtain ⟨own, isOwn, ownFiles⟩ := addsFiles_of_foldlM readsOnly_addDependency areDeclared
  obtain ⟨others, areOthers, otherFiles⟩ := addsFiles_of_foldlM readsOnly_addArtifact read
  rw [configurationFiles, listedItems_of_memberItems areDependencies,
    listedItems_of_memberItems areArtifacts, areOthers, isOwn]
  exact List.rel_append ownFiles otherFiles

theorem readsFiles_of_mapM {members : List (String × Value)}
    {configurations : List (String × Configuration)}
    (read : (members.mapM fun member => do
      pure (member.1, ← configurationOf base member.1 member.2)) = .ok configurations) :
    List.Forall₂ (ReadsFiles base) members configurations := by
  apply (forall₂_of_mapM read).imp
  intro member named isNamed
  obtain ⟨configuration, isConfiguration, isNamed⟩ := except_bind_ok isNamed
  obtain rfl := Except.ok.inj isNamed
  exact ⟨rfl, artifacts_of_configurationOf isConfiguration⟩

end Reading

/-! ## Paths of modules -/

section Module

variable {base : Path}

theorem normal_memberPath {name : String} {value : Value} {path : Option Path}
    (read : memberPath base name value = .ok path) : IsPlainIfAny path := by
  obtain ⟨_, isPath⟩ := exists_of_memberPath read
  exact isPlainIfAny_of_pathIn isPath

theorem normal_mapM_pathIn (values : List Value) :
    ReadsOnly (fun paths => ∀ path ∈ paths, IsPlainIfAny path) (values.mapM (pathIn base)) := by
  intro paths read path member
  obtain ⟨value, _, isPath⟩ := exists_of_mem_mapM read member
  exact isPlainIfAny_of_pathIn isPath

theorem normal_memberPaths (name : String) (value : Value) :
    ReadsOnly (fun paths => ∀ path ∈ paths, IsPlainIfAny path) (memberPaths base name value) := by
  apply ReadsOnly.bind
  intro found _
  dsimp only
  split
  · exact .pure (List.forall_mem_nil _)
  · exact .bind fun items _ => normal_mapM_pathIn items

theorem normal_outputDirectoryOf (value : Value) :
    ReadsOnly (fun output => IsPlainIfAny output.1) (outputDirectoryOf base value) := by
  unfold outputDirectoryOf
  split
  · exact .bind fun path isPath => .pure (isPlainIfAny_of_pathIn isPath)
  · exact .bind fun held _ => .bind fun path isPath => .bind fun _ _ =>
      .pure (isPlainIfAny_of_pathIn isPath)

theorem normal_sourceSetOf (name : String) (value : Value) :
    ReadsOnly (fun sources => ∀ path ∈ sources.storedPaths, IsPlainIfAny path)
      (sourceSetOf base name value) := by
  intro sources read
  obtain ⟨listed, _, read⟩ := except_bind_ok read
  obtain ⟨outputs, areOutputs, read⟩ := except_bind_ok read
  obtain ⟨directories, areDirectories, read⟩ := except_bind_ok read
  obtain rfl := Except.ok.inj read
  rw [SourceSet.storedPaths, List.forall_mem_append, List.forall_mem_map]
  constructor
  · exact normal_memberPaths _ _ directories areDirectories
  · intro output member
    obtain ⟨held, _, isOutput⟩ := exists_of_mem_mapM areOutputs member
    exact normal_outputDirectoryOf held output isOutput

theorem normal_sourceSets {members : List (String × Value)} {sets : List SourceSet}
    (read : (members.mapM fun member => sourceSetOf base member.1 member.2) = .ok sets) :
    ∀ sources ∈ sets, ∀ path ∈ sources.storedPaths, IsPlainIfAny path := by
  intro sources member
  obtain ⟨held, _, isSources⟩ := exists_of_mem_mapM read member
  exact normal_sourceSetOf held.1 held.2 sources isSources

theorem normal_variables {members : List (String × Value)} {pairs : List (String × Option Path)}
    (read : (members.mapM fun member => do pure (member.1, ← pathIn base member.2)) = .ok pairs) :
    ∀ path ∈ Keyed.values (Mapping.ofPairs pairs).entries, IsPlainIfAny path := by
  rw [Keyed.values, List.forall_mem_map]
  intro entry member
  have isPair := (Keyed.mem_putAll member).resolve_right List.not_mem_nil
  obtain ⟨named, _, isEntry⟩ := exists_of_mem_mapM read isPair
  obtain ⟨path, isPath, isEntry⟩ := except_bind_ok isEntry
  obtain rfl := Except.ok.inj isEntry
  exact isPlainIfAny_of_pathIn isPath

theorem IsArtifactOf.normal {file : Value} {artifact : Artifact}
    (isArtifact : IsArtifactOf base file artifact) :
    ∀ path ∈ artifact.storedPaths, IsPlainIfAny path := by
  obtain ⟨isFile, ⟨_, areSources⟩, ⟨_, isJavadoc⟩⟩ := isArtifact
  simp only [Artifact.storedPaths, List.forall_mem_cons]
  exact ⟨isPlainIfAny_of_pathIn isFile, isPlainIfAny_of_pathIn areSources,
    isPlainIfAny_of_pathIn isJavadoc, List.forall_mem_nil _⟩

theorem normal_artifacts {members : List (String × Value)}
    {configurations : List (String × Configuration)}
    (areFiles : List.Forall₂ (ReadsFiles base) members configurations) :
    ∀ named ∈ configurations, ∀ artifact ∈ named.2.artifacts, ∀ path ∈ artifact.storedPaths,
      IsPlainIfAny path := by
  intro named isNamed artifact member
  obtain ⟨_, _, _, ofFiles⟩ := exists_mem_of_forall₂ areFiles named isNamed
  obtain ⟨file, _, isArtifact⟩ := exists_mem_of_forall₂ ofFiles artifact member
  exact isArtifact.normal

end Module

/-- Whether the configurations of a module are those of its data, with the artifacts of their
files. -/
def HoldsFiles (value : Value) (settings : ModuleSettings) : Prop :=
  List.Forall₂ (ReadsFiles settings.projectDirectory) (configurationMembers value)
    settings.configurations

/-- What the data of a module are read to. -/
structure IsModuleOf (root : Path) (value : Value) (settings : ModuleSettings) : Prop where
  directory : ∃ text, (member? "projectDir" value).getD (.str ".") = .str text ∧
    settings.projectDirectory = Path.evaluate root text
  stored : ∀ path ∈ settings.storedPaths, IsPlainIfAny path
  files : HoldsFiles value settings

theorem directory_of_projectDirectoryOf {isDirectory : Path → Bool} {root path : Path}
    {value : Value} (plain : root.IsPlain)
    (read : projectDirectoryOf isDirectory root value = .ok path) :
    ∃ text, (member? "projectDir" value).getD (.str ".") = .str text ∧
      path = Path.evaluate root text := by
  obtain ⟨held, isHeld, read⟩ := except_bind_ok read
  obtain ⟨found, isFound, read⟩ := except_bind_ok read
  rw [member?_of_memberOf isHeld]
  generalize held.getD (.str ".") = stated at isFound
  cases found with
  | none => exact nomatch read
  | some directory =>
      cases stated with
      | str text =>
          refine ⟨text, rfl, ?_⟩
          obtain rfl := Option.some.inj (Except.ok.inj isFound)
          dsimp only at read
          split at read
          · rw [Path.evaluate_eq_normalize plain]
            exact (Except.ok.inj read).symm
          · exact nomatch read
      | _ => exact nomatch isFound

/-- Every path that a module has is plain, since it is read from a member of the data. -/
theorem normal_storedPaths_of_isReadFrom {isDirectory : Path → Bool} {root : Path}
    {value idea : Value} {settings : ModuleSettings}
    (read : IsReadFrom isDirectory root value idea settings)
    (directory : settings.projectDirectory.IsPlain)
    (files : HoldsFiles value settings) :
    ∀ path ∈ settings.storedPaths, IsPlainIfAny path := by
  have isDirectory : IsPlainIfAny (some settings.projectDirectory) := by
    intro found same
    exact Option.some.inj same ▸ directory
  obtain ⟨_, _, areSets⟩ := read.sourceSets
  obtain ⟨_, pairs, _, arePairs, ofPairs⟩ := read.pathVariables
  have areVariables : ∀ path ∈ Keyed.values settings.pathVariables.entries, IsPlainIfAny path := by
    rw [ofPairs]
    exact normal_variables arePairs
  have single : ∀ path ∈ [some settings.projectDirectory, settings.buildDirectory,
      settings.metadataDirectory, settings.contentRoot, settings.outputDirectory,
      settings.testOutputDirectory, settings.generateTo], IsPlainIfAny path := by
    simp only [List.forall_mem_cons]
    exact ⟨isDirectory, normal_memberPath read.buildDirectory,
      normal_memberPath read.metadataDirectory, normal_memberPath read.contentRoot,
      normal_memberPath read.outputDirectory, normal_memberPath read.testOutputDirectory,
      normal_memberPath read.generateTo, List.forall_mem_nil _⟩
  have sources := normal_memberPaths _ _ _ read.sourceDirectories
  have tests := normal_memberPaths _ _ _ read.testSourceDirectories
  have excluded := normal_memberPaths _ _ _ read.excludedDirectories
  have sets := normal_sourceSets areSets
  have artifacts := normal_artifacts files
  simp only [ModuleSettings.storedPaths, List.forall_mem_append, List.forall_mem_flatMap]
  exact ⟨⟨⟨⟨⟨⟨single, sources⟩, tests⟩, excluded⟩, sets⟩, areVariables⟩, artifacts⟩

theorem isModuleOf_of_moduleOf {isDirectory : Path → Bool} {root : Path} (plain : root.IsPlain)
    {value : Value} {settings : ModuleSettings}
    (made : moduleOf isDirectory root value = .ok settings) : IsModuleOf root value settings := by
  obtain ⟨idea, read⟩ := exists_isReadFrom made
  obtain ⟨text, isText, isEvaluated⟩ := directory_of_projectDirectoryOf plain read.directory
  have directory : settings.projectDirectory.IsPlain := by
    rw [isEvaluated, Path.evaluate_eq_normalize plain]
    exact isPlain_normalize root (Path.ofText text)
  have files : HoldsFiles value settings := by
    obtain ⟨members, areMembers, areConfigurations⟩ := read.configurations
    rw [HoldsFiles, configurationMembers_of_memberMembers areMembers]
    exact readsFiles_of_mapM areConfigurations
  exact {
    directory := ⟨text, isText, isEvaluated⟩
    stored := normal_storedPaths_of_isReadFrom read directory files
    files := files }

/-! ## Identities of files -/

/-- The files of the data of a module with the artifacts that they are read to. -/
def filePairs (value : Value) (settings : ModuleSettings) : List (Value × Artifact) :=
  ((configurationMembers value).zip settings.configurations).flatMap fun both =>
    (configurationFiles both.1.2).zip both.2.2.artifacts

/-- Whether a module has one artifact for each file of its data, and the artifacts of two texts have
one identity if and only if both texts lead from the directory of the module to one path. -/
structure IdentifiesFiles (root : Path) (value : Value) (settings : ModuleSettings) : Prop where
  directory : ∃ text, (member? "projectDir" value).getD (.str ".") = .str text ∧
    settings.projectDirectory = Path.evaluate root text
  each : List.Forall₂ (fun member named => named.1 = member.1 ∧
      (configurationFiles member.2).length = named.2.artifacts.length)
    (configurationMembers value) settings.configurations
  identified : ∀ left ∈ filePairs value settings, ∀ right ∈ filePairs value settings,
    ∀ leftText rightText, left.1 = .str leftText → right.1 = .str rightText →
      ((Entry.artifact left.2).identity = (Entry.artifact right.2).identity ↔
        Path.evaluate settings.projectDirectory leftText =
          Path.evaluate settings.projectDirectory rightText)

theorem isArtifactOf_of_mem_filePairs {value : Value} {settings : ModuleSettings}
    (holds : HoldsFiles value settings) {pair : Value × Artifact}
    (member : pair ∈ filePairs value settings) :
    IsArtifactOf settings.projectDirectory pair.1 pair.2 := by
  obtain ⟨both, isBoth, isPair⟩ := List.mem_flatMap.mp member
  exact List.forall₂_zip (List.forall₂_zip holds isBoth).2 isPair

theorem IsModuleOf.identifiesFiles {root : Path} {value : Value} {settings : ModuleSettings}
    (isModule : IsModuleOf root value settings) : IdentifiesFiles root value settings where
  directory := isModule.directory
  each := isModule.files.imp fun _ _ both => ⟨both.1, both.2.length_eq⟩
  identified := by
    have isDirectory : some settings.projectDirectory ∈ settings.storedPaths := by
      simp [ModuleSettings.storedPaths]
    have normal := isModule.stored _ isDirectory _ rfl
    have evaluated {pair : Value × Artifact} (member : pair ∈ filePairs value settings)
        {text : String} (isText : pair.1 = .str text) :
        pair.2.file = some (Path.evaluate settings.projectDirectory text) := by
      have isFile := (isArtifactOf_of_mem_filePairs isModule.files member).file
      rw [isText] at isFile
      rw [Path.evaluate_eq_normalize normal]
      exact (Except.ok.inj isFile).symm
    have normalFile {pair : Value × Artifact} (member : pair ∈ filePairs value settings) :
        IsPlainIfAny pair.2.file :=
      isPlainIfAny_of_pathIn (isArtifactOf_of_mem_filePairs isModule.files member).file
    intro left isLeft right isRight leftText rightText isLeftText isRightText
    have same : (Entry.artifact left.2).identity = (Entry.artifact right.2).identity ↔
        left.2.file = right.2.file :=
      ⟨file_eq_of_text (normalFile isLeft) (normalFile isRight),
        congrArg fun file => (spelledPath file).text⟩
    rw [same, evaluated isLeft isLeftText, evaluated isRight isRightText, Option.some.injEq]

theorem isModuleOf_of_ofData {isDirectory : Path → Bool} {start directory source : Path}
    {data : Value} {build : Build}
    (made : ofData isDirectory start directory source data = .ok build) :
    ∃ values, listedModules data = some values ∧
      List.Forall₂ (IsModuleOf build.rootDirectory) values build.modules := by
  have read := isBuildFrom_of_ofData made
  obtain ⟨values, areValues, areModules⟩ := read.modules
  refine ⟨values, areValues, (forall₂_of_mapM areModules).imp ?_⟩
  intro value settings isModule
  rw [read.rootDirectory]
  exact isModuleOf_of_moduleOf (isPlain_normalize start directory) isModule

theorem normal_storedPaths {isDirectory : Path → Bool} {start directory source : Path}
    {data : Value} {build : Build}
    (made : ofData isDirectory start directory source data = .ok build) :
    ∀ path ∈ build.storedPaths, IsPlainIfAny path := by
  have read := isBuildFrom_of_ofData made
  obtain ⟨_, pairs, _, arePairs, ofPairs⟩ := read.pathVariables
  have isRoot : IsPlainIfAny (some build.rootDirectory) := by
    rintro found same
    obtain rfl := Option.some.inj same
    rw [read.rootDirectory]
    exact isPlain_normalize start directory
  have areVariables : ∀ path ∈ Keyed.values build.pathVariables.entries, IsPlainIfAny path := by
    rw [ofPairs]
    exact normal_variables arePairs
  rw [Build.storedPaths, List.forall_mem_append, List.forall_mem_cons, List.forall_mem_flatMap]
  constructor
  · exact ⟨isRoot, areVariables⟩
  · intro settings member
    obtain ⟨values, _, areModules⟩ := isModuleOf_of_ofData made
    obtain ⟨value, _, isModule⟩ := exists_mem_of_forall₂ areModules settings member
    exact isModule.stored

end Build

open Build

/-- Every path that a build stores is absolute and read back from its text, and normalizing it
changes nothing, wherever that is done; and the artifacts of two files of a module have one identity
if and only if the texts of the files lead to one path, segment by segment. -/
theorem identity_is_lexical_file {isDirectory : Path → Bool} {start directory source : Path}
    {data : Json.Value} {build : Build}
    (read : Build.ofData isDirectory start directory source data = .ok build) :
    (∀ path, some path ∈ build.storedPaths →
      path.isAbsolute = true ∧ Path.ofText path.text = path ∧
        ∀ place, Path.normalize place path = path) ∧
    ∃ values, listedModules data = some values ∧
      List.Forall₂ (IdentifiesFiles build.rootDirectory) values build.modules := by
  constructor
  · intro path member
    have plain := normal_storedPaths read _ member path rfl
    exact ⟨plain.absolute, Path.ofText_text path, Path.normalize_of_isPlain plain⟩
  · obtain ⟨values, areValues, areModules⟩ := isModuleOf_of_ofData read
    exact ⟨values, areValues, areModules.imp fun _ _ isModule => isModule.identifiesFiles⟩

def filesDependency (texts : List String) : Json.Value :=
  .obj [("notation", .str "g:n:1"), ("files", .arr (texts.map .str))]

def fileArtifact (path : Path) : Artifact :=
  ⟨some path, some "g", some "n", some "1", .null, none, none, .str "g:n:1"⟩

/-- Two spellings of one file have one identity, and a file at another root has one of its own. -/
theorem spellings_share_identity : ∃ build,
    IsReadTo [filesDependency ["lib/../a.jar", "/ws/./a.jar", "//ws/a.jar"]] build ∧
    (∀ path, some path ∈ build.storedPaths →
      path.isAbsolute = true ∧ Path.ofText path.text = path ∧
        ∀ place, Path.normalize place path = path) ∧
    some ⟨.double, ["ws", "a.jar"], by decide⟩ ∈ build.storedPaths ∧
    ∃ value settings, build.modules = [settings] ∧
      filePairs value settings =
        [(.str "lib/../a.jar", fileArtifact ⟨.single, ["ws", "a.jar"], by decide⟩),
          (.str "/ws/./a.jar", fileArtifact ⟨.single, ["ws", "a.jar"], by decide⟩),
          (.str "//ws/a.jar", fileArtifact ⟨.double, ["ws", "a.jar"], by decide⟩)] ∧
      IdentifiesFiles build.rootDirectory value settings := by
  let configuration : Configuration :=
    { Configuration.empty "compile" with
      declared := [.str "g:n:1"]
      artifacts := [fileArtifact ⟨.single, ["ws", "a.jar"], by decide⟩,
        fileArtifact ⟨.single, ["ws", "a.jar"], by decide⟩,
        fileArtifact ⟨.double, ["ws", "a.jar"], by decide⟩] }
  have read : IsReadTo [filesDependency ["lib/../a.jar", "/ws/./a.jar", "//ws/a.jar"]]
      (compiledBuild configuration) := rfl
  obtain ⟨stored, values, areValues, identified⟩ := identity_is_lexical_file read
  obtain rfl := Option.some.inj areValues
  obtain ⟨isModule, _⟩ := List.forall₂_cons.mp identified
  exact ⟨compiledBuild configuration, read, stored, by decide +kernel, _, _, rfl, rfl, isModule⟩

end IdeModules
