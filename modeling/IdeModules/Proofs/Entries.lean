import IdeModules.Proofs.Dependencies
import IdeModules.Proofs.Rendering
import IdeModules.Proofs.Targets

/-!
# Entries that are read

A dependency adds one thing to a configuration: a reference to a project, an unresolved
dependency, or artifacts.  So the entries of configurations that are read from data are
of these kinds only, a file is a plain path, and an unresolved dependency has the parts
of its notation, or none if it states nothing but files.
-/

namespace IdeModules

/-- Whether a path that may be missing is plain if it is there. -/
def IsPlainIfAny (path : Option Path) : Prop :=
  ∀ found, path = some found → found.IsPlain

/-! ## Unresolved dependencies -/

namespace UnresolvedDependency

/-- Whether an unresolved dependency has the parts of the notation that declares it, those that the
notation lacks being empty. -/
def IsNoted (dependency : UnresolvedDependency) : Prop :=
  ∃ text, dependency.declaredBy = .str text ∧
    dependency.group = (DeclaredParts.ofText text).group.getD "" ∧
    dependency.name = (DeclaredParts.ofText text).name.getD "" ∧
    dependency.version = (DeclaredParts.ofText text).version

/-- Whether an unresolved dependency is declared by files alone, and so has no parts. -/
def IsBare (dependency : UnresolvedDependency) : Prop :=
  (∃ files, dependency.declaredBy = .str ("files(" ++ joined ", " files ++ ")")) ∧
    dependency.group = "" ∧ dependency.name = "" ∧ dependency.version = none

end UnresolvedDependency

/-! ## Configurations -/

/-- What the data of a configuration can make of it. -/
structure Configuration.IsRead (configuration : Configuration) : Prop where
  artifacts : ∀ found ∈ configuration.artifacts, IsPlainIfAny found.file
  unresolved : ∀ dependency ∈ configuration.unresolved, dependency.IsNoted ∨ dependency.IsBare
  references : ∀ reference ∈ configuration.references, ∃ path, reference = .project path

/-- What the data of a configuration can make of an entry. -/
def Entry.IsRead : Entry → Prop
  | .artifact found => IsPlainIfAny found.file
  | .unresolved dependency => dependency.IsNoted ∨ dependency.IsBare
  | .reference found => ∃ path, found = .project path

theorem Configuration.IsRead.entries {configuration : Configuration}
    (isRead : configuration.IsRead) : ∀ entry ∈ configuration.entries, entry.IsRead := by
  simp only [Configuration.entries, List.forall_mem_append, List.forall_mem_map]
  exact ⟨⟨isRead.artifacts, isRead.unresolved⟩, isRead.references⟩

namespace Build

open Json (Value)

/-- What a declared dependency can add to a configuration. -/
inductive Adds (base : Path) (before : Configuration) : Configuration → Prop where
  | reference (path : Value) :
      Adds base before { before with
        declared := before.declared ++ [path]
        references := before.references ++ [.project path] }
  | unresolved (declaration : Value) (dependency : UnresolvedDependency)
      (isRead : dependency.IsNoted ∨ dependency.IsBare) :
      Adds base before { before with
        declared := before.declared ++ [declaration]
        unresolved := before.unresolved ++ [dependency] }
  | artifacts (declaration : Value) (artifacts : List Artifact)
      (areRead : ∀ found ∈ artifacts, ∃ value, pathIn base value = .ok found.file) :
      Adds base before { before with
        declared := before.declared ++ [declaration]
        artifacts := before.artifacts ++ artifacts }

section Dependency

variable {base : Path} {configuration result : Configuration}

/-- What a dependency is declared by gives its parts, unless it has none. -/
theorem isNoted_or_isBare {dependency declaration reason : Value} {parts : DeclaredParts}
    (declares : Declares dependency declaration parts) :
    (UnresolvedDependency.make (parts.group.getD "") (parts.name.getD "") parts.version reason
        declaration).IsNoted ∨
      (UnresolvedDependency.make (parts.group.getD "") (parts.name.getD "") parts.version reason
        declaration).IsBare := by
  cases declares with
  | stated _ _ areParts =>
      revert areParts
      generalize Option.getD _ _ = stated
      intro areParts
      cases stated with
      | str text =>
          obtain rfl := Except.ok.inj areParts
          exact .inl ⟨text, rfl, rfl, rfl, rfl⟩
      | _ => exact nomatch areParts
  | files names => exact .inr ⟨⟨names, rfl⟩, rfl, rfl, rfl⟩

theorem addDependency_cases {dependency : Value}
    (added : addDependency base configuration dependency = .ok result) :
    Adds base configuration result := by
  cases readsDependency base configuration dependency result added with
  | reference _ => exact .reference _
  | unresolved _ _ declares => exact .unresolved _ _ (isNoted_or_isBare declares)
  | artifacts _ _ _ areRead =>
      refine .artifacts _ _ ?_
      intro found member
      obtain ⟨file, _, isRead⟩ := exists_mem_of_forall₂ areRead found member
      exact ⟨file, isRead.file⟩

theorem addArtifact_cases {artifact : Value}
    (added : addArtifact base configuration artifact = .ok result) :
    ∃ found value, pathIn base value = .ok found.file ∧
      result = { configuration with artifacts := configuration.artifacts ++ [found] } := by
  unfold addArtifact at added
  simp only [except_bind_eq_ok_iff] at added
  obtain ⟨_, _, parts, _, value, _, path, isPath, _, _, _, _, _, _, _, _, added⟩ := added
  obtain rfl := Except.ok.inj added
  exact ⟨_, value, isPath, rfl⟩

/-! ## What is read -/

theorem isPlainIfAny_of_pathIn {value : Value} {path : Option Path}
    (read : pathIn base value = .ok path) : IsPlainIfAny path := by
  rintro found rfl
  cases value with
  | str text =>
      obtain rfl := Option.some.inj (Except.ok.inj read)
      exact isPlain_normalize base (Path.ofText text)
  | _ => exact nomatch read

theorem isRead_of_adds (isRead : configuration.IsRead)
    (adds : Adds base configuration result) : result.IsRead := by
  cases adds with
  | reference path =>
      refine ⟨isRead.artifacts, isRead.unresolved, ?_⟩
      exact List.forall_mem_append.mpr
        ⟨isRead.references, List.forall_mem_singleton.mpr ⟨path, rfl⟩⟩
  | unresolved declaration dependency isNew =>
      refine ⟨isRead.artifacts, ?_, isRead.references⟩
      exact List.forall_mem_append.mpr ⟨isRead.unresolved, List.forall_mem_singleton.mpr isNew⟩
  | artifacts declaration artifacts areRead =>
      refine ⟨List.forall_mem_append.mpr ⟨isRead.artifacts, ?_⟩, isRead.unresolved,
        isRead.references⟩
      intro found member
      obtain ⟨value, isPath⟩ := areRead found member
      exact isPlainIfAny_of_pathIn isPath

/-- What each step of a run keeps holds after the run. -/
theorem holds_of_foldlM {α β : Type} {holds : α → Prop} {step : α → β → Except Error α}
    (keeps : ∀ before item after, holds before → step before item = .ok after → holds after)
    {items : List β} {start last : α} (isStart : holds start)
    (done : items.foldlM step start = .ok last) : holds last := by
  induction items generalizing start with
  | nil =>
      obtain rfl := Except.ok.inj done
      exact isStart
  | cons item rest ih =>
      rw [List.foldlM_cons] at done
      obtain ⟨next, isNext, done⟩ := except_bind_ok done
      exact ih (keeps start item next isStart isNext) done

theorem isRead_configurationOf {name : String} {value : Value}
    (read : configurationOf base name value = .ok configuration) : configuration.IsRead := by
  unfold configurationOf at read
  simp only [except_bind_eq_ok_iff] at read
  obtain ⟨extendsFrom, _, dependencies, _, declared, areDeclared, artifacts, _, read⟩ := read
  have declaredRead : declared.IsRead := by
    apply holds_of_foldlM _ _ areDeclared
    · intro before item after isRead added
      exact isRead_of_adds isRead (addDependency_cases added)
    · exact ⟨List.forall_mem_nil _, List.forall_mem_nil _, List.forall_mem_nil _⟩
  apply holds_of_foldlM _ declaredRead read
  intro before item after isRead added
  obtain ⟨found, value, isPath, rfl⟩ := addArtifact_cases added
  refine ⟨List.forall_mem_append.mpr ⟨isRead.artifacts, List.forall_mem_singleton.mpr ?_⟩,
    isRead.unresolved, isRead.references⟩
  exact isPlainIfAny_of_pathIn isPath

end Dependency

section Module

variable {isDirectory : Path → Bool}

theorem IsReadFrom.isRead {root : Path} {value idea : Value} {settings : ModuleSettings}
    (isModule : IsReadFrom isDirectory root value idea settings) :
    ∀ named ∈ settings.configurations, named.2.IsRead := by
  obtain ⟨members, _, areConfigurations⟩ := isModule.configurations
  intro named member
  obtain ⟨_, _, isNamed⟩ := exists_of_mem_mapM areConfigurations member
  obtain ⟨configuration, isConfiguration, isNamed⟩ := except_bind_ok isNamed
  obtain rfl := Except.ok.inj isNamed
  exact isRead_configurationOf isConfiguration

/-- The configurations of a build that is read from data hold what the data can make of them. -/
theorem isRead_of_ofData {start directory source : Path} {data : Value} {build : Build}
    (read : ofData isDirectory start directory source data = .ok build)
    {settings : ModuleSettings} (member : settings ∈ build.modules) :
    ∀ named ∈ settings.configurations, named.2.IsRead := by
  obtain ⟨_, _, isModule⟩ := (modules_of_ofData read).2 settings member
  exact isModule.isRead

end Module

end Build

end IdeModules
