import IdeModules.Proofs.FirstPlaces
import IdeModules.Proofs.PathVariables

/-!
# Sources and generated directories

The output directories of the standard source sets are the libraries of a layout, and the
directories that hold sources or tests are its source folders if they are not among them.  Both are
told apart by their normal forms, however they are spelled, and so by their URLs, as different
normal forms have different URLs.  The output directories of any other source set are not
generated: where one of them is listed with sources, it is a source folder.
-/

namespace IdeModules

/-- Whether a source set is one of the two whose output directories are libraries. -/
def SourceSet.IsStandard (sources : SourceSet) : Prop :=
  sources.name = "main" ∨ sources.name = "test"

instance (sources : SourceSet) : Decidable sources.IsStandard :=
  inferInstanceAs (Decidable (_ ∨ _))

namespace ModuleSettings

/-! ## Listed and generated directories -/

/-- Whether a module lists a directory with its sources, or with its tests. -/
def ListsSources (settings : ModuleSettings) (directory : Option Path) (isTest : Bool) : Prop :=
  (∃ sources ∈ settings.sourceSets, directory ∈ sources.sourceDirectories ∧
    isTest = sources.isTest) ∨
  (directory ∈ settings.sourceDirectories ∧ isTest = false) ∨
  (directory ∈ settings.testSourceDirectories ∧ isTest = true)

/-- The output directories of the standard source sets with their tasks, in order. -/
def standardOutputs (settings : ModuleSettings) :
    List (SourceSet × Option Path × Json.Value) :=
  settings.sourceSets.flatMap fun sources =>
    if sources.IsStandard then sources.outputDirectories.map fun output => (sources, output) else []

/-- The URLs of the output directories of the standard source sets. -/
def generatedUrls (settings : ModuleSettings) (anchors : PathVariables) : List String :=
  settings.standardOutputs.map fun found => anchors.fileUrl found.2.1

/-- Whether a normal path is that of an output directory of a standard source set. -/
def IsGenerated (settings : ModuleSettings) (anchors : PathVariables) (target : Path) : Prop :=
  ∃ sources ∈ settings.sourceSets, sources.IsStandard ∧
    ∃ output ∈ sources.outputDirectories, anchors.normalize output.1 = target

/-- Whether the members of every object in the tasks of a module have different names. -/
def IsStated (settings : ModuleSettings) : Prop :=
  ∀ sources ∈ settings.sourceSets, ∀ output ∈ sources.outputDirectories, output.2.HasUniqueNames

def folderOf (anchors : PathVariables) (candidate : Option Path × Bool) : SourceFolder :=
  ⟨anchors.fileUrl candidate.1, candidate.2⟩

def libraryOf (anchors : PathVariables) (found : SourceSet × Option Path × Json.Value) : Library :=
  .files (if found.1.isTest then "TEST" else "RUNTIME") [anchors.fileUrl found.2.1] [] []

section Directories

variable {settings : ModuleSettings} {anchors : PathVariables}

theorem mem_sourceCandidates_iff {directory : Option Path} {isTest : Bool} :
    (directory, isTest) ∈ settings.sourceCandidates ↔ settings.ListsSources directory isTest := by
  simp only [sourceCandidates, ListsSources, List.mem_append, List.mem_flatMap, List.mem_map,
    Prod.mk.injEq, or_assoc]
  constructor
  · rintro (⟨sources, isSet, _, member, rfl, rfl⟩ | ⟨_, member, rfl, rfl⟩ | ⟨_, member, rfl, rfl⟩)
    · exact .inl ⟨sources, isSet, member, rfl⟩
    · exact .inr (.inl ⟨member, rfl⟩)
    · exact .inr (.inr ⟨member, rfl⟩)
  · rintro (⟨sources, isSet, member, rfl⟩ | ⟨member, rfl⟩ | ⟨member, rfl⟩)
    · exact .inl ⟨sources, isSet, _, member, rfl, rfl⟩
    · exact .inr (.inl ⟨_, member, rfl, rfl⟩)
    · exact .inr (.inr ⟨_, member, rfl, rfl⟩)

theorem mem_standardOutputs_iff {found : SourceSet × Option Path × Json.Value} :
    found ∈ settings.standardOutputs ↔ found.1 ∈ settings.sourceSets ∧ found.1.IsStandard ∧
      found.2 ∈ found.1.outputDirectories := by
  simp only [standardOutputs, List.mem_flatMap, List.mem_ite_nil_right, List.mem_map]
  constructor
  · rintro ⟨sources, isSet, isStandard, output, isOutput, rfl⟩
    exact ⟨isSet, isStandard, isOutput⟩
  · rintro ⟨isSet, isStandard, isOutput⟩
    exact ⟨found.1, isSet, isStandard, found.2, isOutput, rfl⟩

theorem generated_eq (settings : ModuleSettings) (anchors : PathVariables) :
    settings.generated anchors = settings.standardOutputs.map fun found =>
      ⟨anchors.normalize found.2.1, found.1, found.2.2⟩ := by
  rw [generated, standardOutputs, List.map_flatMap]
  apply List.flatMap_congr
  intro sources _
  have isFor : generatedFor anchors sources = if sources.IsStandard then
      sources.outputDirectories.map fun output => ⟨anchors.normalize output.1, sources, output.2⟩
      else [] := rfl
  rw [isFor, apply_ite (List.map _), List.map_map, List.map_nil]
  rfl

theorem mem_generated_iff {target : Path} :
    target ∈ (settings.generated anchors).map GeneratedDirectory.directory ↔
      settings.IsGenerated anchors target := by
  rw [generated_eq, List.map_map, List.mem_map]
  constructor
  · rintro ⟨found, member, same⟩
    obtain ⟨isSet, isStandard, isOutput⟩ := mem_standardOutputs_iff.mp member
    exact ⟨found.1, isSet, isStandard, found.2, isOutput, same⟩
  · rintro ⟨sources, isSet, isStandard, output, isOutput, same⟩
    exact ⟨(sources, output), mem_standardOutputs_iff.mpr ⟨isSet, isStandard, isOutput⟩, same⟩

theorem exists_outputUrl_iff {given : Option Path} {kind : String} :
    (∃ url, settings.outputUrl anchors given kind = .ok url) ↔
      given ≠ none ∨ ∃ name, settings.name = .str name := by
  cases given with
  | some directory => exact ⟨fun _ => .inl (Option.some_ne_none _), fun _ => ⟨_, rfl⟩⟩
  | none =>
      rw [outputUrl]
      cases isName : settings.name <;> simp

theorem exists_outputUrls_iff (isOwn : settings.inheritOutput = .bool false) :
    (∃ outputs, settings.outputUrls anchors = .ok outputs) ↔
      (∃ url, settings.outputUrl anchors settings.outputDirectory "production" = .ok url) ∧
      ∃ url, settings.outputUrl anchors settings.testOutputDirectory "test" = .ok url := by
  rw [outputUrls, isOwn]
  constructor
  · rintro ⟨outputs, made⟩
    obtain ⟨output, isOutput, made⟩ := except_bind_ok made
    obtain ⟨testOutput, isTestOutput, _⟩ := except_bind_ok made
    exact ⟨⟨output, isOutput⟩, testOutput, isTestOutput⟩
  · rintro ⟨⟨output, isOutput⟩, testOutput, isTestOutput⟩
    refine ⟨⟨false, some output, some testOutput⟩, ?_⟩
    simp only [isOutput, isTestOutput]
    rfl

theorem outputUrls_of_inherited (inherits : settings.inheritOutput ≠ .bool false) :
    settings.outputUrls anchors = .ok ⟨true, none, none⟩ := by
  rw [outputUrls]
  split
  · rename_i isOwn
    exact absurd isOwn inherits
  · rfl

theorem exists_layout_iff_outputUrls : (∃ layout, settings.layout anchors = .ok layout) ↔
    ∃ outputs, settings.outputUrls anchors = .ok outputs := by
  constructor
  · rintro ⟨layout, made⟩
    exact ⟨layout.outputs, (layout_eq made).1⟩
  · rintro ⟨outputs, areOutputs⟩
    rw [layout, areOutputs]
    exact ⟨_, rfl⟩

/-- A layout is made if the output directories are inherited, or given, or the module has a name to
put them below. -/
theorem exists_layout_iff :
    (∃ layout, settings.layout anchors = .ok layout) ↔
      settings.inheritOutput ≠ .bool false ∨ (∃ name, settings.name = .str name) ∨
        settings.outputDirectory ≠ none ∧ settings.testOutputDirectory ≠ none := by
  rw [exists_layout_iff_outputUrls]
  by_cases isOwn : settings.inheritOutput = .bool false
  · rw [exists_outputUrls_iff isOwn, exists_outputUrl_iff, exists_outputUrl_iff]
    tauto
  · exact iff_of_true ⟨_, outputUrls_of_inherited isOwn⟩ (.inl isOwn)

end Directories

/-! ## URLs of normal forms -/

section Folders

variable {settings : ModuleSettings} {anchors : PathVariables}

theorem fileUrl_normalize (anchors : PathVariables) (directory : Option Path) :
    anchors.fileUrl (some (anchors.normalize directory)) = anchors.fileUrl directory := by
  have isSame : anchors.normalize (some (anchors.normalize directory)) =
      anchors.normalize directory :=
    Path.normalize_of_isPlain (isPlain_normalize _ _) anchors.start
  rw [PathVariables.fileUrl, PathVariables.render, isSame]
  rfl

theorem generatedLibraries_eq : (settings.generated anchors).map (generatedLibrary anchors) =
    settings.standardOutputs.map (libraryOf anchors) := by
  rw [generated_eq, List.map_map]
  apply List.map_congr_left
  intro found _
  rw [Function.comp_apply, generatedLibrary, libraryOf, fileUrl_normalize]

variable (readable : anchors.IsReadable)

include readable

theorem fileUrl_mem_generatedUrls_iff {directory : Option Path} :
    anchors.fileUrl directory ∈ settings.generatedUrls anchors ↔
      settings.IsGenerated anchors (anchors.normalize directory) := by
  rw [generatedUrls, ← mem_generated_iff, generated_eq, List.map_map, List.mem_map, List.mem_map]
  apply exists_congr
  intro found
  exact and_congr_right fun _ => PathVariables.fileUrl_eq_iff readable

/-- The source folders are the listed folders that have no URL of an output directory. -/
theorem sourceFolders_eq : settings.sourceFolders anchors =
    distinct ((settings.sourceCandidates.map (folderOf anchors)).filter fun folder =>
      folder.url ∉ settings.generatedUrls anchors) := by
  rw [List.filter_map, sourceFolders]
  apply congrArg fun kept : List (Option Path × Bool) => distinct (kept.map (folderOf anchors))
  apply List.filter_congr
  intro candidate _
  apply decide_eq_decide.mpr
  rw [mem_generated_iff]
  exact not_congr (fileUrl_mem_generatedUrls_iff readable).symm

/-- A directory is a source folder if and only if it is listed and not generated. -/
theorem mem_sourceFolders_iff {directory : Option Path} {isTest : Bool} :
    ⟨anchors.fileUrl directory, isTest⟩ ∈ settings.sourceFolders anchors ↔
      (∃ listed, settings.ListsSources listed isTest ∧
        anchors.normalize listed = anchors.normalize directory) ∧
      ¬settings.IsGenerated anchors (anchors.normalize directory) := by
  rw [sourceFolders_eq readable, mem_distinct, List.mem_filter, decide_eq_true_eq,
    fileUrl_mem_generatedUrls_iff readable, List.mem_map]
  apply and_congr_left'
  constructor
  · rintro ⟨⟨listed, _⟩, member, same⟩
    obtain ⟨sameUrl, rfl⟩ := SourceFolder.mk.inj same
    exact ⟨listed, mem_sourceCandidates_iff.mp member,
      (PathVariables.fileUrl_eq_iff readable).mp sameUrl⟩
  · rintro ⟨listed, isListed, same⟩
    have sameUrl := (PathVariables.fileUrl_eq_iff readable).mpr same
    refine ⟨(listed, isTest), mem_sourceCandidates_iff.mpr isListed, ?_⟩
    rw [folderOf, sameUrl]

end Folders

/-! ## Layouts -/

/-- Whether a layout has the listed directories that are not generated as source folders, once for
sources and once for tests and at their first places, has the output directories of the standard
source sets as libraries and their tasks, each once and in order, and excludes the directories of
metadata and of build results and those that the module excludes. -/
structure SplitsDirectories (settings : ModuleSettings) (anchors : PathVariables)
    (layout : Layout) : Prop where
  kept : ∀ directory isTest, settings.ListsSources directory isTest →
    ¬settings.IsGenerated anchors (anchors.normalize directory) →
      layout.root.sourceFolders.count ⟨anchors.fileUrl directory, isTest⟩ = 1
  leftOut : ∀ directory isTest, settings.ListsSources directory isTest →
    settings.IsGenerated anchors (anchors.normalize directory) →
      ⟨anchors.fileUrl directory, isTest⟩ ∉ layout.root.sourceFolders
  folders : FirstPlaces (·.url ∉ settings.generatedUrls anchors)
    (settings.sourceCandidates.map (folderOf anchors)) layout.root.sourceFolders
  outputs : ∀ sources ∈ settings.sourceSets, ∀ output ∈ sources.outputDirectories,
    (sources.name = "main" →
      layout.generatedLibraries.count (.files "RUNTIME" [anchors.fileUrl output.1] [] []) = 1) ∧
    (sources.name = "test" →
      layout.generatedLibraries.count (.files "TEST" [anchors.fileUrl output.1] [] []) = 1)
  libraries : FirstPlaces (fun _ => True) (settings.standardOutputs.map (libraryOf anchors))
    layout.generatedLibraries
  apart : ∀ folder ∈ layout.root.sourceFolders, ∀ scope classes javadoc sources,
    .files scope classes javadoc sources ∈ layout.generatedLibraries → folder.url ∉ classes
  tasks : FirstOfWorth ((settings.standardOutputs.map (·.2.2)).filter fun task => !task.isEmpty)
    layout.tasks
  excluded : FirstPlaces (fun _ => True)
    ([anchors.fileUrl (settings.metadataDirectory.getD ((settings.home anchors).below ".gradle")),
      anchors.fileUrl (settings.buildDirectory.getD ((settings.home anchors).below "build"))] ++
        settings.excludedDirectories.map anchors.fileUrl) layout.root.excludedFolders

section Layouts

variable {settings : ModuleSettings} {anchors : PathVariables} {layout : Layout}

theorem libraryOf_main {sources : SourceSet} (isMain : sources.name = "main")
    (output : Option Path × Json.Value) : libraryOf anchors (sources, output) =
      .files "RUNTIME" [anchors.fileUrl output.1] [] [] := by
  have notTest : sources.isTest = false := by
    rw [SourceSet.isTest, isMain]
    rfl
  rw [libraryOf, notTest]
  rfl

theorem libraryOf_test {sources : SourceSet} (isNamed : sources.name = "test")
    (output : Option Path × Json.Value) : libraryOf anchors (sources, output) =
      .files "TEST" [anchors.fileUrl output.1] [] [] := by
  have isTest : sources.isTest = true := by
    rw [SourceSet.isTest, isNamed]
    rfl
  rw [libraryOf, isTest]
  rfl

/-- A library of a layout has the URL of an output directory. -/
theorem mem_generatedUrls_of_library (libraries : FirstPlaces (fun _ => True)
    (settings.standardOutputs.map (libraryOf anchors)) layout.generatedLibraries)
    {scope url : String} {classes javadoc sources : List String}
    (member : .files scope classes javadoc sources ∈ layout.generatedLibraries)
    (inClasses : url ∈ classes) : url ∈ settings.generatedUrls anchors := by
  obtain ⟨found, isFound, same⟩ := List.mem_map.mp ((libraries.mem_iff _).mp member).1
  obtain ⟨_, rfl, _, _⟩ := Library.files.inj same
  rw [List.mem_singleton.mp inClasses]
  exact List.mem_map_of_mem isFound

theorem folders_of_layout (readable : anchors.IsReadable)
    (made : settings.layout anchors = .ok layout) :
    FirstPlaces (·.url ∉ settings.generatedUrls anchors)
      (settings.sourceCandidates.map (folderOf anchors)) layout.root.sourceFolders := by
  rw [(layout_eq made).2.1, sourceFolders_eq readable]
  exact firstPlaces_distinct_filter _ _

theorem libraries_of_layout (made : settings.layout anchors = .ok layout) :
    FirstPlaces (fun _ => True) (settings.standardOutputs.map (libraryOf anchors))
      layout.generatedLibraries := by
  rw [(layout_eq made).2.2.2.1, generatedLibraries_eq]
  exact firstPlaces_distinct _

theorem tasks_of_layout (stated : settings.IsStated)
    (made : settings.layout anchors = .ok layout) :
    FirstOfWorth ((settings.standardOutputs.map (·.2.2)).filter fun task => !task.isEmpty)
      layout.tasks := by
  have areTasks : (settings.generated anchors).map GeneratedDirectory.task =
      settings.standardOutputs.map (·.2.2) := by
    rw [generated_eq, List.map_map]
    rfl
  rw [(layout_eq made).2.2.2.2, areTasks]
  apply firstOfWorth_foldl
  intro task member
  obtain ⟨found, isFound, rfl⟩ := List.mem_map.mp (List.mem_filter.mp member).1
  obtain ⟨isSet, _, isOutput⟩ := mem_standardOutputs_iff.mp isFound
  exact stated _ isSet _ isOutput

variable (readable : anchors.IsReadable) (stated : settings.IsStated)

include readable stated

theorem splitsDirectories_of_layout (made : settings.layout anchors = .ok layout) :
    settings.SplitsDirectories anchors layout := by
  obtain ⟨_, areFolders, areExcluded, _⟩ := layout_eq made
  have folders := folders_of_layout readable made
  have libraries := libraries_of_layout made
  have isFolder {directory : Option Path} {isTest : Bool}
      (listed : settings.ListsSources directory isTest) :
      ⟨anchors.fileUrl directory, isTest⟩ ∈ layout.root.sourceFolders ↔
        ¬settings.IsGenerated anchors (anchors.normalize directory) := by
    rw [areFolders, mem_sourceFolders_iff readable]
    exact and_iff_right ⟨directory, listed, rfl⟩
  have isLibrary {sources : SourceSet} (isSet : sources ∈ settings.sourceSets)
      (isStandard : sources.IsStandard) {output : Option Path × Json.Value}
      (isOutput : output ∈ sources.outputDirectories) :
      layout.generatedLibraries.count (libraryOf anchors (sources, output)) = 1 :=
    libraries.count_eq_one (List.mem_map_of_mem
      (mem_standardOutputs_iff.mpr ⟨isSet, isStandard, isOutput⟩)) trivial
  exact {
    kept := fun directory isTest listed notGenerated =>
      List.count_eq_one_of_mem folders.nodup ((isFolder listed).mpr notGenerated)
    leftOut := fun directory isTest listed isGenerated member =>
      (isFolder listed).mp member isGenerated
    folders := folders
    outputs := by
      intro sources isSet output isOutput
      constructor
      · intro isMain
        rw [← libraryOf_main isMain]
        exact isLibrary isSet (.inl isMain) isOutput
      · intro isTest
        rw [← libraryOf_test isTest]
        exact isLibrary isSet (.inr isTest) isOutput
    libraries := libraries
    apart := fun folder member scope classes javadoc sources isLibrary inClasses =>
      ((folders.mem_iff folder).mp member).2
        (mem_generatedUrls_of_library libraries isLibrary inClasses)
    tasks := tasks_of_layout stated made
    excluded := by
      rw [areExcluded]
      exact firstPlaces_distinct _ }

/-- Of any settings that a layout is made of, it splits the directories. -/
theorem layout_splits_directories :
    ((∃ layout, settings.layout anchors = .ok layout) ↔
      settings.inheritOutput ≠ .bool false ∨ (∃ name, settings.name = .str name) ∨
        settings.outputDirectory ≠ none ∧ settings.testOutputDirectory ≠ none) ∧
    ∀ layout, settings.layout anchors = .ok layout → settings.SplitsDirectories anchors layout := by
  constructor
  · exact exists_layout_iff
  · intro layout made
    exact splitsDirectories_of_layout readable stated made

end Layouts

/-- A module whose source sets list and generate directories of each other. -/
def mixedSettings : ModuleSettings :=
  { ModuleSettings.ofNameAndDirectory (.str "a") Path.workspace with
    sourceSets := [
      ⟨"main", [some ⟨.relative, ["src"], by decide⟩,
          some ⟨.single, ["ws", "x", "..", "gen"], by decide⟩],
        [(some ⟨.relative, ["gen"], by decide⟩, .str "make"),
          (some ⟨.single, ["ws", "api"], by decide⟩, .null)]⟩,
      ⟨"test", [some ⟨.relative, ["tests"], by decide⟩],
        [(some ⟨.relative, ["gen", "tests"], by decide⟩, .str "make")]⟩,
      ⟨"integration", [some ⟨.relative, ["gen", "x", "..", "tests"], by decide⟩,
        some ⟨.relative, ["own"], by decide⟩],
        [(some ⟨.single, ["ws", "own"], by decide⟩, .str "other")]⟩]
    sourceDirectories := [some ⟨.single, ["ws", "src"], by decide⟩]
    testSourceDirectories := [some ⟨.relative, ["src"], by decide⟩,
      some ⟨.relative, ["api"], by decide⟩] }

def workspaceAnchors : PathVariables :=
  .ofPairs Path.workspace [] (some Path.workspace)

theorem isReadable_workspaceAnchors : workspaceAnchors.IsReadable :=
  PathVariables.isReadable_ofPairs _ (List.forall_mem_nil _) _

theorem isStated_mixedSettings : mixedSettings.IsStated := by
  have keyed : ∀ sources ∈ mixedSettings.sourceSets, ∀ output ∈ sources.outputDirectories,
      output.2.key?.isSome = true := by decide
  intro sources isSet output isOutput
  exact .scalar (keyed sources isSet output isOutput)

theorem mixed_layout_splits_directories : mixedSettings.IsStated ∧ workspaceAnchors.IsReadable ∧
    ∃ layout, mixedSettings.layout workspaceAnchors = .ok layout ∧
      mixedSettings.SplitsDirectories workspaceAnchors layout ∧
      layout.root.sourceFolders = [⟨"file://$MODULE_DIR$/src", false⟩,
        ⟨"file://$MODULE_DIR$/tests", true⟩, ⟨"file://$MODULE_DIR$/own", false⟩,
        ⟨"file://$MODULE_DIR$/src", true⟩] ∧
      layout.generatedLibraries = [.files "RUNTIME" ["file://$MODULE_DIR$/gen"] [] [],
        .files "RUNTIME" ["file://$MODULE_DIR$/api"] [] [],
        .files "TEST" ["file://$MODULE_DIR$/gen/tests"] [] []] := by
  obtain ⟨isMade, splits⟩ :=
    layout_splits_directories isReadable_workspaceAnchors isStated_mixedSettings
  obtain ⟨layout, made⟩ := isMade.mpr (.inr (.inl ⟨"a", rfl⟩))
  obtain ⟨_, folders, _, libraries, _⟩ := layout_eq made
  refine ⟨isStated_mixedSettings, isReadable_workspaceAnchors, layout, made, splits layout made,
    ?_, ?_⟩
  · rw [folders]
    decide +kernel
  · rw [libraries]
    decide +kernel

/-! ## Output directories of any source set -/

section Outputs

variable {settings : ModuleSettings} {anchors : PathVariables} {layout : Layout}

/-- A source folder has the URL of an output directory if and only if the directory is listed and no
standard source set generates it; so none has that of an output directory of a standard one. -/
theorem output_is_folder_iff (readable : anchors.IsReadable)
    (made : settings.layout anchors = .ok layout) {sources : SourceSet}
    (isSet : sources ∈ settings.sourceSets) {output : Option Path × Json.Value}
    (isOutput : output ∈ sources.outputDirectories) :
    (sources.IsStandard →
      ∀ folder ∈ layout.root.sourceFolders, folder.url ≠ anchors.fileUrl output.1) ∧
    ((∃ folder ∈ layout.root.sourceFolders, folder.url = anchors.fileUrl output.1) ↔
      (∃ directory isTest, settings.ListsSources directory isTest ∧
        anchors.normalize directory = anchors.normalize output.1) ∧
      ¬settings.IsGenerated anchors (anchors.normalize output.1)) := by
  have isFolder : (∃ folder ∈ layout.root.sourceFolders, folder.url = anchors.fileUrl output.1) ↔
      (∃ directory isTest, settings.ListsSources directory isTest ∧
        anchors.normalize directory = anchors.normalize output.1) ∧
      ¬settings.IsGenerated anchors (anchors.normalize output.1) := by
    rw [(layout_eq made).2.1]
    constructor
    · rintro ⟨⟨_, isTest⟩, member, rfl⟩
      obtain ⟨⟨directory, listed, same⟩, notGenerated⟩ :=
        (mem_sourceFolders_iff readable).mp member
      exact ⟨⟨directory, isTest, listed, same⟩, notGenerated⟩
    · rintro ⟨⟨directory, isTest, listed, same⟩, notGenerated⟩
      exact ⟨⟨_, isTest⟩, (mem_sourceFolders_iff readable).mpr
        ⟨⟨directory, listed, same⟩, notGenerated⟩, rfl⟩
  refine ⟨?_, isFolder⟩
  intro isStandard folder member same
  exact (isFolder.mp ⟨folder, member, same⟩).2 ⟨sources, isSet, isStandard, output, isOutput, rfl⟩

end Outputs

/-- Of the output directories of a standard source set and of another one that lists its own, only
that of the other one is a source folder. -/
theorem mixed_output_is_folder : workspaceAnchors.IsReadable ∧
    ∃ layout, mixedSettings.layout workspaceAnchors = .ok layout ∧
      (∀ folder ∈ layout.root.sourceFolders, folder.url ≠ "file://$MODULE_DIR$/gen") ∧
      ∃ folder ∈ layout.root.sourceFolders, folder.url = "file://$MODULE_DIR$/own" := by
  have readable := isReadable_workspaceAnchors
  obtain ⟨layout, made⟩ := exists_layout_iff.mpr
    (show mixedSettings.inheritOutput ≠ .bool false ∨ _ from .inl nofun)
  have ofMain := output_is_folder_iff readable made List.mem_cons_self List.mem_cons_self
  have ofOther := output_is_folder_iff readable made
    (List.mem_cons_of_mem _ (List.mem_cons_of_mem _ List.mem_cons_self)) List.mem_cons_self
  have notGenerated :
      ¬mixedSettings.IsGenerated workspaceAnchors ⟨.single, ["ws", "own"], by decide⟩ := by
    rw [← mem_generated_iff]
    decide +kernel
  refine ⟨readable, layout, made, ofMain.1 (.inl rfl), ofOther.2.mpr ⟨?_, notGenerated⟩⟩
  exact ⟨some ⟨.relative, ["own"], by decide⟩, false, mem_sourceCandidates_iff.mp (by decide),
    by decide⟩

/-- Whether no source folder of a layout has the URL of an output directory of any source set. -/
def KeepsOutputsApart (settings : ModuleSettings) (anchors : PathVariables) : Prop :=
  ∀ layout, settings.layout anchors = .ok layout → ∀ sources ∈ settings.sourceSets,
    ∀ output ∈ sources.outputDirectories, ∀ folder ∈ layout.root.sourceFolders,
      folder.url ≠ anchors.fileUrl output.1

/-- A module with one source set that lists one directory and generates another one. -/
def singleSettings (name : String) (listed output : Path) : ModuleSettings :=
  { ModuleSettings.ofNameAndDirectory (.str "a") Path.workspace with
    sourceSets := [⟨name, [some listed], [(some output, .null)]⟩] }

def dollarAnchors : PathVariables :=
  .ofPairs Path.workspace PathVariables.dollarPairs (some Path.workspace)

theorem not_keepsOutputsApart {name : String} {listed output : Path} {anchors : PathVariables}
    (isFolder : anchors.fileUrl (some output) ∈
      ((singleSettings name listed output).sourceFolders anchors).map SourceFolder.url) :
    ¬(singleSettings name listed output).KeepsOutputsApart anchors := by
  intro apart
  obtain ⟨layout, made⟩ := exists_layout_iff.mpr
    (show (singleSettings name listed output).inheritOutput ≠ .bool false ∨ _ from .inl nofun)
  obtain ⟨folder, member, same⟩ := List.mem_map.mp isFolder
  rw [← (layout_eq made).2.1] at member
  exact apart layout made _ List.mem_cons_self _ List.mem_cons_self folder member same

/-- A source set that is not a standard one can have its output directory as a source folder, and
where the name of a variable holds a dollar sign, another directory can have the URL of a generated
one. -/
theorem outputs_can_be_folders :
    ¬(singleSettings "integration" ⟨.single, ["ws", "gen"], by decide⟩
      ⟨.single, ["ws", "gen"], by decide⟩).KeepsOutputsApart workspaceAnchors ∧
    ¬(singleSettings "main" ⟨.single, ["x", "b$"], by decide⟩
      PathVariables.dollarDirectory).KeepsOutputsApart dollarAnchors :=
  ⟨not_keepsOutputsApart (by decide +kernel), not_keepsOutputsApart (by decide +kernel)⟩

end ModuleSettings

end IdeModules
