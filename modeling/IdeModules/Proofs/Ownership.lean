import IdeModules.Proofs.Rendering
import IdeModules.Proofs.Rerun

/-!
# Descriptors that modules own

Where the targets of the modules of a build are different files, every module owns its descriptor:
after a run of all modules each result is at its path, and the list holds each of
these files once, in the order of the build.  Nothing keeps two modules of a build from having
one target.
-/

namespace IdeModules

open Xml

/-! ## Paths of descriptors -/

namespace Path

theorem join_of_isAbsolute {path : Path} (absolute : path.isAbsolute = true) (base : Path) :
    base.join path = path :=
  if_pos absolute

theorem isAbsolute_join {base : Path} (absolute : base.isAbsolute = true) (path : Path) :
    (base.join path).isAbsolute = true := by
  rw [join]
  split
  · assumption
  · exact absolute

theorem segments_normalize_of_isAbsolute {path : Path} (absolute : path.isAbsolute = true)
    (start : Path) (files : FileTree) :
    (normalize start path).segments = files.destination path := by
  rw [segments_normalize, join_of_isAbsolute absolute, FileTree.destination, FileTree.startOf,
    if_pos absolute]
  rfl

end Path

namespace Build

variable {build : Build} {hooks : Keyed String Hooks} {options : Options}
  {world after : World} {results : List GenerationResult}

theorem isAbsolute_descriptorPath {isDirectory : Path → Bool} {start directory source : Path}
    {data : Json.Value} (read : ofData isDirectory start directory source data = .ok build)
    {settings : ModuleSettings} (member : settings ∈ build.modules) :
    settings.descriptorPath.isAbsolute = true :=
  Path.isAbsolute_join ((isPlain_of_ofData read).2 settings member).absolute _

theorem directories_listed (start root : Path) :
    (PathVariables.ofPairs start [("PROJECT_DIR", some root)] none).directories.entries =
      [("PROJECT_DIR", Path.normalize start root)] := by
  have bare : bareName "PROJECT_DIR" = "PROJECT_DIR" := by decide +kernel
  show [(bareName "PROJECT_DIR", Path.normalize start root)] = _
  rw [bare]

/-- The path that a listed descriptor stands for, seen from the root of the build. -/
def located (build : Build) (start : Path) (listed : ListedModule) : Path :=
  (PathVariables.ofPairs start [("PROJECT_DIR", some build.rootDirectory)] none).expand listed.path

/-- A descriptor is listed as a text that stands for its file. -/
theorem destination_located {start path : Path} (absolute : path.isAbsolute = true)
    (files : FileTree) :
    files.destination (build.located start (build.listedAt start path)) =
      files.destination path := by
  let anchors := PathVariables.ofPairs start [("PROJECT_DIR", some build.rootDirectory)] none
  have noDollars : ∀ entry ∈ anchors.directories.entries, '$' ∉ entry.1.toList := by
    rw [directories_listed]
    exact List.forall_mem_singleton.mpr (show '$' ∉ "PROJECT_DIR".toList by decide)
  have isNormal := isPlain_normalize start path
  have isPath : build.located start (build.listedAt start path) = Path.normalize start path :=
    PathVariables.expand_renderNormal noDollars isNormal.absolute
  rw [isPath, FileTree.destination_of_isPlain isNormal,
    Path.segments_normalize_of_isAbsolute absolute start files]

theorem nodup_listedAt (build : Build) (start : Path) {files : FileTree} {paths : List Path}
    (areAbsolute : ∀ path ∈ paths, path.isAbsolute = true)
    (differ : paths.Pairwise fun left right => files.destination left ≠ files.destination right) :
    (paths.map (build.listedAt start)).Nodup := by
  rw [List.Nodup, List.pairwise_map]
  apply differ.imp_of_mem
  intro left right isLeft isRight different same
  apply different
  rw [← build.destination_located (areAbsolute left isLeft) files, same,
    build.destination_located (areAbsolute right isRight)]

/-! ## Files of a run -/

theorem replace_of_gives_runModule {settings : ModuleSettings} {result : GenerationResult}
    (isWet : options.isDry = false)
    (given : Gives (build.runModule hooks options settings) world result after) :
    result.path = settings.descriptorPath ∧
      world.files.replace false result.path result.content = (after.files, .ok ()) := by
  obtain ⟨drafted, saved⟩ := RunOptions.save_eq_ok_iff.mp (saved_of_gives_runModule given)
  refine ⟨ModuleSettings.path_of_ownDraft drafted, ?_⟩
  rwa [if_neg (by simp [moduleOptions, isWet])] at saved

/-- Modules that are run one after the other leave the files in place that are not their targets. -/
theorem find?_of_gives_mapM {modules : List ModuleSettings} (isWet : options.isDry = false)
    (given : Gives (modules.mapM (build.runModule hooks options)) world results after)
    {path : Path} {bytes : ByteArray} (found : world.files.find? path = some (.file bytes))
    (elsewhere : ∀ settings ∈ modules,
      world.files.destination settings.descriptorPath ≠ world.files.destination path) :
    after.files.find? path = some (.file bytes) := by
  induction modules generalizing world results with
  | nil =>
      obtain ⟨rfl, rfl⟩ := gives_pure_iff.mp given
      exact found
  | cons settings rest ih =>
      obtain ⟨result, others, middle, rfl, first, restGiven⟩ := gives_mapM_cons_iff.mp given
      obtain ⟨isPath, replaced⟩ := replace_of_gives_runModule isWet first
      rw [List.forall_mem_cons, ← isPath] at elsewhere
      have sameDestination : middle.files.destination = world.files.destination :=
        funext (FileTree.destination_congr (FileTree.find?_replace replaced).2)
      refine ih restGiven (FileTree.find?_of_replace found replaced elsewhere.1) ?_
      rw [sameDestination]
      exact elsewhere.2

/-- Modules whose targets are different files leave each result at its path. -/
theorem finds_of_gives_mapM {modules : List ModuleSettings} (isWet : options.isDry = false)
    (differ : modules.Pairwise fun left right =>
      world.files.destination left.descriptorPath ≠ world.files.destination right.descriptorPath)
    (given : Gives (modules.mapM (build.runModule hooks options)) world results after) :
    ∀ result ∈ results, after.files.find? result.path = some (.file result.content.toUTF8) := by
  induction modules generalizing world results with
  | nil =>
      obtain ⟨rfl, rfl⟩ := gives_pure_iff.mp given
      exact fun _ member => absurd member List.not_mem_nil
  | cons settings rest ih =>
      obtain ⟨result, others, middle, rfl, first, restGiven⟩ := gives_mapM_cons_iff.mp given
      obtain ⟨isPath, replaced⟩ := replace_of_gives_runModule isWet first
      obtain ⟨found, sameDirectory⟩ := FileTree.find?_replace replaced
      have sameDestination : world.files.destination = middle.files.destination :=
        (funext (FileTree.destination_congr sameDirectory)).symm
      rw [sameDestination, List.pairwise_cons, ← isPath] at differ
      refine List.forall_mem_cons.mpr ⟨?_, ih differ.2 restGiven⟩
      exact find?_of_gives_mapM isWet restGiven found fun later member =>
        (differ.1 later member).symm

/-! ## The list of all modules -/

/-- Whether a text is that of a workspace file that lists modules, and lists nothing else to anyone
who can read it. -/
def IsListOf (modules : List ListedModule) (text : String) : Prop :=
  (∃ root, text = document root ∧ modulesIn root = modules) ∧
    ∀ keepsComments found, readDocument keepsComments text = .ok found → modulesIn found = modules

theorem isListOf_of_workspaceText {files : FileTree} {text : String}
    (isText : build.workspaceText files results = .ok text) :
    IsListOf (results.map (build.listed files.workingDirectory)) text := by
  obtain ⟨existing, _, written⟩ := workspaceText_eq_ok_iff.mp isText
  obtain ⟨root, isRead, rfl⟩ := workspaceDocument_eq_ok_iff.mp written
  refine ⟨⟨_, rfl, ?_⟩, fun _ _ read => (IsWorkspace.of_readDocument isRead).modulesIn_of_read read⟩
  rw [modulesIn_of_same (Element.change_indent_withoutTexts _), modulesIn_writeModules]

/-- Where the targets of the modules of a build are different files, a run of all modules leaves
each result at its path.  The list holds each of these files once, in the order of the build, as a
text that stands for it. -/
theorem modules_own_their_descriptors {isDirectory : Path → Bool} {start directory source : Path}
    {data : Json.Value}
    (parsed : ofData isDirectory start directory source data = .ok build)
    (differ : build.modules.Pairwise fun left right =>
      world.files.destination left.descriptorPath ≠ world.files.destination right.descriptorPath)
    (isWet : options.isDry = false) (isAll : options.only = [])
    (given : Gives (build.run hooks options) world results after) :
    results.map GenerationResult.path = build.modules.map ModuleSettings.descriptorPath ∧
      (∀ result ∈ results,
        after.files.find? result.path = some (.file result.content.toUTF8)) ∧
      (results.Pairwise fun left right =>
        after.files.destination left.path ≠ after.files.destination right.path) ∧
      (results.map (build.listed world.files.workingDirectory)).Nodup ∧
      (∀ result ∈ results, after.files.destination (build.located world.files.workingDirectory
        (build.listed world.files.workingDirectory result)) =
          after.files.destination result.path) ∧
      ∃ text, after.files.find? build.modulesPath = some (.file text.toUTF8) ∧
        IsListOf (results.map (build.listed world.files.workingDirectory)) text := by
  obtain ⟨middle, text, files, modulesGiven, isText, saved, rfl⟩ :=
    (gives_run_all_iff isWet isAll).mp given
  have found := finds_of_gives_mapM isWet differ
    ((gives_runModules_all_iff isAll).mp modulesGiven)
  have paths := paths_of_gives_runModules modulesGiven
  rw [isAll, selected_nil] at paths
  have sameDirectory := (leaves_of_gives_runModules isWet modulesGiven).directory
  have finalDirectory : files.workingDirectory = world.files.workingDirectory :=
    (FileTree.find?_replace saved).2.trans sameDirectory
  have isList := isListOf_of_workspaceText isText
  rw [sameDirectory] at isList
  have targetsDiffer : (results.map GenerationResult.path).Pairwise fun left right =>
      world.files.destination left ≠ world.files.destination right := by
    rw [paths, List.pairwise_map]
    exact differ
  have areAbsolute : ∀ path ∈ results.map GenerationResult.path, path.isAbsolute = true := by
    rw [paths, List.forall_mem_map]
    exact fun _ isModule => isAbsolute_descriptorPath parsed isModule
  refine ⟨paths, ?_, ?_, ?_, ?_, text, (FileTree.find?_replace saved).1, isList⟩
  · intro result member
    obtain ⟨settings, _, isTarget⟩ := exists_settings_of_gives_runModules modulesGiven member
    refine FileTree.find?_of_replace (found result member) saved ?_
    rw [← isTarget]
    exact (build.destination_ne_listPlace settings _ _).symm
  · rw [List.pairwise_map] at targetsDiffer
    rw [funext (FileTree.destination_congr finalDirectory)]
    exact targetsDiffer
  · have nodup := build.nodup_listedAt world.files.workingDirectory areAbsolute targetsDiffer
    rwa [List.map_map] at nodup
  · intro result member
    exact build.destination_located (areAbsolute _ (List.mem_map_of_mem member)) files

/-- The modules of the pair own their descriptors. -/
theorem pair_owns_its_descriptors : ∃ results after,
    Gives (pairBuild.run [] pairOptions) (World.ofFiles pairFiles) results after ∧
      results.map GenerationResult.path =
        [⟨.single, ["ws", "a", "a.iml"], by decide⟩, ⟨.single, ["ws", "b", "b.iml"], by decide⟩] ∧
      (∀ result ∈ results,
        after.files.find? result.path = some (.file result.content.toUTF8)) ∧
      ∃ text, after.files.find? pairBuild.modulesPath = some (.file text.toUTF8) ∧
        IsListOf (results.map (pairBuild.listed Path.workspace)) text := by
  obtain ⟨results, after, given⟩ := exists_gives_pairBuild 1
  have isWet : pairOptions.isDry = false := rfl
  have isAll : pairOptions.only = [] := rfl
  have differ : pairBuild.modules.Pairwise fun left right =>
      (World.ofFiles pairFiles).files.destination left.descriptorPath ≠
        (World.ofFiles pairFiles).files.destination right.descriptorPath := by
    decide +kernel
  obtain ⟨paths, found, _, _, _, list⟩ := modules_own_their_descriptors ofData_pairData
    differ isWet isAll given
  refine ⟨results, after, given, paths.trans ?_, found, list⟩
  show [(pairModule "a").descriptorPath, (pairModule "b").descriptorPath] = _
  rw [descriptorPath_pair.1, descriptorPath_pair.2]

/-! ## Modules with one target -/

/-- A build of two modules that differ in their development kits only. -/
def twinBuild : Build :=
  kitBuild ["17", "21"]

theorem replace_pairFilesAfter_again (first second : String) :
    (pairFilesAfter first).replace false (kitModule "21").descriptorPath second =
      (pairFilesAfter second, .ok ()) := by
  have isPath : (kitModule "21").descriptorPath = ⟨.single, ["ws", "a", "a.iml"], by decide⟩ :=
    descriptorPath_pair.1
  rw [isPath]
  rfl

/-- The second one of such modules is run over the descriptor of the first one. -/
theorem exists_gives_twins : ∃ first second last,
    Gives (twinBuild.modules.mapM (twinBuild.runModule [] pairOptions)) (World.ofFiles pairFiles)
      [first, second] last ∧
    first.path = second.path ∧ last.files = pairFilesAfter second.content := by
  have isWet : pairOptions.isDry = false := rfl
  obtain ⟨first, middle, firstGiven, reached⟩ : ∃ first middle,
      Gives (twinBuild.runModule [] pairOptions (kitModule "17")) (World.ofFiles pairFiles)
        first middle ∧ middle.files = pairFilesAfter (document (kitTree "17")) :=
    exists_gives_kitModule
  obtain ⟨firstPath, replaced⟩ := replace_of_gives_runModule isWet firstGiven
  have noDescriptor : (World.ofFiles pairFiles).files.HasPlainNames true
      (kitModule "17").descriptorPath := FileTree.hasPlainNames_of_free (by decide +kernel)
  have onlyFirst : (kitModule "17").GeneratesOnly isXmlChar (twinBuild.moduleOptions pairOptions)
      (World.ofFiles pairFiles).files.workingDirectory :=
    generatesOnly_kitModule (by decide) rfl
  obtain ⟨isText, _⟩ := ModuleSettings.isDescriptorText_of_gives_run onlyFirst noDescriptor
    (gives_runModule_iff.mp firstGiven).2
  have holds : middle.files.HoldsText (kitModule "21").descriptorPath IsDescriptorText := by
    rw [firstPath] at replaced
    exact FileTree.holdsText_of_replace replaced isText
  have sameDirectory : middle.files.workingDirectory = Path.workspace :=
    (FileTree.find?_replace replaced).2
  have generates : (kitModule "21").Generates (twinBuild.moduleOptions pairOptions)
      middle.files.workingDirectory dependentLayout (kitDescriptor "21") [] :=
    sameDirectory ▸ generates_kitModule
  have only : (kitModule "21").GeneratesOnly isXmlChar (twinBuild.moduleOptions pairOptions)
      middle.files.workingDirectory := sameDirectory ▸ generatesOnly_kitModule (by decide) rfl
  obtain ⟨second, last, ran, _, replacedAgain⟩ :=
    generates.exists_gives_again only holds isWet (kitModule "21").name.display
  have secondGiven : Gives (twinBuild.runModule [] pairOptions (kitModule "21")) middle second
      last := gives_runModule_iff.mpr ⟨rfl, ran⟩
  have secondPath := (replace_of_gives_runModule isWet secondGiven).1
  rw [reached, replace_pairFilesAfter_again] at replacedAgain
  refine ⟨first, second, last, gives_mapM_cons_iff.mpr ⟨first, [second], middle, rfl, firstGiven,
    gives_mapM_cons_iff.mpr ⟨second, [], last, rfl, secondGiven,
      gives_pure_iff.mpr ⟨rfl, rfl⟩⟩⟩, firstPath.trans secondPath.symm,
    (Prod.mk.inj replacedAgain).1.symm⟩

/-- Two modules that differ in their development kits only are accepted and run, though they have
one target: both results have one path, and the list holds the file twice. -/
theorem twins_share_a_descriptor :
    ofData pairFiles.isDirectory Path.workspace Path.here ⟨.relative, ["build.json"], by decide⟩
        (kitData ["17", "21"]) = .ok twinBuild ∧
      ∃ results after text modules,
        Gives (twinBuild.run [] pairOptions) (World.ofFiles pairFiles) results after ∧
        (¬results.Pairwise fun left right =>
          after.files.destination left.path ≠ after.files.destination right.path) ∧
        after.files.find? twinBuild.modulesPath = some (.file text.toUTF8) ∧
        IsListOf modules text ∧ ¬modules.Nodup := by
  obtain ⟨first, second, last, given, samePath, reached⟩ := exists_gives_twins
  obtain ⟨text, after, isText, saved, listed⟩ : ∃ (text : String) (after : World),
      twinBuild.workspaceText last.files [first, second] = .ok text ∧
      last.files.replace false twinBuild.modulesPath text = (after.files, .ok ()) ∧
      Gives (twinBuild.listOn (.plain false) pairOptions [first, second]) last () after :=
    exists_gives_kitList reached [first, second]
  have run : Gives (twinBuild.run [] pairOptions) (World.ofFiles pairFiles) [first, second] after :=
    gives_run_iff.mpr ⟨last, gives_runModules_iff.mpr given, listed⟩
  refine ⟨rfl, [first, second], after, text, _, run, ?_, (FileTree.find?_replace saved).1,
    isListOf_of_workspaceText isText, ?_⟩
  · intro differ
    have different := (List.pairwise_cons.mp differ).1 second (List.mem_singleton_self second)
    exact different (congrArg after.files.destination samePath)
  · intro nodup
    apply (List.nodup_cons.mp nodup).1
    apply List.mem_singleton.mpr
    rw [listed_eq, listed_eq, samePath]

end Build

end IdeModules
