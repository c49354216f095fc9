import IdeModules.CommandLine
import IdeModules.Proofs.Halting
import IdeModules.Proofs.Overlays

/-!
# Previews

A dry run of a build gives the results that a real one writes.  The real run reads later files
after it has written earlier ones, but a module whose target is another file than those
finds what it would have found before them, or fails.
-/

namespace IdeModules

/-! ## What is printed -/

namespace CommandLine

theorem isHarmless_printLine (line : String) : IsHarmless (Run.printLine line) := by
  intro world
  exact ⟨(), _, gives_modify_iff.mpr rfl, rfl⟩

theorem isHarmless_bind {step next : Run Unit} (first : IsHarmless step)
    (rest : IsHarmless next) : IsHarmless (step >>= fun _ => next) := by
  intro world
  obtain ⟨_, middle, given, kept⟩ := first world
  obtain ⟨_, after, restGiven, unchanged⟩ := rest middle
  exact ⟨(), after, gives_bind_iff.mpr ⟨(), middle, given, restGiven⟩, unchanged.trans kept⟩

theorem isHarmless_preview (path : Path) (content : String) : IsHarmless (preview path content) :=
  isHarmless_bind (isHarmless_printLine _) <| isHarmless_bind (isHarmless_printLine _) <|
    isHarmless_bind (isHarmless_printLine _) (isHarmless_printLine _)

theorem exists_gives_previewAll {build : Build} {results : List GenerationResult} {text : String}
    {world : World} (isText : build.workspaceText world.files results = .ok text) :
    ∃ shown front, Gives (previewAll build [] results) world () shown ∧
      shown.printed = front ++ text ++ "\n" := by
  obtain ⟨_, first, previewed, keptFirst⟩ := isHarmless_forM
    (fun (result : GenerationResult) (_ : result ∈ results) =>
      isHarmless_preview result.path result.content) world
  obtain ⟨_, second, ruled, keptSecond⟩ := isHarmless_printLine rule first
  obtain ⟨_, third, titled, keptThird⟩ := isHarmless_printLine build.modulesPath.text second
  obtain ⟨_, fourth, ruledAgain, keptFourth⟩ := isHarmless_printLine rule third
  rw [← keptFirst, ← keptSecond, ← keptThird, ← keptFourth] at isText
  refine ⟨{ fourth with printed := fourth.printed ++ text ++ "\n" }, fourth.printed, ?_, rfl⟩
  unfold previewAll
  simp only [gives_bind_iff, gives_get_iff, gives_ofResult_iff, List.isEmpty_nil, if_true]
  exact ⟨_, first, previewed, _, second, ruled, _, third, titled, _, fourth, ruledAgain, _, _,
    ⟨rfl, rfl⟩, text, _, ⟨isText, rfl⟩, gives_modify_iff.mpr rfl⟩

end CommandLine

namespace Build

variable {build : Build} {hooks : Keyed String Hooks} {options : Options}
  {world after : World} {before : FileTree} {done results : List GenerationResult}

/-! ## Modules -/

/-- A run of a module that succeeds after others gives the draft over the tree before all of
them. -/
theorem overlay_of_gives_runModule {settings : ModuleSettings} {result : GenerationResult}
    (isWet : options.isDry = false) (plain : settings.descriptorPath.IsPlain)
    (overlay : FileTree.Overlay done before world.files)
    (differs : ∀ other ∈ done, settings.descriptorPath.segments ≠ other.path.segments)
    (given : Gives (build.runModule hooks options settings) world result after) :
    settings.ownDraftOn hooks (build.moduleOptions options) before = .ok result ∧
      FileTree.Overlay (result :: done) before after.files := by
  obtain ⟨drafted, saved⟩ := RunOptions.save_eq_ok_iff.mp (saved_of_gives_runModule given)
  have isPath := ModuleSettings.path_of_ownDraft drafted
  rw [if_neg (by simp [moduleOptions, isWet]), isPath] at saved
  have places := FileTree.places_of_replace plain (descriptorPath_ne_nil settings) saved
  have apart := overlay.apart_of_places places differs
  constructor
  · rw [← drafted]
    exact ModuleSettings.ownDraftOn_congr overlay.directory.symm
      (overlay.find?_eq plain apart).symm _ _
  · rw [← isPath] at places apart
    exact overlay.cons places apart

/-- Modules that are run one after the other give their drafts over the tree before all of them,
if their targets are different files. -/
theorem overlay_of_gives_mapM {modules : List ModuleSettings} (isWet : options.isDry = false)
    (plain : ∀ settings ∈ modules, settings.descriptorPath.IsPlain)
    (differ : modules.Pairwise fun left right =>
      left.descriptorPath.segments ≠ right.descriptorPath.segments)
    (overlay : FileTree.Overlay done before world.files)
    (differs : ∀ settings ∈ modules, ∀ other ∈ done,
      settings.descriptorPath.segments ≠ other.path.segments)
    (given : Gives (modules.mapM (build.runModule hooks options)) world results after) :
    modules.mapM (fun settings =>
        settings.ownDraftOn hooks (build.moduleOptions options) before) = .ok results ∧
      FileTree.Overlay (results ++ done) before after.files := by
  induction modules generalizing world results done with
  | nil =>
      obtain ⟨rfl, rfl⟩ := gives_pure_iff.mp given
      exact ⟨rfl, overlay⟩
  | cons settings rest ih =>
      obtain ⟨result, others, middle, rfl, first, restGiven⟩ := gives_mapM_cons_iff.mp given
      obtain ⟨differsFromRest, restDiffer⟩ := List.pairwise_cons.mp differ
      obtain ⟨drafted, extended⟩ := overlay_of_gives_runModule isWet
        (plain settings List.mem_cons_self) overlay (differs settings List.mem_cons_self) first
      have isPath := ModuleSettings.path_of_ownDraft drafted
      have differsFromAll : ∀ later ∈ rest, ∀ other ∈ result :: done,
          later.descriptorPath.segments ≠ other.path.segments := by
        intro later isLater other member
        rcases List.mem_cons.mp member with rfl | isEarlier
        · rw [isPath]
          exact (differsFromRest later isLater).symm
        · exact differs later (List.mem_cons_of_mem _ isLater) other isEarlier
      obtain ⟨drafts, whole⟩ := ih
        (fun later member => plain later (List.mem_cons_of_mem _ member)) restDiffer extended
        differsFromAll restGiven
      refine ⟨?_, whole.of_mem_iff fun other => by simp [or_left_comm]⟩
      rw [List.mapM_cons, drafted, drafts]
      rfl

theorem exists_gives_mapM_dry {modules : List ModuleSettings} (isDry : options.isDry = true)
    (onFiles : world.files = before)
    (drafts : modules.mapM (fun settings =>
      settings.ownDraftOn hooks (build.moduleOptions options) before) = .ok results) :
    ∃ preview, Gives (modules.mapM (build.runModule hooks options)) world results preview ∧
      preview.files = before := by
  induction modules generalizing world results with
  | nil =>
      obtain rfl := Except.ok.inj drafts
      exact ⟨world, gives_pure_iff.mpr ⟨rfl, rfl⟩, onFiles⟩
  | cons settings rest ih =>
      simp only [List.mapM_cons, except_bind_eq_ok_iff] at drafts
      obtain ⟨result, drafted, others, restDrafts, ended⟩ := drafts
      obtain rfl := Except.ok.inj ended
      have saved : (build.moduleOptions options).save world.files
          (settings.ownDraftOn hooks (build.moduleOptions options) world.files) =
            (.ok result, before) := by
        rw [onFiles]
        exact RunOptions.save_eq_ok_iff.mpr ⟨drafted, by rw [moduleOptions, isDry]; rfl⟩
      obtain ⟨middle, given, kept⟩ := exists_gives_runModule saved
      obtain ⟨preview, restGiven, unchanged⟩ := ih kept restDrafts
      exact ⟨preview, gives_mapM_cons_iff.mpr ⟨result, others, middle, rfl, given, restGiven⟩,
        unchanged⟩

theorem gives_runModules_iff :
    Gives (build.runModules hooks options) world results after ↔
      Gives ((build.selected options.only).mapM (build.runModule hooks options)) world results
        after :=
  gives_runModulesOn_iff

theorem paths_of_gives_runModules
    (given : Gives (build.runModules hooks options) world results after) :
    results.map GenerationResult.path =
      (build.selected options.only).map ModuleSettings.descriptorPath :=
  paths_of_gives_mapM (gives_runModules_iff.mp given)

theorem leaves_of_gives_runModules (isWet : options.isDry = false)
    (given : Gives (build.runModules hooks options) world results after) :
    FileTree.Leaves results world.files after.files :=
  leaves_of_gives_mapM isWet (gives_runModules_iff.mp given)

theorem keeps_list_of_gives_runModules
    (given : Gives (build.runModules hooks options) world results after) :
    after.files.fileAt (build.listPlace world.files) =
      world.files.fileAt (build.listPlace world.files) :=
  (keeps_list_runModulesOn world.files).of_gives given

/-! ## The list of the modules -/

theorem run_eq (build : Build) (hooks : Keyed String Hooks) (options : Options) :
    build.run hooks options = build.runModules hooks options >>= fun results =>
      build.listOn (.plain false) options results >>= fun _ => pure results :=
  rfl

theorem gives_run_iff :
    Gives (build.run hooks options) world results after ↔
      ∃ middle, Gives (build.runModules hooks options) world results middle ∧
        Gives (build.listOn (.plain false) options results) middle () after := by
  simp only [run_eq, gives_bind_iff, gives_pure_iff]
  constructor
  · rintro ⟨_, middle, given, _, _, listed, rfl, rfl⟩
    exact ⟨middle, given, listed⟩
  · rintro ⟨middle, given, listed⟩
    exact ⟨results, middle, given, (), after, listed, rfl, rfl⟩

theorem gives_listOn_iff (lists : (!options.isDry && options.only.isEmpty) = true) :
    Gives (build.listOn (.plain false) options results) world () after ↔
      ∃ text files, build.workspaceText world.files results = .ok text ∧
        world.files.replace false build.modulesPath text = (files, .ok ()) ∧
        after = { world with files := files } := by
  unfold listOn
  rw [if_pos lists]
  simp only [gives_bind_iff, gives_get_iff, gives_ofResult_iff, gives_replaceFileOn_iff]
  constructor
  · rintro ⟨_, _, ⟨rfl, rfl⟩, text, _, ⟨isText, rfl⟩, files, saved, rfl⟩
    exact ⟨text, files, isText, saved, rfl⟩
  · rintro ⟨text, files, isText, saved, rfl⟩
    exact ⟨_, _, ⟨rfl, rfl⟩, text, _, ⟨isText, rfl⟩, files, saved, rfl⟩

theorem gives_runModules_all_iff (isAll : options.only = []) :
    Gives (build.runModules hooks options) world results after ↔
      Gives (build.modules.mapM (build.runModule hooks options)) world results after := by
  rw [gives_runModules_iff, isAll, selected_nil]

theorem gives_run_all_iff (isWet : options.isDry = false) (isAll : options.only = []) :
    Gives (build.run hooks options) world results after ↔
      ∃ middle text files, Gives (build.runModules hooks options) world results middle ∧
        build.workspaceText middle.files results = .ok text ∧
        middle.files.replace false build.modulesPath text = (files, .ok ()) ∧
        after = { middle with files := files } := by
  have lists : (!options.isDry && options.only.isEmpty) = true := by
    rw [isWet, isAll]
    rfl
  simp only [gives_run_iff, gives_listOn_iff lists, exists_and_left]

theorem segments_modulesPath_ne (plain : build.modulesPath.IsPlain)
    {settings : ModuleSettings} (isPlain : settings.descriptorPath.IsPlain) (tree : FileTree) :
    build.modulesPath.segments ≠ settings.descriptorPath.segments := by
  have differ := build.destination_ne_listPlace settings tree tree
  rw [listPlace, FileTree.destination_of_isPlain isPlain,
    FileTree.destination_of_isPlain plain] at differ
  exact differ.symm

/-! ## Runs -/

/-- A run of all modules leaves their results over the tree before, and these are the drafts. -/
theorem overlay_of_gives_runModules (isWet : options.isDry = false)
    (plain : ∀ settings ∈ build.modules, settings.descriptorPath.IsPlain)
    (differ : build.modules.Pairwise fun left right =>
      left.descriptorPath.segments ≠ right.descriptorPath.segments)
    (given : Gives (build.runModules hooks options) world results after) :
    (build.selected options.only).mapM (fun settings =>
        settings.ownDraftOn hooks (build.moduleOptions options) world.files) = .ok results ∧
      FileTree.Overlay results world.files after.files := by
  have sublist := build.selected_sublist options.only
  obtain ⟨drafts, overlay⟩ := overlay_of_gives_mapM isWet
    (fun settings member => plain settings (sublist.subset member)) (differ.sublist sublist)
    (FileTree.overlay_nil world.files) (fun _ _ _ member => absurd member List.not_mem_nil)
    (gives_runModules_iff.mp given)
  rw [List.append_nil] at overlay
  exact ⟨drafts, overlay⟩

theorem exists_settings_of_gives_runModules
    (given : Gives (build.runModules hooks options) world results after)
    {result : GenerationResult} (member : result ∈ results) :
    ∃ settings ∈ build.modules, settings.descriptorPath = result.path := by
  have isPath : result.path ∈ results.map GenerationResult.path := List.mem_map_of_mem member
  rw [paths_of_gives_runModules given] at isPath
  obtain ⟨settings, isSelected, isTarget⟩ := List.mem_map.mp isPath
  exact ⟨settings, (build.selected_sublist options.only).subset isSelected, isTarget⟩

/-- The list of the modules is written beside results as it would be before them. -/
theorem find?_of_listed {files : FileTree} {text : String}
    (overlay : FileTree.Overlay results before files)
    (plain : build.modulesPath.IsPlain)
    (plainResults : ∀ result ∈ results, result.path.IsPlain)
    (differs : ∀ result ∈ results, build.modulesPath.segments ≠ result.path.segments)
    {final : FileTree}
    (saved : files.replace false build.modulesPath text = (final, .ok ())) :
    files.find? build.modulesPath = before.find? build.modulesPath ∧
      final.find? build.modulesPath = some (.file text.toUTF8) ∧
      ∀ result ∈ results, final.find? result.path = some (.file result.content.toUTF8) := by
  have places := FileTree.places_of_replace plain (modulesPath_ne_nil build) saved
  have apart := overlay.apart_of_places places differs
  refine ⟨overlay.find?_eq plain apart, ?_, ?_⟩
  · rw [FileTree.find?_of_isPlain plain, places.file]
  · intro result member
    rw [FileTree.find?_of_isPlain (plainResults result member),
      places.rest _ (apart result member).2, overlay.files result member]

/-- Once a run has come to the list of the modules, it leaves each result at its path, and the list
that it would make of the files before all results. -/
theorem finds_of_gives_listOn (isWet : options.isDry = false)
    (overlay : FileTree.Overlay results before world.files)
    (plain : build.modulesPath.IsPlain) (plainResults : ∀ result ∈ results, result.path.IsPlain)
    (differs : ∀ result ∈ results, build.modulesPath.segments ≠ result.path.segments)
    (listed : Gives (build.listOn (.plain false) options results) world () after) :
    (∀ result ∈ results,
        after.files.find? result.path = some (.file result.content.toUTF8)) ∧
      (options.only = [] → ∃ text, build.workspaceText before results = .ok text ∧
        after.files.find? build.modulesPath = some (.file text.toUTF8)) := by
  cases lists : !options.isDry && options.only.isEmpty with
  | false =>
      rw [listOn_eq_pure lists] at listed
      obtain ⟨_, rfl⟩ := gives_pure_iff.mp listed
      constructor
      · intro result member
        rw [FileTree.find?_of_isPlain (plainResults result member), overlay.files result member]
      · intro isAll
        rw [isWet, isAll] at lists
        exact nomatch lists
  | true =>
      obtain ⟨text, _, isText, saved, rfl⟩ := (gives_listOn_iff lists).mp listed
      obtain ⟨sameList, isListed, areResults⟩ :=
        find?_of_listed overlay plain plainResults differs saved
      have sameText : build.workspaceText before results = .ok text := by
        rw [← isText]
        exact (workspaceText_congr overlay.directory sameList results).symm
      exact ⟨areResults, fun _ => ⟨text, sameText, isListed⟩⟩

/-- Where a run of a build succeeds, a dry run from the same files does so.  It gives the same
results and writes nothing, and the real run leaves each of them at its path.  If no module is
left out, the list that is printed after the dry run is the one that the real run writes. -/
theorem dry_run_previews {isDirectory : Path → Bool} {start directory source : Path}
    {data : Json.Value}
    (parsed : ofData isDirectory start directory source data = .ok build)
    (noSlash : ∀ settings ∈ build.modules, '/' ∉ settings.name.display.toList)
    (differ : build.modules.Pairwise fun left right =>
      world.files.destination left.descriptorPath ≠ world.files.destination right.descriptorPath)
    (isWet : options.isDry = false)
    (real : Gives (build.run hooks options) world results after) :
    ∃ preview, Gives (build.run hooks { options with isDry := true }) world results preview ∧
      preview.files = world.files ∧
      (∀ result ∈ results,
        after.files.find? result.path = some (.file result.content.toUTF8)) ∧
      (options.only = [] → ∃ text, build.workspaceText world.files results = .ok text ∧
        after.files.find? build.modulesPath = some (.file text.toUTF8) ∧
        ∃ shown front, Gives (CommandLine.previewAll build options.only results) preview () shown ∧
          shown.printed = front ++ text ++ "\n") := by
  obtain ⟨plainList, plain⟩ := isPlain_targets parsed noSlash
  have differSegments : build.modules.Pairwise fun left right =>
      left.descriptorPath.segments ≠ right.descriptorPath.segments := by
    apply differ.imp_of_mem
    intro left right isLeft isRight different
    rwa [FileTree.destination_of_isPlain (plain left isLeft),
      FileTree.destination_of_isPlain (plain right isRight)] at different
  obtain ⟨middle, given, listed⟩ := gives_run_iff.mp real
  obtain ⟨drafts, overlay⟩ := overlay_of_gives_runModules isWet plain differSegments given
  have plainResults : ∀ result ∈ results, result.path.IsPlain := by
    intro result member
    obtain ⟨settings, isModule, isTarget⟩ := exists_settings_of_gives_runModules given member
    exact isTarget ▸ plain settings isModule
  -- The dry run gives the drafts.
  have isDry : ({ options with isDry := true } : Options).isDry = true := rfl
  obtain ⟨preview, dryGiven, unchanged⟩ := exists_gives_mapM_dry isDry rfl drafts
  have dryListed : build.listOn (.plain false) { options with isDry := true } results = pure () :=
    listOn_eq_pure rfl
  have dry : Gives (build.run hooks { options with isDry := true }) world results preview := by
    refine gives_run_iff.mpr ⟨preview, gives_runModules_iff.mpr dryGiven, ?_⟩
    rw [dryListed]
    exact gives_pure_iff.mpr ⟨rfl, rfl⟩
  have differs : ∀ result ∈ results, build.modulesPath.segments ≠ result.path.segments := by
    intro result member
    obtain ⟨settings, isModule, isTarget⟩ := exists_settings_of_gives_runModules given member
    rw [← isTarget]
    exact segments_modulesPath_ne plainList (plain settings isModule) world.files
  obtain ⟨areResults, lists⟩ :=
    finds_of_gives_listOn isWet overlay plainList plainResults differs listed
  refine ⟨preview, dry, unchanged, areResults, ?_⟩
  intro isAll
  obtain ⟨text, isText, isListed⟩ := lists isAll
  refine ⟨text, isText, isListed, ?_⟩
  rw [isAll]
  rw [← unchanged] at isText
  exact CommandLine.exists_gives_previewAll isText

/-! ## A pair of modules -/

def pairData : Json.Value :=
  .obj [("modules", .arr [
    .obj [("projectDir", .str "a"), ("javaPlugin", .bool false)],
    .obj [("projectDir", .str "b"), ("javaPlugin", .bool false)]])]

theorem ofData_pairData :
    ofData pairFiles.isDirectory Path.workspace Path.here
      ⟨.relative, ["build.json"], by decide⟩ pairData = .ok pairBuild := by
  rfl

def workspaceRoot : Xml.Element :=
  let manager : Xml.Element :=
    { Xml.Element.make "component" [("name", moduleManager)] with
      text := "\n    "
      children := [Xml.Node.ofElement (Xml.Element.make "modules" []) "\n  "] }
  { Xml.Element.make "project" [("version", "4")] with
    text := "\n  "
    children := [Xml.Node.ofElement manager "\n"] }

theorem readDocument_workspaceTemplate :
    Xml.readDocument false workspaceTemplate = .ok workspaceRoot := by
  rw [Xml.readDocument_eq_readChars]
  unfold workspaceTemplate
  iterate 5 rewrite [String.toList_append]
  decide +kernel

def pairList : List ListedModule :=
  ["a/a.iml", "b/b.iml"].map fun name =>
    ⟨"file://$PROJECT_DIR$/" ++ name, "$PROJECT_DIR$/" ++ name⟩

theorem exists_workspaceText_pair {files : FileTree} {results : List GenerationResult}
    (onWorkspace : files.workingDirectory = Path.workspace)
    (isNew : files.contains pairBuild.modulesPath = false)
    (paths : results.map GenerationResult.path =
      [⟨.single, ["ws", "a", "a.iml"], by decide⟩, ⟨.single, ["ws", "b", "b.iml"], by decide⟩]) :
    ∃ text, pairBuild.workspaceText files results = .ok text := by
  have listedPath : pairBuild.listed files.workingDirectory =
      (fun path => (⟨"file://" ++ path, path⟩ : ListedModule)) ∘
        ((PathVariables.ofPairs files.workingDirectory
          [("PROJECT_DIR", some pairBuild.rootDirectory)] none).render ∘ some) ∘
            GenerationResult.path := rfl
  have areListed : results.map (pairBuild.listed files.workingDirectory) = pairList := by
    rw [listedPath, onWorkspace, ← List.map_map, ← List.map_map, paths]
    decide +kernel
  have isWritable : (writeModules pairList workspaceRoot).indent.isWritable = true := by
    decide +kernel
  have isText : workspaceDocument pairList none =
      .ok (Xml.document (writeModules pairList workspaceRoot).indent) :=
    except_bind_eq_ok_iff.mpr ⟨_, readDocument_workspaceTemplate, if_pos isWritable⟩
  rw [workspaceText, existingWorkspace, isNew, areListed]
  exact ⟨_, except_bind_eq_ok_iff.mpr ⟨none, rfl, by rw [isText]⟩⟩

def pairFilesWith (first second : String) : FileTree :=
  (pairFilesAfter first).put ["ws", "b", "b.iml"] (.file second.toUTF8)

theorem replace_pairFilesAfter (first content : String) :
    (pairFilesAfter first).replace false (pairModule "b").descriptorPath content =
      (pairFilesWith first content, .ok ()) := by
  rw [descriptorPath_pair.2]
  rfl

theorem exists_gives_pairModules (options : Options) (isWet : options.isDry = false) :
    ∃ first second after,
      Gives ([pairModule "a", pairModule "b"].mapM (pairBuild.runModule [] options))
        (World.ofFiles pairFiles) [first, second] after ∧
      [first, second].map GenerationResult.path =
        [⟨.single, ["ws", "a", "a.iml"], by decide⟩, ⟨.single, ["ws", "b", "b.iml"], by decide⟩] ∧
      after.files = pairFilesWith first.content second.content := by
  have found (name : String) : hooksOf [] (pairModule name) = .ok Hooks.none := rfl
  obtain ⟨first, middle, firstGiven, firstPath, firstFiles⟩ :=
    exists_gives_firstModule (found "a") isWet
  have isNew : middle.files.contains (pairModule "b").descriptorPath = false := by
    rw [firstFiles, descriptorPath_pair.2]
    rfl
  obtain ⟨second, after, secondGiven, secondPath, secondFiles⟩ :=
    exists_gives_pairModule (found "b") isWet isNew fun content => by
      rw [firstFiles]
      exact replace_pairFilesAfter first.content content
  refine ⟨first, second, after, ?_, ?_, secondFiles⟩
  · exact gives_mapM_cons_iff.mpr ⟨first, [second], middle, rfl, firstGiven,
      gives_mapM_cons_iff.mpr ⟨second, [], after, rfl, secondGiven, gives_pure_iff.mpr ⟨rfl, rfl⟩⟩⟩
  · rw [List.map_cons, List.map_singleton, firstPath, secondPath, descriptorPath_pair.1,
      descriptorPath_pair.2]

theorem exists_gives_pairBuild (workers : Int) :
    ∃ results after, Gives (pairBuild.run [] { pairOptions with workers := workers })
      (World.ofFiles pairFiles) results after := by
  let options : Options := { pairOptions with workers := workers }
  obtain ⟨first, second, middle, given, paths, written⟩ := exists_gives_pairModules options rfl
  have onWorkspace : middle.files.workingDirectory = Path.workspace := by
    rw [written]
    rfl
  have isNew : middle.files.contains pairBuild.modulesPath = false := by
    rw [written, modulesPath_eq]
    rfl
  obtain ⟨text, isText⟩ := exists_workspaceText_pair onWorkspace isNew paths
  obtain ⟨files, saved⟩ :
      ∃ files, middle.files.replace false pairBuild.modulesPath text = (files, .ok ()) := by
    rw [written, modulesPath_eq]
    exact ⟨_, rfl⟩
  have lists : (!options.isDry && options.only.isEmpty) = true := rfl
  exact ⟨[first, second], { middle with files := files }, gives_run_iff.mpr
    ⟨middle, gives_runModules_iff.mpr given,
      (gives_listOn_iff lists).mpr ⟨text, files, isText, saved, rfl⟩⟩⟩

theorem pair_dry_run_previews : ∃ results after preview,
    Gives (pairBuild.run [] pairOptions) (World.ofFiles pairFiles) results after ∧
      Gives (pairBuild.run [] { pairOptions with isDry := true }) (World.ofFiles pairFiles) results
        preview ∧
      preview.files = pairFiles ∧
      ∃ text, pairBuild.workspaceText pairFiles results = .ok text ∧
        after.files.find? pairBuild.modulesPath = some (.file text.toUTF8) := by
  obtain ⟨results, after, real⟩ := exists_gives_pairBuild 1
  obtain ⟨preview, dry, unchanged, _, lists⟩ := dry_run_previews ofData_pairData
    (by decide +kernel) (by decide +kernel) rfl real
  obtain ⟨text, isText, isListed, _⟩ := lists rfl
  exact ⟨results, after, preview, real, dry, unchanged, text, isText, isListed⟩

end Build

end IdeModules
