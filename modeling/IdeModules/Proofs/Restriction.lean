import IdeModules.Proofs.Interleaving

/-!
# Restricted runs

A run that is restricted to listed names gives the results that a run of all modules gives for the
modules of these names, and writes their files only.  The level of the project still comes from all
modules of the build, and what the other modules write is not looked at by those that are run.
-/

namespace IdeModules

def ModuleSettings.isNamedIn (names : List String) (settings : ModuleSettings) : Bool :=
  match settings.name with
  | .str name => names.contains name
  | _ => false

theorem mapM_filter {α β : Type} {step : α → Except Error β} {items : List α} {values : List β}
    (keep : α → Bool) (done : items.mapM step = .ok values) :
    (items.filter keep).mapM step =
      .ok (((items.zip values).filter fun pair => keep pair.1).map Prod.snd) := by
  induction items generalizing values with
  | nil => rfl
  | cons item rest ih =>
      simp only [List.mapM_cons, except_bind_eq_ok_iff] at done
      obtain ⟨value, isValue, others, areOthers, ended⟩ := done
      obtain rfl := Except.ok.inj ended
      have restDone := ih areOthers
      cases isKept : keep item with
      | true => simp [isKept, isValue, restDone, bind, Except.bind, pure, Except.pure]
      | false => simpa [isKept] using restDone

/-- Of two results over one tree neither is on the way to the other one. -/
theorem FileTree.Overlay.apart {results : List GenerationResult} {before after : FileTree}
    (overlay : Overlay results before after) {left right : GenerationResult}
    (isLeft : left ∈ results) (isRight : right ∈ results)
    (differ : left.path.segments ≠ right.path.segments) :
    Apart left.path.segments right.path.segments := by
  have notAbove {one other : GenerationResult} (isOne : one ∈ results) (isOther : other ∈ results)
      (different : one.path.segments ≠ other.path.segments) :
      ¬one.path.segments <+: other.path.segments := by
    intro isOnWay
    have isDirectory := overlay.ways other isOther _ isOnWay different
    rw [isDirectoryAt, overlay.files one isOne] at isDirectory
    cases isDirectory
  exact ⟨notAbove isLeft isRight differ, notAbove isRight isLeft differ.symm⟩

namespace Build

variable {build : Build} {hooks : Keyed String Hooks} {options : Options}
  {world after : World} {results : List GenerationResult} {names : List String}

/-- Among the results of all modules of a build those of the modules with listed names. -/
def resultsOf (build : Build) (names : List String) (results : List GenerationResult) :
    List GenerationResult :=
  ((build.modules.zip results).filter fun pair => pair.1.isNamedIn names).map Prod.snd

theorem selected_of_ne_nil (build : Build) (notEmpty : names ≠ []) :
    build.selected names = build.modules.filter (ModuleSettings.isNamedIn names) := by
  rw [selected, if_neg (by simpa using notEmpty)]
  rfl

/-- Names that no module has do not change a restricted run. -/
theorem run_congr {others : List String} (notEmpty : names ≠ []) (othersNotEmpty : others ≠ [])
    (same : ∀ settings ∈ build.modules,
      settings.isNamedIn others = settings.isNamedIn names) :
    build.run hooks { options with only := others } =
      build.run hooks { options with only := names } := by
  have sameModules : build.selected others = build.selected names := by
    rw [build.selected_of_ne_nil notEmpty, build.selected_of_ne_nil othersNotEmpty]
    exact List.filter_congr same
  have sameRuns : build.runModules hooks { options with only := others } =
      build.runModules hooks { options with only := names } := by
    have sameStep : build.runModule hooks { options with only := others } =
      build.runModule hooks { options with only := names } := rfl
    rw [runModules_eq, runModules_eq, sameModules, sameStep]
  have unlisted {only : List String} (restricted : only ≠ []) (results : List GenerationResult) :
      build.listOn (.plain false) { options with only := only } results = pure () :=
    listOn_eq_pure (by simp [restricted])
  rw [run_eq, run_eq, sameRuns]
  simp only [unlisted notEmpty, unlisted othersNotEmpty]

/-- A relation of the targets of modules is one of the segments of their paths, if these are
plain. -/
theorem pairwise_segments {related : Place → Place → Prop} {files : FileTree}
    (plain : ∀ settings ∈ build.modules, settings.descriptorPath.IsPlain)
    (targets : build.modules.Pairwise fun left right =>
      related (files.destination left.descriptorPath) (files.destination right.descriptorPath)) :
    build.modules.Pairwise fun left right =>
      related left.descriptorPath.segments right.descriptorPath.segments := by
  apply targets.imp_of_mem
  intro left right isLeft isRight areRelated
  rwa [FileTree.destination_of_isPlain (plain left isLeft),
    FileTree.destination_of_isPlain (plain right isRight)] at areRelated

theorem exists_result_of_gives_runModules
    (given : Gives (build.runModules hooks options) world results after)
    {settings : ModuleSettings} (isSelected : settings ∈ build.selected options.only) :
    ∃ result ∈ results, result.path = settings.descriptorPath := by
  have isTarget : settings.descriptorPath ∈ results.map GenerationResult.path := by
    rw [paths_of_gives_runModules given]
    exact List.mem_map_of_mem isSelected
  exact List.mem_map.mp isTarget

theorem pairwise_apart (isAll : options.only = []) {before : FileTree}
    (given : Gives (build.runModules hooks options) world results after)
    (overlay : FileTree.Overlay results before after.files)
    (differ : build.modules.Pairwise fun left right =>
      left.descriptorPath.segments ≠ right.descriptorPath.segments) :
    build.modules.Pairwise fun left right =>
      Apart left.descriptorPath.segments right.descriptorPath.segments := by
  apply differ.imp_of_mem
  intro left right isLeft isRight different
  have selectsAll : build.selected options.only = build.modules := by
    rw [isAll, selected_nil]
  obtain ⟨first, isFirst, firstPath⟩ :=
    exists_result_of_gives_runModules given (selectsAll ▸ isLeft)
  obtain ⟨second, isSecond, secondPath⟩ :=
    exists_result_of_gives_runModules given (selectsAll ▸ isRight)
  rw [← firstPath, ← secondPath] at different ⊢
  exact overlay.apart isFirst isSecond different

/-- Modules come to what they come to alone. -/
theorem run_runModules_eq_solo
    (plain : ∀ settings ∈ build.modules, settings.descriptorPath.IsPlain)
    (apart : build.modules.Pairwise fun left right =>
      Apart left.descriptorPath.segments right.descriptorPath.segments) :
    ((build.runModules hooks options).run world).1 =
      build.soloResults hooks options world.files := by
  obtain ⟨reached, steps, _, collected⟩ := build.steps_runModules hooks options world
  exact (ended_of_steps plain apart steps collected).1

/-- Where all modules come to results, those with listed names come to theirs. -/
theorem exists_gives_restricted (isAll : options.only = []) (notEmpty : names ≠ [])
    (plain : ∀ settings ∈ build.modules, settings.descriptorPath.IsPlain)
    (apart : build.modules.Pairwise fun left right =>
      Apart left.descriptorPath.segments right.descriptorPath.segments)
    (given : Gives (build.runModules hooks options) world results after) :
    ∃ part, Gives (build.runModules hooks { options with only := names }) world
      (build.resultsOf names results) part := by
  have solo : ((build.runModules hooks options).run world).1 =
      build.soloResults hooks options world.files := run_runModules_eq_solo plain apart
  rw [given, soloResults, isAll, selected_nil] at solo
  have sameOptions : build.moduleOptions { options with only := names } =
    build.moduleOptions options := rfl
  have restricted :
      ((build.runModules hooks { options with only := names }).run world).1 =
        build.soloResults hooks { options with only := names } world.files :=
    run_runModules_eq_solo plain apart
  rw [soloResults, sameOptions, build.selected_of_ne_nil notEmpty,
    mapM_filter (ModuleSettings.isNamedIn names) solo.symm] at restricted
  exact ⟨_, Prod.ext restricted rfl⟩

theorem fileAt_of_gives_runModules (isWet : options.isDry = false)
    (given : Gives (build.runModules hooks options) world results after) {place : Place}
    (elsewhere : ∀ result ∈ results, world.files.destination result.path ≠ place) :
    after.files.fileAt place = world.files.fileAt place := by
  rw [(leaves_of_gives_runModules isWet given).files, FileTree.fileAfter_of_ne elsewhere]

/-- Where a run of all modules of a build succeeds, a run that is restricted to listed names does so
from the same files.  It gives the results of the modules with these names, in the order of the
build, and leaves at their targets what the run of all modules leaves there.  It changes no other
file, nor the list of the modules, and names that no module has do not change it. -/
theorem restricted_run_agrees {isDirectory : Path → Bool} {start directory source : Path}
    {data : Json.Value}
    (parsed : ofData isDirectory start directory source data = .ok build)
    (noSlash : ∀ settings ∈ build.modules, '/' ∉ settings.name.display.toList)
    (differ : build.modules.Pairwise fun left right =>
      world.files.destination left.descriptorPath ≠ world.files.destination right.descriptorPath)
    (isWet : options.isDry = false) (isAll : options.only = [])
    (notEmpty : names ≠ []) (full : Gives (build.run hooks options) world results after) :
    results.map GenerationResult.path = build.modules.map ModuleSettings.descriptorPath ∧
      ∃ part, Gives (build.run hooks { options with only := names }) world
          (build.resultsOf names results) part ∧
        (∀ result ∈ build.resultsOf names results,
          part.files.find? result.path = some (.file result.content.toUTF8) ∧
            after.files.find? result.path = some (.file result.content.toUTF8)) ∧
        (∀ place, (∀ result ∈ build.resultsOf names results,
            world.files.destination result.path ≠ place) →
          part.files.fileAt place = world.files.fileAt place) ∧
        part.files.fileAt (build.listPlace world.files) =
          world.files.fileAt (build.listPlace world.files) ∧
        ∀ others, others ≠ [] →
          (∀ settings ∈ build.modules,
            settings.isNamedIn others = settings.isNamedIn names) →
          build.run hooks { options with only := others } =
            build.run hooks { options with only := names } := by
  obtain ⟨plainList, plain⟩ := isPlain_targets parsed noSlash
  have differSegments := pairwise_segments plain differ
  obtain ⟨middle, given, listed⟩ := gives_run_iff.mp full
  obtain ⟨_, overlay⟩ := overlay_of_gives_runModules isWet plain differSegments given
  have apart := pairwise_apart isAll given overlay differSegments
  obtain ⟨part, partGiven⟩ := exists_gives_restricted isAll notEmpty plain apart given
  have isPartWet : ({ options with only := names } : Options).isDry = false := isWet
  obtain ⟨_, partOverlay⟩ :=
    overlay_of_gives_runModules isPartWet plain differSegments partGiven
  have plainResult {result : GenerationResult} (member : result ∈ results) :
      result.path.IsPlain ∧ build.modulesPath.segments ≠ result.path.segments := by
    obtain ⟨settings, isModule, isTarget⟩ := exists_settings_of_gives_runModules given member
    rw [← isTarget]
    exact ⟨plain settings isModule,
      segments_modulesPath_ne plainList (plain settings isModule) world.files⟩
  have areResults := (finds_of_gives_listOn isWet overlay plainList
    (fun _ member => (plainResult member).1) (fun _ member => (plainResult member).2) listed).1
  have unlisted : build.listOn (.plain false) { options with only := names }
      (build.resultsOf names results) = pure () :=
    listOn_eq_pure (by simp [notEmpty])
  have done : Gives (build.run hooks { options with only := names }) world
      (build.resultsOf names results) part := by
    refine gives_run_iff.mpr ⟨part, partGiven, ?_⟩
    rw [unlisted]
    exact gives_pure_iff.mpr ⟨rfl, rfl⟩
  have paths := paths_of_gives_runModules given
  rw [isAll, selected_nil] at paths
  refine ⟨paths, part, done, ?_, ?_, ?_, ?_⟩
  · intro result isPart
    obtain ⟨⟨_, _⟩, isPair, rfl⟩ := List.mem_map.mp isPart
    have member := (List.of_mem_zip (List.mem_filter.mp isPair).1).2
    refine ⟨?_, areResults _ member⟩
    rw [FileTree.find?_of_isPlain (plainResult member).1, partOverlay.files _ isPart]
  · intro place elsewhere
    exact fileAt_of_gives_runModules isPartWet partGiven elsewhere
  · exact keeps_list_of_gives_runModules partGiven
  · intro others othersNotEmpty same
    exact run_congr notEmpty othersNotEmpty same

/-- Of a pair of modules the second one is run alone, as it is run behind the first one. -/
theorem pair_restricted_run_agrees : ∃ results after part,
    Gives (pairBuild.run [] pairOptions) (World.ofFiles pairFiles) results after ∧
      Gives (pairBuild.run [] { pairOptions with only := ["c", "b"] }) (World.ofFiles pairFiles)
        (pairBuild.resultsOf ["c", "b"] results) part ∧
      (pairBuild.resultsOf ["c", "b"] results).map GenerationResult.path =
        [⟨.single, ["ws", "b", "b.iml"], by decide⟩] ∧
      pairBuild.run [] { pairOptions with only := ["c", "b"] } =
        pairBuild.run [] { pairOptions with only := ["b"] } := by
  obtain ⟨results, after, full⟩ := exists_gives_pairBuild 1
  obtain ⟨paths, part, restricted, _, _, _, unknown⟩ := restricted_run_agrees ofData_pairData
    (by decide +kernel) (by decide +kernel) rfl rfl
    (List.cons_ne_nil "c" ["b"]) full
  refine ⟨results, after, part, full, restricted, ?_,
    (unknown ["b"] (List.cons_ne_nil _ _) (by decide)).symm⟩
  obtain ⟨first, others, rfl, _, areOthers⟩ := List.map_eq_cons_iff.mp paths
  obtain ⟨second, rest, rfl, isSecond, areRest⟩ := List.map_eq_cons_iff.mp areOthers
  obtain rfl := List.map_eq_nil_iff.mp areRest
  have isPart : pairBuild.resultsOf ["c", "b"] [first, second] = [second] := rfl
  rw [isPart, List.map_singleton, isSecond, descriptorPath_pair.2]

end Build

end IdeModules
