import IdeModules.Proofs.Previews
import Mathlib.Logic.Relation

/-!
# Modules that are run side by side

Runs of modules that go on side by side take their steps in any order: each loads the descriptor
at its own target, and later replaces it.  If no target is on the way to another one, every
order comes to the results, the error and the files of the run that takes one module after
the other.
-/

namespace IdeModules

/-! ## Steps of several runs -/

/-- How far a run of a module has come beside others. -/
inductive RunStage where
  | waiting
  | loaded (persisted : Except Error Descriptor)
  | ended (outcome : Except Error GenerationResult)

/-- A run of a module beside others. -/
structure SideRun where
  settings : ModuleSettings
  stage : RunStage

def SideRun.start (settings : ModuleSettings) : SideRun :=
  ⟨settings, .waiting⟩

/-- Runs of modules over one file tree. -/
structure SideRuns where
  files : FileTree
  runs : List SideRun

/-- A step of one of several runs: it loads the descriptor of its module, or it ends with the
draft that it makes of that, which it writes. -/
inductive SideStep (hooks : Keyed String Hooks) (options : RunOptions) :
    SideRuns → SideRuns → Prop where
  | load (files : FileTree) (front : List SideRun) (settings : ModuleSettings)
      (back : List SideRun) :
      SideStep hooks options ⟨files, front ++ ⟨settings, .waiting⟩ :: back⟩
        ⟨files, front ++ ⟨settings,
          .loaded (Descriptor.load files settings.descriptorPath settings.name)⟩ :: back⟩
  | write (files : FileTree) (front : List SideRun) (settings : ModuleSettings)
      (persisted : Except Error Descriptor) (back : List SideRun) {after : FileTree}
      {outcome : Except Error GenerationResult}
      (saved : options.save files
        (settings.ownDraft hooks options files.workingDirectory persisted) = (outcome, after)) :
      SideStep hooks options ⟨files, front ++ ⟨settings, .loaded persisted⟩ :: back⟩
        ⟨after, front ++ ⟨settings, .ended outcome⟩ :: back⟩

/-- What runs have come to in the order of their modules, once it is settled: their results, or
the first error. -/
def collect : List SideRun → Option (Except Error (List GenerationResult))
  | [] => some (.ok [])
  | ⟨_, .ended (.error failure)⟩ :: _ => some (.error failure)
  | ⟨_, .ended (.ok result)⟩ :: rest =>
    (collect rest).map fun others => others.map fun results => result :: results
  | _ => none

namespace Build

/-- The end of a run of a build whose modules have come to results or an error. -/
def conclude (build : Build) (options : Options) (files : FileTree) :
    Except Error (List GenerationResult) → Except Error (List GenerationResult) × FileTree
  | .error failure => (.error failure, files)
  | .ok results =>
    if !options.isDry && options.only.isEmpty then
      match build.workspaceText files results with
      | .error failure => (.error failure, files)
      | .ok text =>
        ((files.replace false build.modulesPath text).2.map fun _ => results,
          (files.replace false build.modulesPath text).1)
    else (.ok results, files)

/-- Whether a build comes to an outcome and leaves a tree in some order of the steps of its
selected modules. -/
def RunsBeside (build : Build) (hooks : Keyed String Hooks) (options : Options)
    (before : FileTree) (outcome : Except Error (List GenerationResult)) (after : FileTree) :
    Prop :=
  ∃ reached ended,
    Relation.ReflTransGen (SideStep hooks (build.moduleOptions options))
      ⟨before, (build.selected options.only).map SideRun.start⟩ reached ∧
    collect reached.runs = some ended ∧
    build.conclude options reached.files ended = (outcome, after)

end Build

/-! ## One run among others -/

/-- What a run of a module comes to over a file tree that no other run changes. -/
def ModuleSettings.solo (settings : ModuleSettings) (hooks : Keyed String Hooks)
    (options : RunOptions) (files : FileTree) : Except Error GenerationResult :=
  (options.save files (settings.ownDraftOn hooks options files)).1

theorem ModuleSettings.path_of_solo {settings : ModuleSettings} {hooks : Keyed String Hooks}
    {options : RunOptions} {files : FileTree} {result : GenerationResult}
    (isSolo : settings.solo hooks options files = .ok result) :
    result.path = settings.descriptorPath :=
  path_of_ownDraft (RunOptions.save_eq_ok_iff.mp (Prod.ext isSolo rfl)).1

/-- A module writes its draft beside results as it would write it before them, if it is apart from
them. -/
theorem FileTree.Overlay.save_cases {results : List GenerationResult} {before files : FileTree}
    {options : RunOptions} {path : Path} {drafted : Except Error GenerationResult}
    (overlay : Overlay results before files) (plain : path.IsPlain)
    (notRoot : path.segments ≠ [])
    (apart : ∀ result ∈ results, Apart path.segments result.path.segments)
    (isPath : ∀ result, drafted = .ok result → result.path = path) :
    (options.save files drafted).1 = (options.save before drafted).1 ∧
      ((options.save files drafted).2 = files ∧
          (options.isDry = false → ∀ result, (options.save files drafted).1 ≠ .ok result) ∨
        ∃ result, options.isDry = false ∧ (options.save files drafted).1 = .ok result ∧
          Overlay (result :: results) before (options.save files drafted).2) := by
  rcases drafted with failure | result
  · exact ⟨rfl, .inl ⟨rfl, fun _ _ isOk => nomatch isOk⟩⟩
  obtain rfl := isPath result rfl
  cases isDry : options.isDry with
  | true =>
      rw [RunOptions.save_of_dry isDry, RunOptions.save_of_dry isDry]
      exact ⟨rfl, .inl ⟨rfl, fun isWet => nomatch isWet⟩⟩
  | false =>
      rw [RunOptions.save_of_wet isDry, RunOptions.save_of_wet isDry,
        overlay.replace_snd_eq plain notRoot apart result.content]
      refine ⟨rfl, ?_⟩
      rw [← overlay.replace_snd_eq plain notRoot apart result.content]
      rcases FileTree.replace_cases plain notRoot result.content with
        ⟨_, _, _, _, failed⟩ | ⟨_, _, failed⟩ | ⟨after, places, replaced⟩
      · rw [failed]
        exact .inl ⟨rfl, fun _ _ isOk => nomatch isOk⟩
      · rw [failed]
        exact .inl ⟨rfl, fun _ _ isOk => nomatch isOk⟩
      · rw [replaced]
        exact .inr ⟨result, rfl, rfl, overlay.cons places apart⟩

/-! ## What every order keeps -/

def SideRun.result? (run : SideRun) : Option GenerationResult :=
  match run.stage with
  | .ended (.ok result) => some result
  | _ => none

/-- The results that runs have written. -/
def writtenBy (options : RunOptions) (runs : List SideRun) : List GenerationResult :=
  if options.isDry then [] else runs.filterMap SideRun.result?

/-- Whether a run has come to what it would come to alone. -/
def SideRun.IsSolo (hooks : Keyed String Hooks) (options : RunOptions) (files : FileTree)
    (run : SideRun) : Prop :=
  match run.stage with
  | .waiting => True
  | .loaded persisted =>
    persisted = Descriptor.load files run.settings.descriptorPath run.settings.name
  | .ended outcome => outcome = run.settings.solo hooks options files

/-- Whether runs of modules have come to what each of them would come to alone, over the results
that they have written. -/
structure SideRuns.IsSound (hooks : Keyed String Hooks) (options : RunOptions)
    (modules : List ModuleSettings) (before : FileTree) (reached : SideRuns) : Prop where
  modules : reached.runs.map SideRun.settings = modules
  solo : ∀ run ∈ reached.runs, run.IsSolo hooks options before
  overlay : FileTree.Overlay (writtenBy options reached.runs) before reached.files

section Sound

variable {hooks : Keyed String Hooks} {options : RunOptions} {modules : List ModuleSettings}
  {before : FileTree} {reached next : SideRuns} {front back : List SideRun} {run : SideRun}

theorem path_of_result? {result : GenerationResult} (solo : run.IsSolo hooks options before)
    (isResult : run.result? = some result) : result.path = run.settings.descriptorPath := by
  obtain ⟨settings, stage⟩ := run
  rw [SideRun.result?] at isResult
  split at isResult
  · rename_i found isEnded
    obtain rfl := Option.some.inj isResult
    simp only at isEnded
    subst isEnded
    exact ModuleSettings.path_of_solo solo.symm
  · exact nomatch isResult

/-- A run that has not ended is apart from the results that have been written. -/
theorem apart_of_writtenBy (options : RunOptions)
    (apart : ((front ++ run :: back).map SideRun.settings).Pairwise fun left right =>
      Apart left.descriptorPath.segments right.descriptorPath.segments)
    (solo : ∀ other ∈ front ++ run :: back, other.IsSolo hooks options before)
    (goesOn : run.result? = none) :
    ∀ result ∈ writtenBy options (front ++ run :: back),
      Apart run.settings.descriptorPath.segments result.path.segments := by
  intro result member
  rw [writtenBy] at member
  split at member
  · exact absurd member List.not_mem_nil
  obtain ⟨other, isOther, isResult⟩ := List.mem_filterMap.mp member
  rw [path_of_result? (solo other isOther) isResult]
  rw [List.pairwise_map, List.pairwise_append, List.pairwise_cons] at apart
  obtain ⟨_, ⟨apartFromBack, _⟩, apartFromFront⟩ := apart
  rcases List.mem_append.mp isOther with inFront | inRest
  · exact (apartFromFront other inFront run List.mem_cons_self).symm
  · rcases List.mem_cons.mp inRest with rfl | inBack
    · rw [goesOn] at isResult
      exact nomatch isResult
    · exact apartFromBack other inBack

theorem writtenBy_of_none (none : run.result? = none) :
    writtenBy options (front ++ run :: back) = writtenBy options (front ++ back) := by
  simp [writtenBy, List.filterMap_append, List.filterMap_cons_none none]

theorem mem_writtenBy_of_some {result : GenerationResult} (isWet : options.isDry = false)
    (isResult : run.result? = some result) (other : GenerationResult) :
    other ∈ writtenBy options (front ++ run :: back) ↔
      other ∈ result :: writtenBy options (front ++ back) := by
  simp [writtenBy, isWet, List.filterMap_append, List.filterMap_cons_some isResult, or_left_comm]

theorem solo_replaced {old : SideRun}
    (solo : ∀ other ∈ front ++ old :: back, other.IsSolo hooks options before)
    (isSolo : run.IsSolo hooks options before) :
    ∀ other ∈ front ++ run :: back, other.IsSolo hooks options before := by
  intro other member
  rcases List.mem_append.mp member with inFront | inRest
  · exact solo other (List.mem_append_left _ inFront)
  · rcases List.mem_cons.mp inRest with rfl | inBack
    · exact isSolo
    · exact solo other (List.mem_append_right _ (List.mem_cons_of_mem _ inBack))

section Steps

variable {files : FileTree} {settings : ModuleSettings} {persisted : Except Error Descriptor}
  (plain : ∀ settings ∈ modules, settings.descriptorPath.IsPlain)
  (apart : modules.Pairwise fun left right =>
    Apart left.descriptorPath.segments right.descriptorPath.segments)

include plain apart

theorem isSound_load
    (sound : SideRuns.IsSound hooks options modules before
      ⟨files, front ++ ⟨settings, .waiting⟩ :: back⟩) :
    SideRuns.IsSound hooks options modules before ⟨files, front ++ ⟨settings,
      .loaded (Descriptor.load files settings.descriptorPath settings.name)⟩ :: back⟩ := by
  obtain ⟨areModules, solo, overlay⟩ := sound
  dsimp only at areModules solo overlay
  have isModule : settings ∈ modules := by simp [← areModules]
  have apartFromAll := apart_of_writtenBy options (areModules ▸ apart) solo rfl
  refine ⟨by simpa using areModules, solo_replaced solo ?_, ?_⟩
  · exact Descriptor.load_congr (overlay.find?_eq (plain settings isModule) apartFromAll) _
  · rw [writtenBy_of_none rfl] at overlay ⊢
    exact overlay

/-- A module that has loaded its descriptor ends as it would alone. -/
theorem isSound_write {after : FileTree} {outcome : Except Error GenerationResult}
    (sound : SideRuns.IsSound hooks options modules before
      ⟨files, front ++ ⟨settings, .loaded persisted⟩ :: back⟩)
    (saved : options.save files
      (settings.ownDraft hooks options files.workingDirectory persisted) = (outcome, after)) :
    SideRuns.IsSound hooks options modules before
      ⟨after, front ++ ⟨settings, .ended outcome⟩ :: back⟩ := by
  obtain ⟨areModules, solo, overlay⟩ := sound
  dsimp only at areModules solo overlay
  have isModule : settings ∈ modules := by simp [← areModules]
  have apartFromAll := apart_of_writtenBy options (areModules ▸ apart) solo rfl
  have isLoaded : persisted = Descriptor.load before settings.descriptorPath settings.name :=
    solo ⟨settings, .loaded persisted⟩ (List.mem_append_right _ List.mem_cons_self)
  rw [isLoaded, overlay.directory] at saved
  change options.save files (settings.ownDraftOn hooks options before) = (outcome, after) at saved
  have isPath (result : GenerationResult)
      (drafted : settings.ownDraftOn hooks options before = .ok result) :
      result.path = settings.descriptorPath := ModuleSettings.path_of_ownDraft drafted
  obtain ⟨sameOutcome, ends⟩ := overlay.save_cases (plain settings isModule)
    (descriptorPath_ne_nil settings) apartFromAll isPath
  rw [saved] at sameOutcome ends
  rw [writtenBy_of_none rfl] at overlay ends
  refine ⟨by simpa using areModules, solo_replaced solo sameOutcome, ?_⟩
  rcases ends with ⟨rfl, notOk⟩ | ⟨result, isWet, isOk, extended⟩
  · have nothingWritten : writtenBy options (front ++ ⟨settings, .ended outcome⟩ :: back) =
        writtenBy options (front ++ back) := by
      cases isDry : options.isDry with
      | true => simp [writtenBy, isDry]
      | false =>
          refine writtenBy_of_none ?_
          rcases outcome with failure | result
          · rfl
          · exact absurd rfl (notOk isDry result)
    rw [nothingWritten]
    exact overlay
  · refine extended.of_mem_iff fun other => mem_writtenBy_of_some isWet ?_ other
    simp only at isOk
    rw [SideRun.result?, isOk]

end Steps

/-- A step of one run leaves every run what it would be alone. -/
theorem SideRuns.IsSound.step
    (plain : ∀ settings ∈ modules, settings.descriptorPath.IsPlain)
    (apart : modules.Pairwise fun left right =>
      Apart left.descriptorPath.segments right.descriptorPath.segments)
    (sound : reached.IsSound hooks options modules before)
    (step : SideStep hooks options reached next) : next.IsSound hooks options modules before := by
  cases step with
  | load => exact isSound_load plain apart sound
  | write _ _ _ _ _ saved => exact isSound_write plain apart sound saved

/-- Any number of steps leaves every run what it would be alone. -/
theorem isSound_of_steps
    (plain : ∀ settings ∈ modules, settings.descriptorPath.IsPlain)
    (apart : modules.Pairwise fun left right =>
      Apart left.descriptorPath.segments right.descriptorPath.segments)
    (steps : Relation.ReflTransGen (SideStep hooks options)
      ⟨before, modules.map SideRun.start⟩ reached) :
    reached.IsSound hooks options modules before := by
  induction steps with
  | refl =>
      have unwritten : writtenBy options (modules.map SideRun.start) = [] := by
        rw [writtenBy]
        split
        · rfl
        · exact List.filterMap_eq_nil_iff.mpr fun run member => by
            obtain ⟨settings, _, rfl⟩ := List.mem_map.mp member
            rfl
      refine ⟨by simp [Function.comp_def, SideRun.start], ?_, ?_⟩
      · intro run member
        obtain ⟨settings, _, rfl⟩ := List.mem_map.mp member
        trivial
      · rw [unwritten]
        exact FileTree.overlay_nil before
  | tail _ step ih => exact ih.step plain apart step

theorem collect_cons_cases {rest : List SideRun} {ended : Except Error (List GenerationResult)}
    (collected : collect (run :: rest) = some ended) :
    (∃ failure, run.stage = .ended (.error failure) ∧ ended = .error failure) ∨
      ∃ result others, run.stage = .ended (.ok result) ∧ collect rest = some others ∧
        ended = others.map fun results => result :: results := by
  obtain ⟨settings, stage⟩ := run
  rcases stage with _ | _ | failure | result
  · exact nomatch collected
  · exact nomatch collected
  · exact .inl ⟨failure, rfl, (Option.some.inj collected).symm⟩
  · obtain ⟨others, areOthers, isEnded⟩ := Option.map_eq_some_iff.mp collected
    exact .inr ⟨result, others, rfl, areOthers, isEnded.symm⟩

theorem eq_solo_of_ended {outcome : Except Error GenerationResult}
    (solo : run.IsSolo hooks options before) (isEnded : run.stage = .ended outcome) :
    run.settings.solo hooks options before = outcome := by
  rw [SideRun.IsSolo, isEnded] at solo
  exact solo.symm

/-- Runs that are settled have come to what their modules come to alone, up to the first error. -/
theorem collect_eq_solo {runs : List SideRun} {ended : Except Error (List GenerationResult)}
    (solo : ∀ run ∈ runs, run.IsSolo hooks options before)
    (collected : collect runs = some ended) :
    ended = (runs.map SideRun.settings).mapM (fun settings => settings.solo hooks options before) ∧
      ∀ results, ended = .ok results → runs.filterMap SideRun.result? = results := by
  induction runs generalizing ended with
  | nil =>
      obtain rfl := Option.some.inj collected
      exact ⟨rfl, fun _ isOk => Except.ok.inj isOk⟩
  | cons run rest ih =>
      rw [List.map_cons, List.mapM_cons]
      rcases collect_cons_cases collected with
        ⟨failure, isEnded, rfl⟩ | ⟨result, others, isEnded, areOthers, rfl⟩
      · rw [eq_solo_of_ended (solo run List.mem_cons_self) isEnded]
        exact ⟨rfl, fun _ isOk => nomatch isOk⟩
      · obtain ⟨othersSolo, othersWritten⟩ := ih
          (fun other member => solo other (List.mem_cons_of_mem _ member)) areOthers
        have isResult : run.result? = some result := by rw [SideRun.result?, isEnded]
        rw [eq_solo_of_ended (solo run List.mem_cons_self) isEnded, ← othersSolo,
          List.filterMap_cons_some isResult]
        rcases others with failure | results
        · exact ⟨rfl, fun _ isOk => nomatch isOk⟩
        · refine ⟨rfl, ?_⟩
          intro all isOk
          obtain rfl := Except.ok.inj isOk
          rw [othersWritten results rfl]

end Sound

/-! ## The orders of the program -/

namespace Build

variable (build : Build) (hooks : Keyed String Hooks) (options : Options)

theorem steps_runModule (front back : List SideRun) (settings : ModuleSettings) (world : World) :
    Relation.ReflTransGen (SideStep hooks (build.moduleOptions options))
      ⟨world.files, front ++ ⟨settings, .waiting⟩ :: back⟩
      ⟨((build.runModule hooks options settings).run world).2.files, front ++
        ⟨settings, .ended ((build.runModule hooks options settings).run world).1⟩ :: back⟩ := by
  have saved := build.runModule_eq_save hooks options settings world
  rw [ModuleSettings.ownDraftOn] at saved
  exact (Relation.ReflTransGen.single (.load world.files front settings back)).tail
    (.write _ _ _ _ _ saved.symm)

theorem steps_mapM (modules : List ModuleSettings) (front : List SideRun) (world : World) :
    ∃ back, Relation.ReflTransGen (SideStep hooks (build.moduleOptions options))
        ⟨world.files, front ++ modules.map SideRun.start⟩
        ⟨((modules.mapM (build.runModule hooks options)).run world).2.files, front ++ back⟩ ∧
      collect back = some ((modules.mapM (build.runModule hooks options)).run world).1 := by
  induction modules generalizing front world with
  | nil => exact ⟨[], .refl, rfl⟩
  | cons settings rest ih =>
      have first :=
        build.steps_runModule hooks options front (rest.map SideRun.start) settings world
      rw [run_mapM_cons]
      rcases ran : (build.runModule hooks options settings).run world with
        ⟨failure | result, middle⟩ <;> rw [ran] at first
      · exact ⟨_, first, rfl⟩
      · obtain ⟨back, others, collected⟩ :=
          ih (front ++ [⟨settings, .ended (.ok result)⟩]) middle
        rw [List.append_assoc, List.append_assoc] at others
        refine ⟨⟨settings, .ended (.ok result)⟩ :: back, first.trans others, ?_⟩
        rw [collect, collected]
        rfl

theorem steps_sideBySide (modules : List ModuleSettings) (front : List SideRun) (world : World) :
    ∃ back, Relation.ReflTransGen (SideStep hooks (build.moduleOptions options))
        ⟨world.files, front ++ modules.map SideRun.start⟩
        ⟨((Run.sideBySide (build.runModule hooks options) modules).run world).2.files,
          front ++ back⟩ ∧
      collect back =
        some ((Run.sideBySide (build.runModule hooks options) modules).run world).1 := by
  induction modules generalizing front world with
  | nil => exact ⟨[], .refl, rfl⟩
  | cons settings rest ih =>
      have first :=
        build.steps_runModule hooks options front (rest.map SideRun.start) settings world
      rw [run_sideBySide_cons]
      rcases ran : (build.runModule hooks options settings).run world with ⟨outcome, middle⟩
      rw [ran] at first
      obtain ⟨back, others, collected⟩ :=
        ih (front ++ [⟨settings, .ended outcome⟩]) middle
      rw [List.append_assoc, List.append_assoc] at others
      refine ⟨⟨settings, .ended outcome⟩ :: back, first.trans others, ?_⟩
      rcases outcome with failure | result
      · rfl
      · rw [collect, collected]
        rfl

theorem runModules_eq :
    build.runModules hooks options =
      if 1 < options.workers && 1 < (build.selected options.only).length then
        Run.sideBySide (build.runModule hooks options) (build.selected options.only)
      else (build.selected options.only).mapM (build.runModule hooks options) :=
  rfl

/-- The selected modules take their steps in an order of their own. -/
theorem steps_runModules (world : World) :
    ∃ reached, Relation.ReflTransGen (SideStep hooks (build.moduleOptions options))
        ⟨world.files, (build.selected options.only).map SideRun.start⟩ reached ∧
      reached.files = ((build.runModules hooks options).run world).2.files ∧
      collect reached.runs = some ((build.runModules hooks options).run world).1 := by
  rw [runModules_eq]
  split
  · obtain ⟨back, steps, collected⟩ := build.steps_sideBySide hooks options
      (build.selected options.only) [] world
    exact ⟨_, steps, rfl, collected⟩
  · obtain ⟨back, steps, collected⟩ := build.steps_mapM hooks options
      (build.selected options.only) [] world
    exact ⟨_, steps, rfl, collected⟩

theorem run_listOn_plain {results : List GenerationResult} {world : World}
    (lists : (!options.isDry && options.only.isEmpty) = true) :
    (build.listOn (.plain false) options results).run world =
      match build.workspaceText world.files results with
      | .error failure => (.error failure, world)
      | .ok text => ((world.files.replace false build.modulesPath text).2,
          { world with files := (world.files.replace false build.modulesPath text).1 }) := by
  have here : (get : Run World).run world = (.ok world, world) := rfl
  have looked :
      (Run.ofResult (build.workspaceTextOn (.plain false) world.files results)).run world =
        (build.workspaceText world.files results, world) := rfl
  unfold listOn
  rw [if_pos lists, run_bind, here]
  simp only [run_bind, looked]
  rcases build.workspaceText world.files results with failure | text
  · rfl
  · simp only [run_replaceFileOn, FileTree.replaceThrough_plain]

theorem run_eq_conclude (world : World) :
    build.conclude options ((build.runModules hooks options).run world).2.files
        ((build.runModules hooks options).run world).1 =
      (((build.run hooks options).run world).1,
        ((build.run hooks options).run world).2.files) := by
  rw [run_eq, run_bind]
  rcases (build.runModules hooks options).run world with ⟨failure | results, middle⟩
  · rfl
  simp only [run_bind]
  cases lists : !options.isDry && options.only.isEmpty with
  | false =>
      rw [listOn_eq_pure lists, conclude, lists]
      rfl
  | true =>
      rw [run_listOn_plain build options lists, conclude, if_pos lists]
      rcases build.workspaceText middle.files results with failure | text
      · rfl
      · simp only
        rcases middle.files.replace false build.modulesPath text with ⟨after, failure | done⟩ <;>
          rfl

theorem runsBeside_run (world : World) :
    build.RunsBeside hooks options world.files ((build.run hooks options).run world).1
      ((build.run hooks options).run world).2.files := by
  obtain ⟨reached, steps, sameFiles, collected⟩ := build.steps_runModules hooks options world
  refine ⟨reached, _, steps, collected, ?_⟩
  rw [sameFiles]
  exact build.run_eq_conclude hooks options world

/-! ## Every order -/

theorem conclude_congr {files other : FileTree}
    (sameDirectory : files.workingDirectory = other.workingDirectory)
    (plain : build.modulesPath.IsPlain)
    (same : ∀ place, files.entryAt place = other.entryAt place)
    (results : List GenerationResult) :
    (build.conclude options files (.ok results)).1 =
        (build.conclude options other (.ok results)).1 ∧
      ∀ place, (build.conclude options files (.ok results)).2.entryAt place =
        (build.conclude options other (.ok results)).2.entryAt place := by
  have sameThere : files.find? build.modulesPath = other.find? build.modulesPath := by
    rw [FileTree.find?_of_isPlain plain, FileTree.find?_of_isPlain plain, same]
  rw [conclude, conclude, workspaceText_congr sameDirectory sameThere]
  split
  · rcases build.workspaceText other results with failure | text
    · exact ⟨rfl, same⟩
    · obtain ⟨sameEnd, sameTree⟩ := FileTree.replace_congr plain (modulesPath_ne_nil build)
        same text
      exact ⟨congrArg (Except.map fun _ => results) sameEnd, sameTree⟩
  · exact ⟨rfl, same⟩

section Orders

variable {build : Build} {hooks : Keyed String Hooks} {options : Options} {before : FileTree}

/-- What the selected modules come to alone, up to the first error. -/
def soloResults (build : Build) (hooks : Keyed String Hooks) (options : Options)
    (before : FileTree) : Except Error (List GenerationResult) :=
  (build.selected options.only).mapM fun settings =>
    settings.solo hooks (build.moduleOptions options) before

/-- In every order the modules come to what they come to alone. -/
theorem ended_of_steps
    (plain : ∀ settings ∈ build.modules, settings.descriptorPath.IsPlain)
    (apart : build.modules.Pairwise fun left right =>
      Apart left.descriptorPath.segments right.descriptorPath.segments)
    {reached : SideRuns} {ended : Except Error (List GenerationResult)}
    (steps : Relation.ReflTransGen (SideStep hooks (build.moduleOptions options))
      ⟨before, (build.selected options.only).map SideRun.start⟩ reached)
    (collected : collect reached.runs = some ended) :
    ended = build.soloResults hooks options before ∧
      ∀ results, ended = .ok results →
        FileTree.Overlay (if options.isDry then [] else results) before reached.files := by
  have sublist := build.selected_sublist options.only
  have sound := isSound_of_steps
    (fun settings member => plain settings (sublist.subset member)) (apart.sublist sublist) steps
  obtain ⟨isSolo, areWritten⟩ := collect_eq_solo sound.solo collected
  rw [sound.modules] at isSolo
  refine ⟨isSolo, ?_⟩
  intro results isOk
  have overlay := sound.overlay
  rw [writtenBy, areWritten results isOk] at overlay
  exact overlay

/-- All orders come to one outcome, and to one tree if every module succeeds. -/
theorem runsBeside_unique (plainList : build.modulesPath.IsPlain)
    (plain : ∀ settings ∈ build.modules, settings.descriptorPath.IsPlain)
    (apart : build.modules.Pairwise fun left right =>
      Apart left.descriptorPath.segments right.descriptorPath.segments)
    {outcome other : Except Error (List GenerationResult)} {after final : FileTree}
    (beside : build.RunsBeside hooks options before outcome after)
    (otherwise : build.RunsBeside hooks options before other final) :
    outcome = other ∧ ∀ results, build.soloResults hooks options before = .ok results →
      ∀ place, after.entryAt place = final.entryAt place := by
  obtain ⟨reached, ended, steps, collected, concluded⟩ := beside
  obtain ⟨reached', ended', steps', collected', concluded'⟩ := otherwise
  obtain ⟨isSolo, overlay⟩ := ended_of_steps plain apart steps collected
  obtain ⟨isSolo', overlay'⟩ := ended_of_steps plain apart steps' collected'
  obtain rfl := isSolo'.trans isSolo.symm
  rw [← isSolo]
  rcases ended' with failure | results
  · obtain ⟨rfl, rfl⟩ := Prod.mk.inj concluded
    obtain ⟨rfl, rfl⟩ := Prod.mk.inj concluded'
    exact ⟨rfl, fun _ isOk => nomatch isOk⟩
  · have first := overlay results rfl
    have second := overlay' results rfl
    obtain ⟨sameEnd, sameTree⟩ := build.conclude_congr options
      (first.directory.trans second.directory.symm) plainList
      (second.entryAt_eq first fun _ => Iff.rfl) results
    rw [concluded, concluded'] at sameEnd sameTree
    exact ⟨sameEnd, fun _ _ => sameTree⟩

/-- In whatever order the modules of a build take their steps beside one another, they come to the
results or to the error of the run that takes one module after the other, and they leave the
same files if every module succeeds.  The run of a build with several workers is such an
order. -/
theorem every_order_agrees {isDirectory : Path → Bool} {start directory source : Path}
    {data : Json.Value} {world : World} {outcome : Except Error (List GenerationResult)}
    {after : FileTree}
    (parsed : ofData isDirectory start directory source data = .ok build)
    (noSlash : ∀ settings ∈ build.modules, '/' ∉ settings.name.display.toList)
    (apart : build.modules.Pairwise fun left right =>
      Apart (world.files.destination left.descriptorPath)
        (world.files.destination right.descriptorPath))
    (beside : build.RunsBeside hooks options world.files outcome after) :
    outcome = ((build.run hooks { options with workers := 1 }).run world).1 ∧
      (∀ results middle,
        Gives (build.runModules hooks { options with workers := 1 }) world results middle →
          ∀ place, after.entryAt place =
            ((build.run hooks { options with workers := 1 }).run world).2.files.entryAt place) ∧
      build.RunsBeside hooks options world.files ((build.run hooks options).run world).1
        ((build.run hooks options).run world).2.files := by
  obtain ⟨plainList, plain⟩ := isPlain_targets parsed noSlash
  have apartSegments : build.modules.Pairwise fun left right =>
      Apart left.descriptorPath.segments right.descriptorPath.segments := by
    apply apart.imp_of_mem
    intro left right isLeft isRight areApart
    rwa [FileTree.destination_of_isPlain (plain left isLeft),
      FileTree.destination_of_isPlain (plain right isRight)] at areApart
  have inOrder := build.runsBeside_run hooks { options with workers := 1 } world
  obtain ⟨sameEnd, sameTree⟩ :=
    runsBeside_unique plainList plain apartSegments beside inOrder
  refine ⟨sameEnd, ?_, build.runsBeside_run hooks options world⟩
  intro results middle given
  obtain ⟨reached, steps, _, collected⟩ :=
    build.steps_runModules hooks { options with workers := 1 } world
  rw [given] at collected
  exact sameTree results (ended_of_steps plain apartSegments steps collected).1.symm

end Orders

/-! ## Two modules whose steps cross -/

instance (left right : Place) : Decidable (Apart left right) :=
  inferInstanceAs (Decidable (¬left <+: right ∧ ¬right <+: left))

/-- Two modules can both load their descriptors before the second one writes and then the first. -/
theorem exists_crossed_steps (hooks : Keyed String Hooks) (options : RunOptions)
    (files : FileTree) (first second : ModuleSettings) :
    ∃ reached ended, Relation.ReflTransGen (SideStep hooks options)
        ⟨files, [first, second].map SideRun.start⟩ reached ∧
      collect reached.runs = some ended := by
  let load (settings : ModuleSettings) : Except Error Descriptor :=
    Descriptor.load files settings.descriptorPath settings.name
  rcases isEarlier : options.save files
    (second.ownDraft hooks options files.workingDirectory (load second)) with ⟨earlier, middle⟩
  rcases isLater : options.save middle
    (first.ownDraft hooks options middle.workingDirectory (load first)) with ⟨later, after⟩
  have steps : Relation.ReflTransGen (SideStep hooks options)
      ⟨files, [first, second].map SideRun.start⟩
      ⟨after, [⟨first, .ended later⟩, ⟨second, .ended earlier⟩]⟩ :=
    (((Relation.ReflTransGen.single (.load files [] first [SideRun.start second])).tail
      (.load files [⟨first, .loaded (load first)⟩] second [])).tail
      (.write files [⟨first, .loaded (load first)⟩] second (load second) [] isEarlier)).tail
      (.write middle [] first (load first) [⟨second, .ended earlier⟩] isLater)
  rcases later with failure | result
  · exact ⟨_, _, steps, rfl⟩
  · rcases earlier with failure | other
    · exact ⟨_, _, steps, rfl⟩
    · exact ⟨_, _, steps, rfl⟩

theorem crossed_pair_agrees :
    ∃ results after final,
      pairBuild.RunsBeside [] { pairOptions with workers := 2 } pairFiles (.ok results) after ∧
      Gives (pairBuild.run [] pairOptions) (World.ofFiles pairFiles) results final ∧
      ∀ place, after.entryAt place = final.files.entryAt place := by
  let options : Options := { pairOptions with workers := 2 }
  obtain ⟨reached, ended, steps, collected⟩ := exists_crossed_steps []
    (pairBuild.moduleOptions options) pairFiles (pairModule "a") (pairModule "b")
  have beside : pairBuild.RunsBeside [] options (World.ofFiles pairFiles).files
      (pairBuild.conclude options reached.files ended).1
      (pairBuild.conclude options reached.files ended).2 :=
    ⟨reached, ended, steps, collected, rfl⟩
  obtain ⟨sameEnd, sameFiles, _⟩ := every_order_agrees ofData_pairData (by decide +kernel)
    (by decide +kernel) beside
  obtain ⟨results, final, given⟩ := exists_gives_pairBuild 1
  obtain ⟨middle, modulesGiven, _⟩ := gives_run_iff.mp given
  have inOrder : (pairBuild.run [] { options with workers := 1 }).run (World.ofFiles pairFiles) =
      (.ok results, final) := given
  rw [inOrder] at sameEnd sameFiles
  rw [sameEnd] at beside
  exact ⟨results, _, final, beside, given, sameFiles results middle modulesGiven⟩

end Build

end IdeModules
