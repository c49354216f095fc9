import IdeModules.Proofs.Drafts

/-!
# Runs that stop

A run for a module stops in the first of its phases that raises an error, and the error
is the one of that phase.  Until then it has started the first of the module's callbacks,
each once, and it leaves every file as it was.  A run that does not stop has started all
of them, and has written one file at most.
-/

namespace IdeModules

/-- The phases in which a run for a module may stop. -/
inductive RunPhase where
  | layout
  | generation
  | loading
  | callback (call : HookCall)
  | serialization
  | saving
  deriving DecidableEq, Repr

namespace Hooks

/-- The calls of all callbacks of a module, in order. -/
def calls (hooks : Hooks) : List HookCall :=
  callsOf .before hooks.before.length ++
    (callsOf .when hooks.when.length ++ callsOf .raw hooks.raw.length)

/-- The calls that a run has started when it stops in a phase. -/
def callsUntil (hooks : Hooks) : RunPhase → List HookCall
  | .layout | .generation | .loading => []
  | .callback ⟨.before, index⟩ => callsOf .before (index + 1)
  | .callback ⟨.when, index⟩ =>
    callsOf .before hooks.before.length ++ callsOf .when (index + 1)
  | .callback ⟨.raw, index⟩ =>
    callsOf .before hooks.before.length ++
      (callsOf .when hooks.when.length ++ callsOf .raw (index + 1))
  | .serialization | .saving => hooks.calls

/-- The phase in which the revision of a descriptor stops, and the error that it raises. -/
inductive StopsRevision (hooks : Hooks) (persisted generated : Descriptor) :
    RunPhase → Error → Prop where
  | before {index : Nat} {failure : Error}
      (stops : StopsAt hooks.before persisted index failure) :
      StopsRevision hooks persisted generated (.callback ⟨.before, index⟩) failure
  | when {prepared : Descriptor} {index : Nat} {failure : Error}
      (isPrepared : passThrough hooks.before persisted = .ok prepared)
      (stops : StopsAt hooks.when (prepared.merge generated) index failure) :
      StopsRevision hooks persisted generated (.callback ⟨.when, index⟩) failure
  | raw {prepared merged : Descriptor} {tree : Xml.Element} {index : Nat} {failure : Error}
      (isPrepared : passThrough hooks.before persisted = .ok prepared)
      (isMerged : passThrough hooks.when (prepared.merge generated) = .ok merged)
      (isWritten : merged.writtenTree = .ok tree)
      (stops : StopsAt hooks.raw tree index failure) :
      StopsRevision hooks persisted generated (.callback ⟨.raw, index⟩) failure
  | serialization {prepared merged : Descriptor} {tree edited : Xml.Element} {failure : Error}
      (isPrepared : passThrough hooks.before persisted = .ok prepared)
      (isMerged : passThrough hooks.when (prepared.merge generated) = .ok merged)
      (isWritten : merged.writtenTree = .ok tree)
      (isEdited : passThrough hooks.raw tree = .ok edited)
      (stops : serialize edited.indent = .error failure) :
      StopsRevision hooks persisted generated .serialization failure

/-! ## Calls -/

theorem callsOf_isPrefix (phase : HookPhase) {count total : Nat} (within : count ≤ total) :
    callsOf phase count <+: callsOf phase total := by
  obtain ⟨more, rfl⟩ := Nat.exists_eq_add_of_le within
  rw [callsOf, callsOf, List.range_add, List.map_append]
  exact List.prefix_append _ _

theorem nodup_calls (hooks : Hooks) : hooks.calls.Nodup := by
  have eachOnce (phase : HookPhase) (count : Nat) : (callsOf phase count).Nodup := by
    refine List.Nodup.map ?_ List.nodup_range
    intro left right same
    exact (HookCall.mk.inj same).2
  have phaseOf {phase : HookPhase} {count : Nat} {call : HookCall}
      (member : call ∈ callsOf phase count) : call.phase = phase := by
    obtain ⟨index, _, rfl⟩ := List.mem_map.mp member
    rfl
  refine (eachOnce _ _).append ((eachOnce _ _).append (eachOnce _ _) ?_) ?_
  · intro call inWhen inRaw
    exact absurd ((phaseOf inWhen).symm.trans (phaseOf inRaw)) (by decide)
  · intro call inBefore inLater
    rcases List.mem_append.mp inLater with inWhen | inRaw
    · exact absurd ((phaseOf inBefore).symm.trans (phaseOf inWhen)) (by decide)
    · exact absurd ((phaseOf inBefore).symm.trans (phaseOf inRaw)) (by decide)

theorem StopsRevision.isPrefix {hooks : Hooks} {persisted generated : Descriptor}
    {phase : RunPhase} {failure : Error}
    (stops : hooks.StopsRevision persisted generated phase failure) :
    hooks.callsUntil phase <+: hooks.calls := by
  cases stops with
  | before stops =>
      exact (callsOf_isPrefix .before stops.lt_length).trans (List.prefix_append _ _)
  | «when» _ stops =>
      refine (List.prefix_append_right_inj _).mpr ?_
      exact (callsOf_isPrefix .when stops.lt_length).trans (List.prefix_append _ _)
  | raw _ _ _ stops =>
      refine (List.prefix_append_right_inj _).mpr ((List.prefix_append_right_inj _).mpr ?_)
      exact callsOf_isPrefix .raw stops.lt_length
  | serialization => exact List.prefix_refl _

end Hooks

namespace ModuleSettings

/-- The phase in which a run for a module stops on a disk, and the error that it raises. -/
inductive StopsIn (disk : Disk) (settings : ModuleSettings) (hooks : Hooks)
    (options : RunOptions) (files : FileTree) : RunPhase → Error → Prop where
  | layout {failure : Error}
      (stops : settings.layout (settings.anchorsOn files options) = .error failure) :
      StopsIn disk settings hooks options files .layout failure
  | generation {layout : Layout} {failure : Error}
      (laidOut : settings.layout (settings.anchorsOn files options) = .ok layout)
      (stops : Descriptor.generate settings (settings.anchorsOn files options) options.context
        layout = .error failure) :
      StopsIn disk settings hooks options files .generation failure
  | loading {layout : Layout} {made : Descriptor × List String} {failure : Error}
      (laidOut : settings.layout (settings.anchorsOn files options) = .ok layout)
      (isMade : Descriptor.generate settings (settings.anchorsOn files options) options.context
        layout = .ok made)
      (stops : settings.loadOn disk files = .error failure) :
      StopsIn disk settings hooks options files .loading failure
  | revision {layout : Layout} {made : Descriptor × List String} {persisted : Descriptor}
      {phase : RunPhase} {failure : Error}
      (laidOut : settings.layout (settings.anchorsOn files options) = .ok layout)
      (isMade : Descriptor.generate settings (settings.anchorsOn files options) options.context
        layout = .ok made)
      (loaded : settings.loadOn disk files = .ok persisted)
      (stops : hooks.StopsRevision persisted made.1 phase failure) :
      StopsIn disk settings hooks options files phase failure
  | saving {result : GenerationResult} {failure : Error}
      (drafted : settings.draft hooks options files.workingDirectory
        (settings.loadOn disk files) = .ok result)
      (isWet : options.isDry = false)
      (stops : (files.replaceThrough disk result.path result.content).2 = .error failure) :
      StopsIn disk settings hooks options files .saving failure

/-- What a run for a module leaves that gives a result. -/
structure Completed (settings : ModuleSettings) (owner : String) (hooks : Hooks)
    (options : RunOptions) (before : World) (result : GenerationResult) (after : World) :
    Prop where
  path : result.path = settings.descriptorPath
  calls : after.calls = before.calls ++ hooks.calls.map (owner, ·)
  dry : options.isDry = true → after.files = before.files
  saved : options.isDry = false →
    FileTree.Replaces settings.descriptorPath result.content.toUTF8 before.files after.files

/-- What a run for a module leaves that stops in a phase. -/
structure Stopped (disk : Disk) (settings : ModuleSettings) (owner : String) (hooks : Hooks)
    (options : RunOptions) (before : World) (phase : RunPhase) (failure : Error)
    (after : World) : Prop where
  stops : settings.StopsIn disk hooks options before.files phase failure
  isPrefix : hooks.callsUntil phase <+: hooks.calls
  calls : after.calls = before.calls ++ (hooks.callsUntil phase).map (owner, ·)
  files : FileTree.SameFiles before.files after.files

variable {disk : Disk} {settings : ModuleSettings} {owner : String} {hooks : Hooks}
  {options : RunOptions} {world after : World} {failure : Error}

/-! ## The revision -/

theorem exists_writtenTree (descriptor : Descriptor) :
    ∃ tree, descriptor.writtenTree = .ok tree := by
  unfold Descriptor.writtenTree Descriptor.startingTree
  cases descriptor.tree with
  | some root => exact ⟨_, rfl⟩
  | none => exact ⟨_, by rw [readDocument_templateText]; rfl⟩

theorem calls_of_gives_revise {persisted generated : Descriptor} {value : Descriptor × String}
    (given : Gives (revise owner hooks persisted generated) world value after) :
    after.calls = world.calls ++ hooks.calls.map (owner, ·) := by
  simp only [revise, gives_bind_iff, gives_ofResult_iff, gives_pure_iff] at given
  obtain ⟨_, _, before, _, _, merged, _, _, ⟨_, rfl⟩, _, _, edited, _, _, ⟨_, rfl⟩, _, rfl⟩ := given
  rw [(calls_of_gives_callBack edited).2.2, (calls_of_gives_callBack merged).2.2,
    (calls_of_gives_callBack before).2.2, Hooks.calls, List.map_append, List.map_append,
    List.append_assoc, List.append_assoc]

theorem stops_of_raises_revise {persisted generated : Descriptor}
    (raised : Raises (revise owner hooks persisted generated) world failure after) :
    ∃ phase, hooks.StopsRevision persisted generated phase failure ∧
      after.files = world.files ∧
      after.calls = world.calls ++ (hooks.callsUntil phase).map (owner, ·) := by
  simp only [revise, raises_bind_iff, gives_ofResult_iff, raises_ofResult_iff] at raised
  rcases raised with inBefore | ⟨prepared, _, before, raised⟩
  · obtain ⟨index, stops, kept, called⟩ := calls_of_raises_callBack inBefore
    exact ⟨_, .before stops, kept, called⟩
  obtain ⟨isPrepared, keptBefore, calledBefore⟩ := calls_of_gives_callBack before
  rcases raised with inWhen | ⟨merged, _, whenMerged, raised⟩
  · obtain ⟨index, stops, kept, called⟩ := calls_of_raises_callBack inWhen
    refine ⟨_, .when isPrepared stops, kept.trans keptBefore, ?_⟩
    rw [called, calledBefore, Hooks.callsUntil, List.map_append, List.append_assoc]
  obtain ⟨isMerged, keptMerged, calledMerged⟩ := calls_of_gives_callBack whenMerged
  rcases raised with ⟨isError, _⟩ | ⟨tree, _, ⟨isWritten, rfl⟩, raised⟩
  · obtain ⟨tree, isWritten⟩ := exists_writtenTree merged
    cases isError.symm.trans isWritten
  rcases raised with inRaw | ⟨edited, _, raw, raised⟩
  · obtain ⟨index, stops, kept, called⟩ := calls_of_raises_callBack inRaw
    refine ⟨_, .raw isPrepared isMerged isWritten stops,
      (kept.trans keptMerged).trans keptBefore, ?_⟩
    rw [called, calledMerged, calledBefore, Hooks.callsUntil, List.map_append, List.map_append,
      List.append_assoc, List.append_assoc]
  obtain ⟨isEdited, keptRaw, calledRaw⟩ := calls_of_gives_callBack raw
  rcases raised with ⟨isError, rfl⟩ | ⟨_, _, _, raised⟩
  · refine ⟨_, .serialization isPrepared isMerged isWritten isEdited isError,
      (keptRaw.trans keptMerged).trans keptBefore, ?_⟩
    rw [calledRaw, calledMerged, calledBefore, Hooks.callsUntil, Hooks.calls, List.map_append,
      List.map_append, List.append_assoc, List.append_assoc]
  · exact absurd raised (not_raises_pure _)

/-! ## Steps without callbacks -/

/-- A step that starts no callbacks and changes no files. -/
abbrev IsQuiet (step : Run α) : Prop :=
  Keeps (fun world => (world.files, world.calls)) step

theorem isQuiet_runTask (task : Json.Value) : IsQuiet (Run.runTask task) :=
  fun _ => rfl

theorem isQuiet_reportLine (line : String) : IsQuiet (Run.reportLine line) :=
  fun _ => rfl

theorem isQuiet_runTasks (options : RunOptions) (layout : Layout) :
    IsQuiet (runTasks options layout) := by
  unfold runTasks
  split
  · exact keeps_bind (keeps_forM isQuiet_runTask _) fun _ => keeps_pure _
  · exact keeps_pure _

theorem isQuiet_reportLines (lines : List String) : IsQuiet (lines.forM Run.reportLine) :=
  keeps_forM isQuiet_reportLine lines

/-! ## A run that writes nothing -/

/-- What a dry run has done, whether it has come to an end or not. -/
theorem calls_of_gives_dryRun {result : GenerationResult}
    (given : Gives (settings.runOn disk owner hooks { options with isDry := true }) world result
      after) :
    result.path = settings.descriptorPath ∧
      after.calls = world.calls ++ hooks.calls.map (owner, ·) := by
  unfold runOn at given
  simp only [gives_bind_iff, gives_get_iff, gives_ofResult_iff] at given
  obtain ⟨_, _, ⟨rfl, rfl⟩, layout, _, ⟨_, rfl⟩, tasks, ran, tasksRun, ⟨generated, lines⟩, _,
    ⟨_, rfl⟩, _, told, reported, _, _, ⟨rfl, rfl⟩, persisted, _, ⟨_, rfl⟩, revised, _, revision,
    ended⟩ := given
  obtain ⟨rfl, rfl⟩ := gives_pure_iff.mp ended
  have ranCalls := (Prod.mk.inj ((isQuiet_runTasks _ layout).of_gives tasksRun)).2
  have toldCalls := (Prod.mk.inj ((isQuiet_reportLines lines).of_gives reported)).2
  exact ⟨rfl, by rw [calls_of_gives_revise revision, toldCalls, ranCalls]⟩

theorem stopped_of_raises_dryRun
    (raised : Raises (settings.runOn disk owner hooks { options with isDry := true }) world failure
      after) :
    ∃ phase, settings.Stopped disk owner hooks options world phase failure after := by
  have kept : after.files = world.files :=
    (settings.keeps_runOn disk owner hooks options).of_raises raised
  have sameFiles : FileTree.SameFiles world.files after.files := by
    rw [kept]
    exact .refl _
  -- A phase before the callbacks has started none.
  have early {phase : RunPhase}
      (stops : settings.StopsIn disk hooks options world.files phase failure)
      (none : hooks.callsUntil phase = []) (quiet : after.calls = world.calls) :
      settings.Stopped disk owner hooks options world phase failure after :=
    ⟨stops, by rw [none]; exact List.nil_prefix, by rw [none, quiet]; simp, sameFiles⟩
  unfold runOn at raised
  simp only [raises_bind_iff, gives_get_iff, gives_ofResult_iff, raises_ofResult_iff] at raised
  rcases raised with isGet | ⟨_, _, ⟨rfl, rfl⟩, raised⟩
  · exact absurd isGet not_raises_get
  rcases raised with ⟨stops, rfl⟩ | ⟨layout, _, ⟨laidOut, rfl⟩, raised⟩
  · exact ⟨.layout, early (.layout stops) rfl rfl⟩
  rcases raised with ranTasks | ⟨tasks, ran, tasksRun, raised⟩
  · exact absurd ranTasks (isHarmless_runTasks _ layout).not_raises
  obtain ⟨ranFiles, ranCalls⟩ := Prod.mk.inj ((isQuiet_runTasks _ layout).of_gives tasksRun)
  rcases raised with ⟨stops, rfl⟩ | ⟨⟨generated, lines⟩, _, ⟨isMade, rfl⟩, raised⟩
  · exact ⟨.generation, early (.generation laidOut stops) rfl ranCalls⟩
  rcases raised with toldLines | ⟨_, told, reported, raised⟩
  · exact absurd toldLines (isHarmless_reportLines lines).not_raises
  obtain ⟨toldFiles, toldCalls⟩ := Prod.mk.inj ((isQuiet_reportLines lines).of_gives reported)
  rcases raised with isGet | ⟨_, _, ⟨rfl, rfl⟩, raised⟩
  · exact absurd isGet not_raises_get
  rw [toldFiles, ranFiles] at raised
  rcases raised with ⟨stops, rfl⟩ | ⟨persisted, _, ⟨loaded, rfl⟩, raised⟩
  · exact ⟨.loading, early (.loading laidOut isMade stops) rfl (toldCalls.trans ranCalls)⟩
  rcases raised with revision | ⟨_, _, _, raised⟩
  · obtain ⟨phase, stops, _, called⟩ := stops_of_raises_revise revision
    exact ⟨phase, .revision laidOut isMade loaded stops, stops.isPrefix,
      by rw [called, toldCalls, ranCalls], sameFiles⟩
  · exact absurd raised (not_raises_pure _)

/-! ## A run on a disk -/

theorem completed_of_gives_runOn {result : GenerationResult}
    (given : Gives (settings.runOn disk owner hooks options) world result after) :
    settings.Completed owner hooks options world result after := by
  rw [runOn_eq_saveOn] at given
  obtain ⟨drafted, middle, ran, saved⟩ := gives_bind_iff.mp given
  obtain ⟨path, calls⟩ := calls_of_gives_dryRun ran
  have kept : middle.files = world.files :=
    (settings.keeps_runOn disk owner hooks options).of_gives ran
  cases isDry : options.isDry with
  | true =>
      rw [isDry, saveOn_dry] at saved
      obtain ⟨rfl, rfl⟩ := gives_pure_iff.mp saved
      exact ⟨path, calls, fun _ => kept, fun isWet => nomatch isDry.symm.trans isWet⟩
  | false =>
      rw [isDry, saveOn_wet] at saved
      obtain ⟨_, _, replaced, ended⟩ := gives_bind_iff.mp saved
      obtain ⟨rfl, rfl⟩ := gives_pure_iff.mp ended
      obtain ⟨replaces, noCalls⟩ := replaces_of_gives_replaceFileOn replaced
      rw [path, kept] at replaces
      exact ⟨path, noCalls.trans calls, fun dry => (nomatch isDry.symm.trans dry),
        fun _ => replaces⟩

theorem stopped_of_raises_runOn
    (raised : Raises (settings.runOn disk owner hooks options) world failure after) :
    ∃ phase, settings.Stopped disk owner hooks options world phase failure after := by
  rw [runOn_eq_saveOn] at raised
  rcases raises_bind_iff.mp raised with stopped | ⟨drafted, middle, ran, notSaved⟩
  · exact stopped_of_raises_dryRun stopped
  obtain ⟨_, calls⟩ := calls_of_gives_dryRun ran
  have kept : middle.files = world.files :=
    (settings.keeps_runOn disk owner hooks options).of_gives ran
  have isDraft : settings.draft hooks options world.files.workingDirectory
      (settings.loadOn disk world.files) = .ok drafted := by
    rw [← (settings.yields_runOn disk owner hooks options world rfl).1, ran]
  cases isDry : options.isDry with
  | true =>
      rw [isDry, saveOn_dry] at notSaved
      exact absurd notSaved (not_raises_pure _)
  | false =>
      rw [isDry, saveOn_wet] at notSaved
      rcases raises_bind_iff.mp notSaved with notReplaced | ⟨_, _, _, ended⟩
      · obtain ⟨failed, sameFiles, noCalls⟩ := sameFiles_of_raises_replaceFileOn notReplaced
        rw [kept] at failed sameFiles
        exact ⟨.saving, .saving isDraft isDry failed, List.prefix_refl _, noCalls.trans calls,
          sameFiles⟩
      · exact absurd ended (not_raises_pure _)

/-- On every disk a run for a module calls its callbacks in order, each once, until it stops.  A
run that comes to an end has written one file at most; one that stops raises the error of the
phase in which it does so, and leaves every file as it was, and no other one.  The run of a
module that names no disk is among these runs. -/
theorem run_completes_or_stops (disk : Disk) (settings : ModuleSettings) (owner : String)
    (hooks : Hooks) (options : RunOptions) (world : World) :
    hooks.calls.Nodup ∧
      settings.runOn (.plain false) owner hooks options = settings.run owner hooks options ∧
      match (settings.runOn disk owner hooks options).run world with
      | (.ok result, after) => settings.Completed owner hooks options world result after
      | (.error failure, after) =>
        ∃ phase, settings.Stopped disk owner hooks options world phase failure after := by
  refine ⟨hooks.nodup_calls, rfl, ?_⟩
  rcases ended : (settings.runOn disk owner hooks options).run world with ⟨failure | result, after⟩
  · exact stopped_of_raises_runOn ended
  · exact completed_of_gives_runOn ended

end ModuleSettings

end IdeModules
