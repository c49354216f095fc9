import IdeModules.Proofs.Disk
import IdeModules.Proofs.Generation
import IdeModules.Proofs.Raising
import IdeModules.Workspace

/-!
# Drafts

A run that writes nothing gives a draft, which depends on a file tree through its working
directory and the loaded descriptor only.  Every other run is a draft that is written.
-/

namespace IdeModules

/-! ## Steps that give a result -/

/-- Whether a step ends in one way wherever it is taken over a file tree, which it keeps. -/
def Yields (files : FileTree) (step : Run α) (result : Except Error α) : Prop :=
  ∀ world : World, world.files = files →
    (step.run world).1 = result ∧ (step.run world).2.files = files

section Yields

variable {α β : Type} {files : FileTree}

theorem yields_ofResult (result : Except Error α) :
    Yields files (Run.ofResult result) result :=
  fun _ onFiles => ⟨rfl, onFiles⟩

theorem yields_pure (value : α) : Yields files (pure value) (.ok value) :=
  fun _ onFiles => ⟨rfl, onFiles⟩

theorem yields_bind {step : Run α} {next : α → Run β} {result : Except Error α}
    {rest : α → Except Error β} (first : Yields files step result)
    (others : ∀ value, Yields files (next value) (rest value)) :
    Yields files (step >>= next) (result >>= rest) := by
  intro world onFiles
  obtain ⟨same, kept⟩ := first world onFiles
  subst same
  rw [run_bind]
  rcases stepped : step.run world with ⟨failure | value, middle⟩
  · rw [stepped] at kept
    exact ⟨rfl, kept⟩
  · rw [stepped] at kept
    exact others value middle kept

theorem yields_bind_ok {step : Run α} {next : α → Run β} {value : α} {result : Except Error β}
    (first : Yields files step (.ok value)) (rest : Yields files (next value) result) :
    Yields files (step >>= next) result := by
  intro world onFiles
  obtain ⟨given, kept⟩ := first world onFiles
  rw [run_bind]
  rcases stepped : step.run world with ⟨ended, middle⟩
  rw [stepped] at given kept
  subst given
  exact rest middle kept

theorem yields_get {next : World → Run α} {result : Except Error α}
    (rest : ∀ world, world.files = files → Yields files (next world) result) :
    Yields files (get >>= next) result :=
  fun world onFiles => rest world onFiles world onFiles

theorem IsHarmless.yields {step : Run Unit} (harmless : IsHarmless step) :
    Yields files step (.ok ()) := by
  intro world onFiles
  obtain ⟨_, after, given, kept⟩ := harmless world
  rw [given]
  exact ⟨rfl, kept.trans onFiles⟩

theorem yields_callBack (owner : String) (phase : HookPhase) (callbacks : List (Callback α))
    (value : α) :
    Yields files (Run.callBack owner phase callbacks value) (passThrough callbacks value) := by
  intro world onFiles
  rw [run_callBack]
  rcases runCallbacks_cases callbacks value with
    ⟨_, isLast, ran⟩ | ⟨_, _, _, isError, ran⟩
  · rw [ran, isLast]
    exact ⟨rfl, onFiles⟩
  · rw [ran, isError]
    exact ⟨rfl, onFiles⟩

end Yields

/-! ## The draft of a run -/

/-- The merged descriptor with its indented tree, and the written text, as the callbacks leave
them. -/
def Hooks.revision (hooks : Hooks) (persisted generated : Descriptor) :
    Except Error (Descriptor × String) := do
  let prepared ← passThrough hooks.before persisted
  let merged ← passThrough hooks.when (prepared.merge generated)
  let tree ← merged.writtenTree
  let edited ← passThrough hooks.raw tree
  let content ← serialize edited.indent
  pure ({ merged with tree := some edited.indent }, content)

namespace ModuleSettings

/-- What a run for a module makes of a loaded descriptor, before it writes anything. -/
def draft (settings : ModuleSettings) (hooks : Hooks) (options : RunOptions) (start : Path)
    (loaded : Except Error Descriptor) : Except Error GenerationResult := do
  let anchors := settings.anchors start options.shared
  let layout ← settings.layout anchors
  let made ← Descriptor.generate settings anchors options.context layout
  let persisted ← loaded
  let revised ← hooks.revision persisted made.1
  pure ⟨settings.descriptorPath, revised.1, revised.2, made.2,
    if options.runsTasks then layout.tasks else []⟩

/-- The draft of a run over a file tree. -/
def draftOn (settings : ModuleSettings) (hooks : Hooks) (options : RunOptions)
    (files : FileTree) : Except Error GenerationResult :=
  settings.draft hooks options files.workingDirectory
    (Descriptor.load files settings.descriptorPath settings.name)

variable {files : FileTree}

/-- The phases of a draft that come to an end. -/
theorem draftOn_eq_ok {settings : ModuleSettings} {hooks : Hooks} {options : RunOptions}
    {layout : Layout} {made : Descriptor × List String} {persisted : Descriptor}
    {revised : Descriptor × String}
    (laidOut : settings.layout (settings.anchorsOn files options) = .ok layout)
    (isMade : Descriptor.generate settings (settings.anchorsOn files options) options.context
      layout = .ok made)
    (loaded : Descriptor.load files settings.descriptorPath settings.name = .ok persisted)
    (isRevised : hooks.revision persisted made.1 = .ok revised) :
    settings.draftOn hooks options files = .ok ⟨settings.descriptorPath, revised.1, revised.2,
      made.2, if options.runsTasks then layout.tasks else []⟩ := by
  simp only [draftOn, draft, except_bind_eq_ok_iff]
  exact ⟨layout, laidOut, made, isMade, persisted, loaded, revised, isRevised, rfl⟩

/-- Without callbacks the text of a descriptor is revised if it has one. -/
theorem exists_revision {persisted generated : Descriptor} {root : Xml.Element} {content : String}
    (isTree : (persisted.merge generated).tree = some root)
    (written : (persisted.merge generated).write.2 = .ok content) :
    ∃ revised, Hooks.none.revision persisted generated = .ok (revised, content) := by
  have starts : (persisted.merge generated).startingTree = .ok root := by
    rw [Descriptor.startingTree, isTree]
  have isWritten : (persisted.merge generated).writtenTree =
      .ok ((persisted.merge generated).writeTo root) := by
    rw [Descriptor.writtenTree, starts]
    rfl
  rw [Descriptor.write_of_tree isTree] at written
  simp only [Hooks.revision, except_bind_eq_ok_iff]
  exact ⟨_, persisted, rfl, _, rfl, _, isWritten, _, rfl, content, written, rfl⟩

/-- A module without callbacks has a draft once it has been laid out, generated and loaded, if its
development kit is a text. -/
theorem exists_draft {settings : ModuleSettings} {options : RunOptions} {layout : Layout}
    {generated persisted : Descriptor} {lines : List String}
    (isText : settings.jdkName = .null ∨ ∃ name, settings.jdkName = .str name ∧ name ≠ "")
    (laidOut : settings.layout (settings.anchorsOn files options) = .ok layout)
    (made : Descriptor.generate settings (settings.anchorsOn files options) options.context
      layout = .ok (generated, lines))
    (loaded : Descriptor.load files settings.descriptorPath settings.name = .ok persisted) :
    ∃ result, settings.draftOn Hooks.none options files = .ok result ∧
      result.path = settings.descriptorPath := by
  obtain ⟨known, root, isOf, isRead, _⟩ := Descriptor.load_eq_ok loaded
  obtain ⟨_, _, _, areFiles⟩ := layout_cases laidOut
  obtain ⟨scopes, level, isGenerated, _⟩ := Descriptor.generate_eq areFiles made
  have isTree : (persisted.merge generated).tree = some root := by
    rw [isOf]
    exact Descriptor.tree_ofElement known root
  have sameKit : (persisted.merge generated).jdkName = settings.jdkName := by
    rw [isGenerated]
    rfl
  rw [← sameKit] at isText
  obtain ⟨revised, isRevised⟩ := exists_revision isTree
    (Descriptor.write_eq_document _ isText isTree isRead.ofBoth.1)
  exact ⟨_, draftOn_eq_ok laidOut made loaded isRevised, rfl⟩

theorem yields_revise (owner : String) (hooks : Hooks) (persisted generated : Descriptor) :
    Yields files (revise owner hooks persisted generated)
      (hooks.revision persisted generated) := by
  apply yields_bind (yields_callBack owner .before _ _)
  intro prepared
  apply yields_bind (yields_callBack owner .when _ _)
  intro merged
  apply yields_bind (yields_ofResult _)
  intro tree
  apply yields_bind (yields_callBack owner .raw _ _)
  intro edited
  exact yields_bind (yields_ofResult _) fun content => yields_pure _

theorem yields_runTasks (options : RunOptions) (layout : Layout) :
    Yields files (runTasks options layout)
      (.ok (if options.runsTasks then layout.tasks else [])) := by
  have ran : Yields files (layout.tasks.forM Run.runTask) (.ok ()) :=
    (isHarmless_forM fun task _ => isHarmless_runTask task).yields
  unfold runTasks
  split
  · exact yields_bind ran fun _ => yields_pure _
  · exact yields_pure _

theorem yields_runOn (disk : Disk) (settings : ModuleSettings) (owner : String) (hooks : Hooks)
    (options : RunOptions) :
    Yields files (settings.runOn disk owner hooks { options with isDry := true })
      (settings.draft hooks options files.workingDirectory (settings.loadOn disk files)) := by
  apply yields_get
  intro world onFiles
  rw [onFiles]
  apply yields_bind (yields_ofResult _)
  intro layout
  refine yields_bind_ok (yields_runTasks _ layout) ?_
  refine yields_bind (yields_ofResult _) ?_
  rintro ⟨generated, lines⟩
  refine yields_bind_ok (isHarmless_reportLines lines).yields ?_
  apply yields_get
  intro later onFilesLater
  rw [onFilesLater]
  apply yields_bind (yields_ofResult _)
  intro persisted
  refine yields_bind (yields_revise owner hooks persisted generated) ?_
  rintro ⟨descriptor, content⟩
  exact yields_pure _

theorem keeps_runOn (disk : Disk) (settings : ModuleSettings) (owner : String) (hooks : Hooks)
    (options : RunOptions) :
    Keeps World.files (settings.runOn disk owner hooks { options with isDry := true }) :=
  fun world => (settings.yields_runOn disk owner hooks options world rfl).2

end ModuleSettings

/-! ## Writing the draft -/

theorem run_replaceFileOn (disk : Disk) (path : Path) (content : String) (world : World) :
    (Run.replaceFileOn disk path content).run world =
      ((world.files.replaceThrough disk path content).2,
        { world with files := (world.files.replaceThrough disk path content).1 }) :=
  rfl

theorem replaces_of_gives_replaceFileOn {disk : Disk} {path : Path} {content : String}
    {world after : World} {value : Unit}
    (given : Gives (Run.replaceFileOn disk path content) world value after) :
    FileTree.Replaces path content.toUTF8 world.files after.files ∧ after.calls = world.calls := by
  rw [Gives, run_replaceFileOn] at given
  obtain ⟨done, rfl⟩ := Prod.mk.inj given
  have ended := world.files.replacesOrKeeps_replaceThrough disk path content
  rw [← Prod.eta (world.files.replaceThrough disk path content), done] at ended
  exact ⟨ended, rfl⟩

theorem sameFiles_of_raises_replaceFileOn {disk : Disk} {path : Path} {content : String}
    {world after : World} {failure : Error}
    (raised : Raises (Run.replaceFileOn disk path content) world failure after) :
    (world.files.replaceThrough disk path content).2 = .error failure ∧
      FileTree.SameFiles world.files after.files ∧ after.calls = world.calls := by
  rw [Raises, run_replaceFileOn] at raised
  obtain ⟨failed, rfl⟩ := Prod.mk.inj raised
  have ended := world.files.replacesOrKeeps_replaceThrough disk path content
  rw [← Prod.eta (world.files.replaceThrough disk path content), failed] at ended
  exact ⟨failed, ended, rfl⟩

/-- Writes what a dry run has given to a disk, unless nothing is to be written. -/
def Run.saveOn (disk : Disk) (isDry : Bool) (result : GenerationResult) :
    Run GenerationResult := do
  if !isDry then Run.replaceFileOn disk result.path result.content
  pure result

theorem saveOn_dry (disk : Disk) (result : GenerationResult) :
    Run.saveOn disk true result = pure result :=
  rfl

theorem saveOn_wet (disk : Disk) (result : GenerationResult) :
    Run.saveOn disk false result =
      Run.replaceFileOn disk result.path result.content >>= fun _ => pure result :=
  rfl

theorem run_saveOn (disk : Disk) (result : GenerationResult) (world : World) :
    (Run.saveOn disk false result).run world =
      match world.files.replaceThrough disk result.path result.content with
      | (after, .ok ()) => (.ok result, { world with files := after })
      | (after, .error failure) => (.error failure, { world with files := after }) := by
  rw [saveOn_wet, run_bind, run_replaceFileOn]
  rcases world.files.replaceThrough disk result.path result.content with
    ⟨after, failure | done⟩ <;> rfl

/-- A run on a disk is a dry run whose result is written. -/
theorem ModuleSettings.runOn_eq_saveOn (disk : Disk) (settings : ModuleSettings) (owner : String)
    (hooks : Hooks) (options : RunOptions) :
    settings.runOn disk owner hooks options =
      settings.runOn disk owner hooks { options with isDry := true } >>=
        Run.saveOn disk options.isDry := by
  have ranTasks (layout : Layout) :
      runTasks { options with isDry := true } layout = runTasks options layout := rfl
  unfold runOn Run.saveOn
  cases options.isDry <;> simp [ranTasks, bind_assoc]

/-- How a run ends that has come to a draft, and the files that it leaves. -/
def RunOptions.save (options : RunOptions) (files : FileTree)
    (drafted : Except Error GenerationResult) : Except Error GenerationResult × FileTree :=
  match drafted with
  | .error failure => (.error failure, files)
  | .ok result =>
    if options.isDry then (.ok result, files)
    else
      match files.replace false result.path result.content with
      | (after, .ok ()) => (.ok result, after)
      | (after, .error failure) => (.error failure, after)

theorem RunOptions.save_of_dry {options : RunOptions} (isDry : options.isDry = true)
    (files : FileTree) (drafted : Except Error GenerationResult) :
    options.save files drafted = (drafted, files) := by
  rcases drafted with failure | result
  · rfl
  · simp [save, isDry]

theorem RunOptions.save_of_wet {options : RunOptions} (isWet : options.isDry = false)
    (files : FileTree) (result : GenerationResult) :
    options.save files (.ok result) =
      ((files.replace false result.path result.content).2.map fun _ => result,
        (files.replace false result.path result.content).1) := by
  rcases replaced : files.replace false result.path result.content with ⟨after, failure | done⟩ <;>
    simp [save, isWet, replaced, Except.map]

theorem RunOptions.save_eq_ok_iff {options : RunOptions} {files after : FileTree}
    {drafted : Except Error GenerationResult} {result : GenerationResult} :
    options.save files drafted = (.ok result, after) ↔
      drafted = .ok result ∧
        if options.isDry then after = files
        else files.replace false result.path result.content = (after, .ok ()) := by
  rcases drafted with failure | found
  · simp [save]
  cases isDry : options.isDry with
  | true => simp [save_of_dry isDry, eq_comm]
  | false =>
      rw [save_of_wet isDry, if_neg Bool.false_ne_true]
      constructor
      · intro saved
        obtain ⟨isResult, reached⟩ := Prod.mk.inj saved
        rcases replaced : files.replace false found.path found.content with ⟨made, failure | done⟩
        · rw [replaced] at isResult
          exact nomatch isResult
        · rw [replaced] at isResult reached
          obtain rfl := Except.ok.inj isResult
          exact ⟨rfl, by rw [replaced, ← reached]⟩
      · rintro ⟨isResult, replaced⟩
        obtain rfl := Except.ok.inj isResult
        rw [replaced]
        rfl

/-- A run of a module writes its draft. -/
theorem ModuleSettings.run_eq_save (settings : ModuleSettings) (owner : String) (hooks : Hooks)
    (options : RunOptions) (world : World) :
    (((settings.run owner hooks options).run world).1,
        ((settings.run owner hooks options).run world).2.files) =
      options.save world.files (settings.draftOn hooks options world.files) := by
  obtain ⟨ended, kept⟩ := settings.yields_runOn (.plain false) owner hooks options world rfl
  have plainly : settings.draftOn hooks options world.files = settings.draft hooks options
      world.files.workingDirectory (settings.loadOn (.plain false) world.files) := rfl
  rw [run, runOn_eq_saveOn, run_bind, plainly, ← ended]
  rcases drafted :
      (settings.runOn (.plain false) owner hooks { options with isDry := true }).run world with
    ⟨failure | result, middle⟩
  · rw [drafted] at kept
    exact Prod.ext rfl kept
  · rw [drafted] at kept
    have onMiddle : middle.files = world.files := kept
    cases isDry : options.isDry with
    | true =>
        simp only [saveOn_dry, RunOptions.save, isDry, if_true]
        exact Prod.ext rfl kept
    | false =>
        simp only [run_saveOn, RunOptions.save, isDry, FileTree.replaceThrough_plain, onMiddle]
        rcases world.files.replace false result.path result.content with
          ⟨after, failure | done⟩ <;> rfl

/-! ## Registered callbacks -/

namespace ModuleSettings

/-- What a run for a module makes of a loaded descriptor with the callbacks that are registered
for the module, before it writes anything. -/
def ownDraft (settings : ModuleSettings) (hooks : Keyed String Hooks) (options : RunOptions)
    (start : Path) (loaded : Except Error Descriptor) : Except Error GenerationResult := do
  let found ← Build.hooksOf hooks settings
  settings.draft found options start loaded

/-- The draft of a module over a file tree, with the callbacks that are registered for it. -/
def ownDraftOn (settings : ModuleSettings) (hooks : Keyed String Hooks) (options : RunOptions)
    (files : FileTree) : Except Error GenerationResult :=
  settings.ownDraft hooks options files.workingDirectory
    (Descriptor.load files settings.descriptorPath settings.name)

theorem ownDraftOn_eq (settings : ModuleSettings) (hooks : Keyed String Hooks)
    (options : RunOptions) (files : FileTree) :
    settings.ownDraftOn hooks options files =
      match Build.hooksOf hooks settings with
      | .error failure => .error failure
      | .ok found => settings.draftOn found options files := by
  rw [ownDraftOn, ownDraft]
  rcases Build.hooksOf hooks settings with failure | found
  · rfl
  · rfl

theorem path_of_draft {settings : ModuleSettings} {hooks : Hooks} {options : RunOptions}
    {start : Path} {loaded : Except Error Descriptor} {result : GenerationResult}
    (drafted : settings.draft hooks options start loaded = .ok result) :
    result.path = settings.descriptorPath := by
  simp only [draft, except_bind_eq_ok_iff] at drafted
  obtain ⟨_, _, _, _, _, _, _, _, ended⟩ := drafted
  obtain rfl := Except.ok.inj ended
  rfl

theorem path_of_ownDraft {settings : ModuleSettings} {hooks : Keyed String Hooks}
    {options : RunOptions} {start : Path} {loaded : Except Error Descriptor}
    {result : GenerationResult}
    (drafted : settings.ownDraft hooks options start loaded = .ok result) :
    result.path = settings.descriptorPath := by
  obtain ⟨_, _, isDraft⟩ := except_bind_ok drafted
  exact path_of_draft isDraft

end ModuleSettings

namespace Build

variable {build : Build} {hooks : Keyed String Hooks} {options : Options}
  {settings : ModuleSettings} {world after : World} {result : GenerationResult}

theorem run_runModule (build : Build) (hooks : Keyed String Hooks) (options : Options)
    (settings : ModuleSettings) (world : World) :
    (build.runModule hooks options settings).run world =
      match hooksOf hooks settings with
      | .error failure => (.error failure, world)
      | .ok found =>
        (settings.run settings.name.display found (build.moduleOptions options)).run world := by
  have looked : (Run.ofResult (hooksOf hooks settings)).run world =
      (hooksOf hooks settings, world) := rfl
  rw [runModule, runModuleOn, run_bind, looked]
  rcases hooksOf hooks settings with failure | found
  · rfl
  · rfl

/-- A run of a build for a module writes its draft. -/
theorem runModule_eq_save (build : Build) (hooks : Keyed String Hooks) (options : Options)
    (settings : ModuleSettings) (world : World) :
    (((build.runModule hooks options settings).run world).1,
        ((build.runModule hooks options settings).run world).2.files) =
      (build.moduleOptions options).save world.files
        (settings.ownDraftOn hooks (build.moduleOptions options) world.files) := by
  rcases isFound : hooksOf hooks settings with failure | found
  · have ran : (build.runModule hooks options settings).run world = (.error failure, world) := by
      rw [run_runModule, isFound]
    rw [ran, ModuleSettings.ownDraftOn_eq, isFound]
    rfl
  · have ran : (build.runModule hooks options settings).run world =
        (settings.run settings.name.display found (build.moduleOptions options)).run world := by
      rw [run_runModule, isFound]
    have drafted : settings.ownDraftOn hooks (build.moduleOptions options) world.files =
        settings.draftOn found (build.moduleOptions options) world.files := by
      rw [ModuleSettings.ownDraftOn_eq, isFound]
    rw [ran, drafted]
    exact settings.run_eq_save settings.name.display found (build.moduleOptions options) world

theorem saved_of_gives_runModule
    (given : Gives (build.runModule hooks options settings) world result after) :
    (build.moduleOptions options).save world.files
      (settings.ownDraftOn hooks (build.moduleOptions options) world.files) =
        (.ok result, after.files) := by
  rw [← runModule_eq_save, given]

theorem exists_gives_runModule {files : FileTree}
    (saved : (build.moduleOptions options).save world.files
      (settings.ownDraftOn hooks (build.moduleOptions options) world.files) =
        (.ok result, files)) :
    ∃ after, Gives (build.runModule hooks options settings) world result after ∧
      after.files = files := by
  have ended := (build.runModule_eq_save hooks options settings world).trans saved
  obtain ⟨given, reached⟩ := Prod.mk.inj ended
  exact ⟨_, Prod.ext given rfl, reached⟩

end Build

end IdeModules
