import IdeModules.Proofs.Stopping
import IdeModules.Proofs.Targets

/-!
# Builds that halt

A build that runs its modules one after the other halts at the first of them that raises
an error, or at the list of all modules.  The modules before have been written in full,
and every other file is as it was.  The list is written by a run only that has generated
every module of the build.
-/

namespace IdeModules

/-! ## Files after several results -/

namespace FileTree

variable {before middle after : FileTree}

/-- The content of the file at a place once results have been written one after the other. -/
def fileAfter (tree : FileTree) (results : List GenerationResult) (place : Place) :
    Option ByteArray :=
  results.foldl
    (fun held result =>
      if tree.destination result.path = place then some result.content.toUTF8 else held)
    (tree.fileAt place)

/-- Whether a tree has the files of another one in which results have been written. -/
structure Leaves (results : List GenerationResult) (before after : FileTree) : Prop where
  directory : after.workingDirectory = before.workingDirectory
  files : ∀ place, after.fileAt place = before.fileAfter results place

theorem leaves_nil (same : SameFiles before after) : Leaves [] before after :=
  ⟨same.directory, same.files⟩

theorem leaves_cons {result : GenerationResult} {rest : List GenerationResult}
    (replaced : Replaces result.path result.content.toUTF8 before middle)
    (leaves : Leaves rest middle after) : Leaves (result :: rest) before after where
  directory := leaves.directory.trans replaced.directory
  files place := by
    have sameDestination : middle.destination = before.destination :=
      funext (destination_congr replaced.directory)
    rw [leaves.files, fileAfter, fileAfter, List.foldl_cons, replaced.files, sameDestination]

theorem Leaves.of_sameFiles {results : List GenerationResult}
    (leaves : Leaves results before middle) (same : SameFiles middle after) :
    Leaves results before after where
  directory := same.directory.trans leaves.directory
  files place := (same.files place).trans (leaves.files place)

/-- Results that are written elsewhere leave the file at a place as it is. -/
theorem fileAfter_of_ne {tree : FileTree} {results : List GenerationResult} {place : Place}
    (elsewhere : ∀ result ∈ results, tree.destination result.path ≠ place) :
    tree.fileAfter results place = tree.fileAt place := by
  have kept {held : Option ByteArray} : results.foldl
      (fun held result =>
        if tree.destination result.path = place then some result.content.toUTF8 else held)
      held = held := by
    induction results generalizing held with
    | nil => rfl
    | cons result rest ih =>
        rw [List.foldl_cons, if_neg (elsewhere result List.mem_cons_self)]
        exact ih fun other member => elsewhere other (List.mem_cons_of_mem _ member)
  exact kept

end FileTree

namespace Build

variable {disk : Disk} {build : Build} {hooks : Keyed String Hooks} {options : Options}
  {world after : World} {failure : Error}

/-! ## Modules -/

theorem completed_of_gives_runModuleOn {settings : ModuleSettings} {result : GenerationResult}
    (given : Gives (build.runModuleOn disk hooks options settings) world result after) :
    ∃ found, settings.Completed settings.name.display found (build.moduleOptions options) world
      result after := by
  obtain ⟨found, _, isFound, ran⟩ := gives_bind_iff.mp given
  obtain ⟨_, rfl⟩ := gives_ofResult_iff.mp isFound
  exact ⟨found, ModuleSettings.completed_of_gives_runOn ran⟩

theorem sameFiles_of_raises_runModuleOn {settings : ModuleSettings}
    (raised : Raises (build.runModuleOn disk hooks options settings) world failure after) :
    FileTree.SameFiles world.files after.files := by
  rcases raises_bind_iff.mp raised with unfound | ⟨found, _, isFound, ran⟩
  · obtain ⟨_, rfl⟩ := raises_ofResult_iff.mp unfound
    exact .refl _
  · obtain ⟨_, rfl⟩ := gives_ofResult_iff.mp isFound
    obtain ⟨phase, stopped⟩ := ModuleSettings.stopped_of_raises_runOn ran
    exact stopped.files

theorem path_of_gives_runModuleOn {settings : ModuleSettings} {result : GenerationResult}
    (given : Gives (build.runModuleOn disk hooks options settings) world result after) :
    result.path = settings.descriptorPath := by
  obtain ⟨_, completed⟩ := completed_of_gives_runModuleOn given
  exact completed.path

theorem replaces_of_gives_runModuleOn {settings : ModuleSettings} {result : GenerationResult}
    (isWet : options.isDry = false)
    (given : Gives (build.runModuleOn disk hooks options settings) world result after) :
    FileTree.Replaces result.path result.content.toUTF8 world.files after.files := by
  obtain ⟨_, completed⟩ := completed_of_gives_runModuleOn given
  rw [completed.path]
  exact completed.saved isWet

theorem paths_of_gives_mapM {modules : List ModuleSettings} {results : List GenerationResult}
    (given : Gives (modules.mapM (build.runModuleOn disk hooks options)) world results after) :
    results.map GenerationResult.path = modules.map ModuleSettings.descriptorPath :=
  map_of_gives_mapM (fun _ _ _ _ => path_of_gives_runModuleOn) given

theorem leaves_of_gives_mapM {modules : List ModuleSettings} {results : List GenerationResult}
    (isWet : options.isDry = false)
    (given : Gives (modules.mapM (build.runModuleOn disk hooks options)) world results after) :
    FileTree.Leaves results world.files after.files := by
  induction modules generalizing world results with
  | nil =>
      obtain ⟨rfl, rfl⟩ := gives_pure_iff.mp given
      exact FileTree.leaves_nil (.refl _)
  | cons settings rest ih =>
      obtain ⟨result, others, middle, rfl, first, restGiven⟩ := gives_mapM_cons_iff.mp given
      exact FileTree.leaves_cons (replaces_of_gives_runModuleOn isWet first)
        (ih restGiven)

/-! ## The list of the modules -/

theorem runModulesOn_eq (disk : Disk) (build : Build) (hooks : Keyed String Hooks)
    (options : Options) :
    build.runModulesOn disk hooks options =
      if 1 < options.workers && 1 < (build.selected options.only).length then
        Run.sideBySide (build.runModuleOn disk hooks options) (build.selected options.only)
      else (build.selected options.only).mapM (build.runModuleOn disk hooks options) :=
  rfl

theorem keeps_list_runModuleOn (settings : ModuleSettings) (start : FileTree) :
    Keeps (fun world => world.files.fileAt (build.listPlace start))
      (build.runModuleOn disk hooks options settings) := by
  intro world
  rcases ended : (build.runModuleOn disk hooks options settings).run world with
    ⟨failure | result, after⟩
  · exact (sameFiles_of_raises_runModuleOn ended).files _
  obtain ⟨_, completed⟩ := completed_of_gives_runModuleOn ended
  cases isDry : options.isDry with
  | true => exact congrArg (FileTree.fileAt · (build.listPlace start)) (completed.dry isDry)
  | false =>
      have replaced := (completed.saved isDry).files (build.listPlace start)
      rwa [if_neg (build.destination_ne_listPlace settings _ _)] at replaced

theorem keeps_list_runModulesOn (start : FileTree) :
    Keeps (fun world => world.files.fileAt (build.listPlace start))
      (build.runModulesOn disk hooks options) := by
  rw [runModulesOn_eq]
  split
  · exact keeps_sideBySide (fun settings => keeps_list_runModuleOn settings start) _
  · exact keeps_mapM (fun settings => keeps_list_runModuleOn settings start) _

/-- Modules that are run side by side, or one after the other, give a result for each of them. -/
theorem gives_runModulesOn_iff {results : List GenerationResult} :
    Gives (build.runModulesOn disk hooks options) world results after ↔
      Gives ((build.selected options.only).mapM (build.runModuleOn disk hooks options)) world
        results after := by
  rw [runModulesOn_eq]
  split
  · exact gives_sideBySide_iff
  · exact Iff.rfl

/-- Whether the list of the modules of a build cannot be made or written on a disk. -/
def ListingFails (disk : Disk) (build : Build) (files : FileTree)
    (results : List GenerationResult) (failure : Error) : Prop :=
  build.workspaceTextOn disk files results = .error failure ∨
    ∃ text, build.workspaceTextOn disk files results = .ok text ∧
      (files.replaceThrough disk build.modulesPath text).2 = .error failure

/-- How a build halts on a disk that runs its modules one after the other: the results of the
modules before, the world that they leave, and the error that halts it. -/
structure Halts (disk : Disk) (build : Build) (hooks : Keyed String Hooks) (options : Options)
    (before : World) (results : List GenerationResult) (middle : World) (failure : Error)
    (after : World) : Prop where
  gave : Gives (((build.selected options.only).take results.length).mapM
    (build.runModuleOn disk hooks options)) before results middle
  paths : results.map GenerationResult.path =
    ((build.selected options.only).take results.length).map ModuleSettings.descriptorPath
  files : FileTree.Leaves results before.files after.files
  others : ∀ place, (∀ result ∈ results, before.files.destination result.path ≠ place) →
    after.files.fileAt place = before.files.fileAt place
  list : after.files.fileAt (build.listPlace before.files) =
    before.files.fileAt (build.listPlace before.files)
  cause : (∃ settings, (build.selected options.only)[results.length]? = some settings ∧
      Raises (build.runModuleOn disk hooks options settings) middle failure after) ∨
    (build.selected options.only).length = results.length ∧ options.only = [] ∧
      build.ListingFails disk middle.files results failure

/-! ## The list of a run -/

theorem listOn_eq_pure {results : List GenerationResult}
    (unlisted : (!options.isDry && options.only.isEmpty) = false) :
    build.listOn disk options results = pure () := by
  rw [listOn, unlisted]
  rfl

theorem fails_of_raises_listOn {results : List GenerationResult}
    (raised : Raises (build.listOn disk options results) world failure after) :
    options.only = [] ∧ build.ListingFails disk world.files results failure ∧
      FileTree.SameFiles world.files after.files := by
  cases lists : !options.isDry && options.only.isEmpty with
  | false =>
      rw [listOn_eq_pure lists] at raised
      exact absurd raised (not_raises_pure _)
  | true =>
      have isAll : options.only = [] := by simpa using (Bool.and_eq_true_iff.mp lists).2
      unfold listOn at raised
      rw [if_pos lists] at raised
      simp only [raises_bind_iff, gives_get_iff, raises_ofResult_iff, gives_ofResult_iff] at raised
      rcases raised with isGet | ⟨_, _, ⟨rfl, rfl⟩, raised⟩
      · exact absurd isGet not_raises_get
      rcases raised with ⟨noText, rfl⟩ | ⟨text, _, ⟨isText, rfl⟩, notReplaced⟩
      · exact ⟨isAll, .inl noText, .refl _⟩
      · obtain ⟨failed, sameFiles, _⟩ := sameFiles_of_raises_replaceFileOn notReplaced
        exact ⟨isAll, .inr ⟨text, isText, failed⟩, sameFiles⟩

/-! ## Builds -/

theorem Halts.of_sameFiles {results : List GenerationResult} {middle : World}
    (isWet : options.isDry = false)
    (gave : Gives (((build.selected options.only).take results.length).mapM
      (build.runModuleOn disk hooks options)) world results middle)
    (same : FileTree.SameFiles middle.files after.files)
    (cause : (∃ settings, (build.selected options.only)[results.length]? = some settings ∧
        Raises (build.runModuleOn disk hooks options settings) middle failure after) ∨
      (build.selected options.only).length = results.length ∧ options.only = [] ∧
        build.ListingFails disk middle.files results failure) :
    build.Halts disk hooks options world results middle failure after where
  gave := gave
  paths := paths_of_gives_mapM gave
  files := (leaves_of_gives_mapM isWet gave).of_sameFiles same
  others place elsewhere := by
    rw [same.files, (leaves_of_gives_mapM isWet gave).files,
      FileTree.fileAfter_of_ne elsewhere]
  list := (same.files _).trans ((keeps_mapM (keeps_list_runModuleOn · _) _).of_gives gave)
  cause := cause

/-- A build that runs its modules one after the other halts at one of them or at their list. -/
theorem exists_halts (sequential : options.workers = 1) (isWet : options.isDry = false)
    (raised : Raises (build.runOn disk hooks options) world failure after) :
    ∃ results middle, build.Halts disk hooks options world results middle failure after := by
  have inOrder : build.runModulesOn disk hooks options =
      (build.selected options.only).mapM (build.runModuleOn disk hooks options) := by
    rw [runModulesOn_eq, sequential]
    rfl
  rw [runOn, inOrder] at raised
  rcases raises_bind_iff.mp raised with inModules | ⟨results, middle, given, later⟩
  · obtain ⟨results, middle, settings, isThere, gave, stops⟩ := exists_of_raises_mapM inModules
    exact ⟨results, middle, .of_sameFiles isWet gave (sameFiles_of_raises_runModuleOn stops)
      (.inl ⟨settings, isThere, stops⟩)⟩
  rcases raises_bind_iff.mp later with unlisted | ⟨_, _, _, ended⟩
  · obtain ⟨isAll, fails, same⟩ := fails_of_raises_listOn unlisted
    have count : (build.selected options.only).length = results.length := by
      simpa using (congrArg List.length (paths_of_gives_mapM given)).symm
    rw [← List.take_length (l := build.selected options.only), count] at given
    exact ⟨results, middle, .of_sameFiles isWet given same (.inr ⟨count, isAll, fails⟩)⟩
  · exact absurd ended (not_raises_pure _)

/-- A run that changes the list of the modules has come to its end, and every module of the build
has given a result. -/
theorem gives_of_list_changed
    (changed : ((build.runOn disk hooks options).run world).2.files.fileAt
        (build.listPlace world.files) ≠ world.files.fileAt (build.listPlace world.files)) :
    options.only = [] ∧ options.isDry = false ∧ ∃ results middle after,
      Gives (build.modules.mapM (build.runModuleOn disk hooks options)) world results middle ∧
        Gives (build.runOn disk hooks options) world results after := by
  have keeps : Keeps (fun reached => reached.files.fileAt (build.listPlace world.files))
      (build.runModulesOn disk hooks options) := keeps_list_runModulesOn world.files
  rcases ended : (build.runOn disk hooks options).run world with ⟨failure | results, after⟩
  · -- An error has kept the list.
    rw [ended] at changed
    rcases raises_bind_iff.mp ended with inModules | ⟨results, middle, given, later⟩
    · exact absurd (keeps.of_raises inModules) changed
    rcases raises_bind_iff.mp later with unlisted | ⟨_, _, _, done⟩
    · obtain ⟨_, _, same⟩ := fails_of_raises_listOn unlisted
      exact absurd ((same.files _).trans (keeps.of_gives given)) changed
    · exact absurd done (not_raises_pure _)
  · rw [ended] at changed
    obtain ⟨values, middle, given, later⟩ := gives_bind_iff.mp ended
    obtain ⟨_, reached, listed, done⟩ := gives_bind_iff.mp later
    obtain ⟨rfl, rfl⟩ := gives_pure_iff.mp done
    cases lists : !options.isDry && options.only.isEmpty with
    | false =>
        rw [listOn_eq_pure lists] at listed
        obtain ⟨_, rfl⟩ := gives_pure_iff.mp listed
        exact absurd (keeps.of_gives given) changed
    | true =>
        obtain ⟨isWet, isAll⟩ := Bool.and_eq_true_iff.mp lists
        have noneLeftOut : options.only = [] := by simpa using isAll
        have inOrder := gives_runModulesOn_iff.mp given
        rw [noneLeftOut] at inOrder
        exact ⟨noneLeftOut, by simpa using isWet, results, middle, _, inOrder, ended⟩

/-- On every disk a build that runs its modules one after the other halts at the first of them
that raises an error, or at their list, with the error that is raised there.  The results before
have been written, and every other file is as it was.  However the modules are run, their list
is written only if every module of the build has given a result.  The run of a build that
names no disk is among these runs. -/
theorem halts_cleanly (disk : Disk) (build : Build) (hooks : Keyed String Hooks)
    (options : Options) (world : World) :
    build.runOn (.plain false) hooks options = build.run hooks options ∧
      (options.workers = 1 → options.isDry = false → ∀ failure after,
        Raises (build.runOn disk hooks options) world failure after →
          ∃ results middle, build.Halts disk hooks options world results middle failure after) ∧
      (((build.runOn disk hooks options).run world).2.files.fileAt
          (build.listPlace world.files) ≠ world.files.fileAt (build.listPlace world.files) →
        options.only = [] ∧ options.isDry = false ∧ ∃ results middle after,
          Gives (build.modules.mapM (build.runModuleOn disk hooks options)) world results middle ∧
            Gives (build.runOn disk hooks options) world results after) := by
  refine ⟨rfl, ?_, gives_of_list_changed⟩
  intro sequential isWet _ _
  exact exists_halts sequential isWet

/-! ## A pair of modules -/

/-- A module that says no more than its name and its directory. -/
def pairModule (name : String) : ModuleSettings :=
  { ModuleSettings.ofNameAndDirectory (.str name) (Path.workspace.below name) with
    javaPlugin := .bool false }

def pairBuild : Build := ⟨Path.workspace, [pairModule "a", pairModule "b"], none, ∅⟩

def pairFiles : FileTree where
  workingDirectory := Path.workspace
  entries := [(["ws"], .directory), (["ws", "a"], .directory), (["ws", "b"], .directory)]
  rooted := by decide
  starts := by decide

/-- A module without a descriptor has a draft on every file tree. -/
theorem exists_pairDraft (name : String) (options : RunOptions) (files : FileTree)
    (isNew : files.contains (pairModule name).descriptorPath = false) :
    ∃ result, (pairModule name).draftOn Hooks.none options files = .ok result ∧
      result.path = (pairModule name).descriptorPath := by
  obtain ⟨layout, laidOut⟩ :
      ∃ layout, (pairModule name).layout ((pairModule name).anchorsOn files options) =
        .ok layout := ⟨_, rfl⟩
  obtain ⟨⟨generated, lines⟩, made⟩ :
      ∃ made, Descriptor.generate (pairModule name) ((pairModule name).anchorsOn files options)
        options.context layout = .ok made := ⟨_, rfl⟩
  obtain ⟨persisted, loaded⟩ :
      ∃ persisted, Descriptor.load files (pairModule name).descriptorPath (pairModule name).name =
        .ok persisted := by
    rw [Descriptor.load, isNew, if_neg Bool.false_ne_true, Descriptor.template, Descriptor.ofText,
      readDocument_templateText]
    exact ⟨_, if_pos rfl⟩
  exact ModuleSettings.exists_draft (.inl rfl) laidOut made loaded

/-- A callback of the second module stops the build. -/
def pairHooks : Keyed String Hooks := [("b", ⟨[fun _ => .error .notText], [], []⟩)]

def pairOptions : Options := ⟨[], false, false, 1⟩

/-- A module of the pair without callbacks is run wherever its descriptor can be written. -/
theorem exists_gives_pairModule {hooks : Keyed String Hooks} {options : Options} {name : String}
    {written : String → FileTree} (found : hooksOf hooks (pairModule name) = .ok Hooks.none)
    (isWet : options.isDry = false)
    (isNew : world.files.contains (pairModule name).descriptorPath = false)
    (replaced : ∀ content, world.files.replace false (pairModule name).descriptorPath content =
      (written content, .ok ())) :
    ∃ result after, Gives (pairBuild.runModule hooks options (pairModule name)) world result after ∧
      result.path = (pairModule name).descriptorPath ∧ after.files = written result.content := by
  obtain ⟨result, drafted, path⟩ := exists_pairDraft name (pairBuild.moduleOptions options)
    world.files isNew
  have isOwn : (pairModule name).ownDraftOn hooks (pairBuild.moduleOptions options) world.files =
      .ok result := by
    rw [ModuleSettings.ownDraftOn_eq, found]
    exact drafted
  have saved : (pairBuild.moduleOptions options).save world.files
      ((pairModule name).ownDraftOn hooks (pairBuild.moduleOptions options) world.files) =
        (.ok result, written result.content) := by
    refine RunOptions.save_eq_ok_iff.mpr ⟨isOwn, ?_⟩
    rw [if_neg (by simp [moduleOptions, isWet]), path]
    exact replaced result.content
  obtain ⟨after, given, reached⟩ := exists_gives_runModule saved
  exact ⟨result, after, given, path, reached⟩

theorem descriptorPath_pair :
    (pairModule "a").descriptorPath = ⟨.single, ["ws", "a", "a.iml"], by decide⟩ ∧
      (pairModule "b").descriptorPath = ⟨.single, ["ws", "b", "b.iml"], by decide⟩ := by
  decide +kernel

def pairFilesAfter (content : String) : FileTree :=
  pairFiles.put ["ws", "a", "a.iml"] (.file content.toUTF8)

theorem replace_pairFiles (content : String) :
    pairFiles.replace false (pairModule "a").descriptorPath content =
      (pairFilesAfter content, .ok ()) := by
  rw [descriptorPath_pair.1]
  rfl

theorem exists_gives_firstModule {hooks : Keyed String Hooks} {options : Options}
    (found : hooksOf hooks (pairModule "a") = .ok Hooks.none) (isWet : options.isDry = false) :
    ∃ result after, Gives (pairBuild.runModule hooks options (pairModule "a"))
        (World.ofFiles pairFiles) result after ∧
      result.path = (pairModule "a").descriptorPath ∧
      after.files = pairFilesAfter result.content := by
  have isNew :
      (World.ofFiles pairFiles).files.contains (pairModule "a").descriptorPath = false := by
    rw [descriptorPath_pair.1]
    rfl
  exact exists_gives_pairModule found isWet isNew replace_pairFiles

theorem not_gives_pairModule {result : GenerationResult} :
    ¬Gives (pairBuild.runModuleOn (.plain false) pairHooks pairOptions (pairModule "b")) world
      result after := by
  intro given
  have drafted := (RunOptions.save_eq_ok_iff.mp (saved_of_gives_runModule given)).1
  have found : hooksOf pairHooks (pairModule "b") =
    .ok ⟨[fun _ => .error .notText], [], []⟩ := rfl
  rw [ModuleSettings.ownDraftOn_eq, found] at drafted
  simp only [ModuleSettings.draftOn, ModuleSettings.draft, except_bind_eq_ok_iff,
    Hooks.revision] at drafted
  obtain ⟨_, _, _, _, persisted, _, _, ⟨_, stopped, _⟩, _⟩ := drafted
  cases stopped

theorem not_gives_pairModules {rest : List ModuleSettings} {results : List GenerationResult} :
    ¬Gives ((pairModule "a" :: pairModule "b" :: rest).mapM
      (pairBuild.runModuleOn (.plain false) pairHooks pairOptions)) world results after := by
  intro given
  obtain ⟨_, _, _, _, _, later⟩ := gives_mapM_cons_iff.mp given
  obtain ⟨_, _, _, _, second, _⟩ := gives_mapM_cons_iff.mp later
  exact not_gives_pairModule second

theorem pair_halts_after_first : ∃ result middle failure after,
    Raises (pairBuild.runOn (.plain false) pairHooks pairOptions) (World.ofFiles pairFiles)
        failure after ∧
      pairBuild.Halts (.plain false) pairHooks pairOptions (World.ofFiles pairFiles) [result]
        middle failure after := by
  rcases ended : (pairBuild.runOn (.plain false) pairHooks pairOptions).run
    (World.ofFiles pairFiles) with ⟨failure | results, after⟩
  · obtain ⟨results, middle, halts⟩ := (halts_cleanly (.plain false) pairBuild pairHooks
      pairOptions (World.ofFiles pairFiles)).2.1 rfl rfl failure after ended
    match results, halts with
    | [], halts =>
      -- The first module gives a result.
      obtain ⟨_, rfl⟩ := gives_pure_iff.mp halts.gave
      rcases halts.cause with ⟨settings, isThere, raised⟩ | ⟨count, _, _⟩
      · obtain rfl := Option.some.inj isThere
        have isWet : pairOptions.isDry = false := rfl
        have found : hooksOf pairHooks (pairModule "a") = .ok Hooks.none := rfl
        obtain ⟨_, _, given, _⟩ := exists_gives_firstModule found isWet
        exact nomatch congrArg Prod.fst (given.symm.trans raised)
      · exact nomatch count
    | [result], halts => exact ⟨result, middle, failure, after, ended, halts⟩
    | _ :: _ :: _, halts => exact absurd halts.gave not_gives_pairModules
  · obtain ⟨_, _, given, _⟩ := gives_bind_iff.mp ended
    exact absurd (gives_runModulesOn_iff.mp given) not_gives_pairModules

end Build

end IdeModules
