import IdeModules.Proofs.Drafts
import IdeModules.Proofs.Remembering

/-!
# Callbacks before the merge

Callbacks that run before the merge are given the persisted descriptor.  The
merge replaces all of its state but the excluded folders, and keeps the tree; so
callbacks that leave the tree alone reach no more than the excluded folders of
what is written.
-/

namespace IdeModules

open Xml

/-! ## Callbacks that leave the tree alone -/

/-- Whether a callback changes nothing but the state beside the tree of a descriptor. -/
def Callback.KeepsTree (callback : Callback Descriptor) : Prop :=
  ∀ given changed, callback given = .ok changed → changed.tree = given.tree

theorem tree_of_passThrough {callbacks : List (Callback Descriptor)} {given left : Descriptor}
    (keep : ∀ callback ∈ callbacks, Callback.KeepsTree callback)
    (passed : passThrough callbacks given = .ok left) : left.tree = given.tree := by
  induction callbacks generalizing given with
  | nil =>
      obtain rfl := Except.ok.inj passed
      rfl
  | cons callback rest ih =>
      rw [List.forall_mem_cons] at keep
      obtain ⟨changed, called, others⟩ := except_bind_ok passed
      exact (ih keep.2 others).trans (keep.1 given changed called)

theorem Edit.tree_apply {edit : Edit} {given changed : Descriptor}
    (applied : edit.apply given = .ok changed) : changed.tree = given.tree := by
  cases edit with
  | addSource folder =>
      simp only [Edit.apply] at applied
      split at applied
      · exact nomatch applied
      · obtain rfl := Except.ok.inj applied
        rfl
  | fail text => exact nomatch applied
  | _ =>
      obtain rfl := Except.ok.inj applied
      rfl

/-- Edits of a descriptor leave its tree alone. -/
theorem Callback.keepsTree_ofEdits (edits : List Edit) :
    Callback.KeepsTree (Callback.ofEdits edits) := by
  induction edits with
  | nil =>
      intro given changed called
      obtain rfl := Except.ok.inj called
      rfl
  | cons edit rest ih =>
      intro given changed called
      obtain ⟨edited, applied, others⟩ := except_bind_ok called
      exact (ih edited changed others).trans (Edit.tree_apply applied)

/-! ## Merging a prepared descriptor -/

/-- A prepared descriptor is merged like the persisted one, but for its excluded folders. -/
theorem Descriptor.merge_eq_withExcludes {persisted left generated : Descriptor}
    {content : ContentRoot} (sameTree : left.tree = persisted.tree)
    (isRoot : generated.root = some content) :
    left.merge generated = (persisted.merge generated).withExcludes
      (Descriptor.mergedExcludes left.excludes content.excludedFolders) := by
  have roots : (left.merge generated).root = ((persisted.merge generated).withExcludes
      (Descriptor.mergedExcludes left.excludes content.excludedFolders)).root := by
    rw [root_merge isRoot, root_withExcludes _ (root_merge isRoot)]
  have parts : left.merge generated =
      { generated with root := (left.merge generated).root, tree := left.tree } := rfl
  have others : (persisted.merge generated).withExcludes
        (Descriptor.mergedExcludes left.excludes content.excludedFolders) =
      { generated with
        root := ((persisted.merge generated).withExcludes
          (Descriptor.mergedExcludes left.excludes content.excludedFolders)).root
        tree := persisted.tree } := rfl
  rw [parts, others, roots, sameTree]

theorem Descriptor.firstExcludes_writeTo_merge {generated : Descriptor} {content : ContentRoot}
    (isRoot : generated.root = some content) (left : Descriptor) (root : Element) :
    firstExcludes ((left.merge generated).writeTo root).indent =
      mergedExcludes left.excludes content.excludedFolders := by
  rw [firstExcludes_of_same (Element.change_indent_withoutTexts _),
    firstExcludes_writeTo _ (root_merge isRoot)]

/-- Whether a result is about a written tree, with its document for a text. -/
structure GenerationResult.Shows (result : GenerationResult) (tree : Element) : Prop where
  isTree : result.descriptor.tree = some tree
  isText : result.content = document tree

namespace ModuleSettings

variable {settings : ModuleSettings} {options : RunOptions} {owner : String} {hooks : Hooks}
  {callbacks : List (Callback Descriptor)} {world after : World} {result : GenerationResult}

theorem saved_of_gives_run (given : Gives (settings.run owner hooks options) world result after) :
    options.save world.files (settings.draftOn hooks options world.files) =
      (.ok result, after.files) := by
  rw [← run_eq_save settings owner, given]

/-- The result of a run that merges what it has generated into a prepared descriptor. -/
def Steps.resultOf {before files : FileTree} (steps : settings.Steps options before files)
    (left : Descriptor) (root : Element) : GenerationResult where
  path := settings.descriptorPath
  descriptor := { left.merge steps.generated with
    tree := some ((left.merge steps.generated).writeTo root).indent }
  content := document ((left.merge steps.generated).writeTo root).indent
  diagnostics := steps.lines
  executedTasks := if options.runsTasks then steps.layout.tasks else []

theorem Steps.shows_resultOf {before files : FileTree} (steps : settings.Steps options before files)
    (left : Descriptor) (root : Element) :
    (steps.resultOf left root).Shows ((left.merge steps.generated).writeTo root).indent where
  isTree := rfl
  isText := rfl

/-- A run with callbacks before the merge takes the steps of one without them, but for the
descriptor that the callbacks leave. -/
theorem exists_prepared {files : FileTree} (steps : settings.Steps options world.files files)
    (keep : ∀ callback ∈ callbacks, Callback.KeepsTree callback)
    {root : Element} (isTree : steps.persisted.tree = some root)
    (given : Gives (settings.run owner ⟨callbacks, [], []⟩ options) world result after) :
    ∃ left, passThrough callbacks steps.persisted = .ok left ∧
      result = steps.resultOf left root := by
  obtain ⟨drafted, _⟩ := RunOptions.save_eq_ok_iff.mp (saved_of_gives_run given)
  simp only [draftOn, draft, Hooks.revision, except_bind_eq_ok_iff] at drafted
  obtain ⟨layout, laidOut, made, isMade, persisted, loaded, _,
    ⟨left, passed, merged, isMerged, written, isWritten, edited, isEdited, content, serialized,
      revised⟩, ended⟩ := drafted
  obtain rfl := Except.ok.inj isMerged
  obtain rfl := Except.ok.inj isEdited
  obtain rfl := Except.ok.inj revised
  obtain rfl := Except.ok.inj (steps.laidOut.symm.trans laidOut)
  obtain rfl := Except.ok.inj (steps.made.symm.trans isMade)
  obtain rfl := Except.ok.inj (steps.loaded.symm.trans loaded)
  have mergedTree : (left.merge steps.generated).tree = some root :=
    (tree_of_passThrough keep passed).trans isTree
  rw [Descriptor.writtenTree, Descriptor.startingTree, mergedTree] at isWritten
  obtain rfl := Except.ok.inj isWritten
  obtain ⟨_, rfl⟩ := Descriptor.serialize_eq_ok_iff.mp serialized
  exact ⟨left, passed, (Except.ok.inj ended).symm⟩

/-- With callbacks before the merge only, a revision writes what these leave, once merged. -/
theorem revision_of_passed {persisted left generated : Descriptor} {root : Element}
    {content : String}
    (passed : passThrough callbacks persisted = .ok left)
    (mergedTree : (left.merge generated).tree = some root)
    (serialized : serialize ((left.merge generated).writeTo root).indent = .ok content) :
    Hooks.revision ⟨callbacks, [], []⟩ persisted generated =
      .ok ({ left.merge generated with tree := some ((left.merge generated).writeTo root).indent },
        content) := by
  have written : (left.merge generated).writtenTree =
      .ok ((left.merge generated).writeTo root) := by
    rw [Descriptor.writtenTree, Descriptor.startingTree, mergedTree]
    rfl
  simp only [Hooks.revision, except_bind_eq_ok_iff]
  exact ⟨left, passed, _, rfl, _, written, _, rfl, content, serialized, rfl⟩

/-- Where a run without callbacks succeeds, so does one with callbacks before the merge that leave
the tree alone and do not stop. -/
theorem Steps.exists_gives_prepared {files : FileTree}
    (steps : settings.Steps options world.files files)
    (keep : ∀ callback ∈ callbacks, Callback.KeepsTree callback) {left : Descriptor}
    {root : Element} (starts : StartsFrom world.files settings.descriptorPath root)
    (passed : passThrough callbacks steps.persisted = .ok left) (owner : String) :
    ∃ result after, Gives (settings.run owner ⟨callbacks, [], []⟩ options) world result after := by
  obtain ⟨name, isOf⟩ := steps.persisted_eq starts
  have mergedTree : (left.merge steps.generated).tree = some root := by
    refine (tree_of_passThrough keep passed).trans ?_
    rw [isOf]
    exact Descriptor.tree_ofElement name root
  -- Whether a development kit can be written is not up to the callbacks.
  have isWritten := Descriptor.isWritten_of_writable
    (Descriptor.serialize_eq_ok_iff.mp (steps.serialized isOf)).1
  have sameJdk : steps.merged.jdkName = (left.merge steps.generated).jdkName := rfl
  rw [sameJdk] at isWritten
  have serialized : serialize ((left.merge steps.generated).writeTo root).indent =
      .ok (document ((left.merge steps.generated).writeTo root).indent) :=
    if_pos (Descriptor.writable_of_isWritten isWritten starts.accepted.ofBoth.1)
  have drafted := draftOn_eq_ok steps.laidOut steps.made steps.loaded
    (revision_of_passed passed mergedTree serialized)
  obtain ⟨after, dry, saved⟩ := FileTree.exists_dry_or_saved fun isWet =>
    FileTree.exists_replace (steps.saved isWet) (steps.resultOf left root).content
  have isSaved : options.save world.files (.ok (steps.resultOf left root)) =
      (.ok (steps.resultOf left root), after) := by
    refine RunOptions.save_eq_ok_iff.mpr ⟨rfl, ?_⟩
    split
    · rename_i isDry
      exact dry isDry
    · rename_i isWet
      exact saved (Bool.eq_false_iff.mpr isWet)
  have ended := (settings.run_eq_save owner ⟨callbacks, [], []⟩ options world).trans
    ((congrArg (options.save world.files) drafted).trans isSaved)
  exact ⟨_, _, Prod.ext (Prod.mk.inj ended).1 rfl⟩

theorem replace_of_gives_run (isWet : options.isDry = false)
    (given : Gives (settings.run owner hooks options) world result after) :
    world.files.replace false settings.descriptorPath result.content = (after.files, .ok ()) := by
  obtain ⟨drafted, saved⟩ := RunOptions.save_eq_ok_iff.mp (saved_of_gives_run given)
  rwa [isWet, if_neg Bool.false_ne_true, path_of_draft drafted] at saved

theorem find?_of_gives_run (isWet : options.isDry = false)
    (given : Gives (settings.run owner hooks options) world result after) :
    after.files.find? settings.descriptorPath = some (.file result.content.toUTF8) :=
  (FileTree.find?_replace (replace_of_gives_run isWet given)).1

/-- Callbacks before the merge that leave the tree alone reach the excluded folders only.  The run
with them writes the tree that the run without them writes, but for its excluded folders: these are
the ones that the callbacks leave, before the generated ones that are not among them.  The run
without callbacks writes the ones of the file before the generated ones, each of them once. -/
theorem callbacks_before_reach_excludes_only {hooked plain : GenerationResult}
    {hookedAfter plainAfter : World} (keep : ∀ callback ∈ callbacks, Callback.KeepsTree callback)
    (withCallbacks : Gives (settings.run owner ⟨callbacks, [], []⟩ options) world hooked
      hookedAfter)
    (without : Gives (settings.run owner Hooks.none options) world plain plainAfter) :
    let generated := settings.excludedFolders (settings.anchorsOn world.files options)
    let remembered := distinct
      (persistedExcludes world.files settings.descriptorPath ++ generated)
    ∃ persisted left bare,
      Descriptor.load world.files settings.descriptorPath settings.name = .ok persisted ∧
      passThrough callbacks persisted = .ok left ∧
      let gathered := Descriptor.mergedExcludes left.excludes generated
      plain.Shows bare.indent ∧ firstExcludes bare.indent = remembered ∧
      hooked.Shows (withExcludes gathered bare).indent ∧
      firstExcludes (withExcludes gathered bare).indent = gathered ∧
      (left.excludes = [] → gathered = generated) ∧
      hooked.descriptor.withoutTree = (plain.descriptor.withExcludes gathered).withoutTree ∧
      hooked = { plain with descriptor := hooked.descriptor, content := hooked.content } ∧
      (options.isDry = false →
        hookedAfter.files.find? settings.descriptorPath =
            some (.file hooked.content.toUTF8) ∧
          plainAfter.files.find? settings.descriptorPath =
            some (.file plain.content.toUTF8)) := by
  intro generated remembered
  obtain ⟨steps, _⟩ := exists_steps without
  obtain ⟨root, starts⟩ := exists_startsFrom steps.loaded
  obtain ⟨name, isOf⟩ := steps.persisted_eq starts
  have isTree : steps.persisted.tree = some root := by
    rw [isOf]
    exact Descriptor.tree_ofElement name root
  have keepNone : ∀ callback ∈ ([] : List (Callback Descriptor)), callback.KeepsTree := nofun
  obtain ⟨_, passedNone, rfl⟩ := exists_prepared steps keepNone isTree without
  obtain rfl := Except.ok.inj passedNone
  obtain ⟨left, passed, rfl⟩ := exists_prepared steps keep isTree withCallbacks
  obtain ⟨isRoot, _, nodup⟩ := steps.generated_cases
  have isGenerated : steps.layout.root.excludedFolders = generated :=
    steps.excludedFolders_layout
  let gathered := Descriptor.mergedExcludes left.excludes generated
  have sameMerge : left.merge steps.generated =
      (steps.persisted.merge steps.generated).withExcludes gathered := by
    rw [Descriptor.merge_eq_withExcludes (tree_of_passThrough keep passed) isRoot, isGenerated]
  have sameTree : (left.merge steps.generated).writeTo root =
      withExcludes gathered ((steps.persisted.merge steps.generated).writeTo root) := by
    rw [Descriptor.withExcludes_writeTo _ (Descriptor.root_merge isRoot), sameMerge]
  refine ⟨steps.persisted, left, (steps.persisted.merge steps.generated).writeTo root,
    steps.loaded, passed, steps.shows_resultOf _ root, ?_, ?_, ?_, ?_, ?_, rfl, fun isWet =>
      ⟨find?_of_gives_run isWet withCallbacks, find?_of_gives_run isWet without⟩⟩
  · rw [Descriptor.firstExcludes_writeTo_merge isRoot, isOf, excludes_ofElement_distinct,
      Descriptor.mergedExcludes_eq_distinct nodup, isGenerated, ← persistedExcludes_eq starts]
  · rw [← sameTree]
    exact steps.shows_resultOf left root
  · rw [← sameTree, Descriptor.firstExcludes_writeTo_merge isRoot, isGenerated]
  · intro cleared
    simp [cleared, Descriptor.mergedExcludes]
  · show (left.merge steps.generated).withoutTree = _
    rw [sameMerge]
    rfl

/-- A descriptor with an excluded folder of its own. -/
def excludingText : String :=
  "<module><component name=\"NewModuleRootManager\"><content url=\"u\">" ++
    "<excludeFolder url=\"x\"/></content></component></module>"

def excludingRoot : Element :=
  let content := (Element.make "content" [("url", "u")]).withChildren
    [excludedFolderElement "x"]
  (Element.make "module" []).withChildren
    [(Element.make "component" [("name", rootManager)]).withChildren [content]]

theorem readDocument_excluding : readDocument true excludingText = .ok excludingRoot := by
  rw [readDocument_eq_readChars]
  decide +kernel

def excludingWorld : World :=
  World.ofFiles (dependentFiles excludingText)

theorem persistedExcludes_excluding : persistedExcludes excludingWorld.files
    (dependentSettings (.str "17") (some "1")).descriptorPath = ["x"] := by
  have found : treeIn excludingWorld.files
      (dependentSettings (.str "17") (some "1")).descriptorPath = some excludingRoot := by
    rw [descriptorPath_dependent]
    exact treeIn_dependentFiles readDocument_excluding rfl
  rw [persistedExcludes, found]
  decide +kernel

theorem excludedFolders_excluding : (dependentSettings (.str "17") (some "1")).excludedFolders
    ((dependentSettings (.str "17") (some "1")).anchorsOn excludingWorld.files dependentOptions) =
      ["file://$MODULE_DIR$/.gradle", "file://$MODULE_DIR$/build"] := by
  decide +kernel

/-- A callback that clears the excluded folders, and changes the development kit to no end. -/
def clearingCallback : Callback Descriptor :=
  Callback.ofEdits [.clearExcludes, .jdkName (.str "8")]

/-- The excluded folder of a file is written by a run of a dependent module, and not by a run with a
callback that clears it. -/
theorem dependent_callback_reaches_excludes_only :
    ∃ hooked hookedAfter plain plainAfter bare,
      Gives ((dependentSettings (.str "17") (some "1")).run "" ⟨[clearingCallback], [], []⟩
        dependentOptions) excludingWorld hooked hookedAfter ∧
      Gives ((dependentSettings (.str "17") (some "1")).run "" Hooks.none dependentOptions)
        excludingWorld plain plainAfter ∧
      plain.Shows bare.indent ∧
      firstExcludes bare.indent =
        ["x", "file://$MODULE_DIR$/.gradle", "file://$MODULE_DIR$/build"] ∧
      hooked.Shows (withExcludes ["file://$MODULE_DIR$/.gradle", "file://$MODULE_DIR$/build"]
        bare).indent := by
  obtain ⟨plain, plainAfter, without, _⟩ := exists_dependentRun
    (show excludingWorld.files = dependentFiles excludingText from rfl) readDocument_excluding rfl
    (write_plainTree (accepted_of_readDocument readDocument_excluding).ofBoth.1)
  obtain ⟨steps, _⟩ := exists_steps without
  obtain ⟨root, starts⟩ := exists_startsFrom steps.loaded
  have keep : ∀ callback ∈ [clearingCallback], Callback.KeepsTree callback :=
    List.forall_mem_singleton.mpr (Callback.keepsTree_ofEdits _)
  obtain ⟨hooked, hookedAfter, withCallback⟩ :=
    steps.exists_gives_prepared keep starts rfl ""
  obtain ⟨persisted, left, bare, _, passed, plainShows, remembered, hookedShows, _, cleared, _⟩ :=
    callbacks_before_reach_excludes_only keep withCallback without
  have isCleared : left.excludes = [] := by
    rw [← Except.ok.inj passed]
    rfl
  rw [excludedFolders_excluding, persistedExcludes_excluding] at remembered
  rw [cleared isCleared, excludedFolders_excluding] at hookedShows
  exact ⟨hooked, hookedAfter, plain, plainAfter, bare, withCallback, without, plainShows,
    remembered.trans (by decide +kernel), hookedShows⟩

end ModuleSettings

end IdeModules
