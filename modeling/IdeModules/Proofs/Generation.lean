import IdeModules.Generation
import IdeModules.Proofs.Descriptor.Rereading
import IdeModules.Proofs.FileTree
import IdeModules.Proofs.Run

/-!
# Steps of a module's run

A run without callbacks succeeds if each of its steps does: the layout, the
generated descriptor, the persisted one, the text of both, and the file.
-/

namespace IdeModules

open Xml

/-! ## The template -/

def templateRoot : Element :=
  let manager : Element :=
    { Element.make "component"
        [("name", rootManager), ("inherit-compiler-output", "true")] with
      text := "\n    "
      children := [
        Node.ofElement (Element.make "exclude-output" []) "\n    ",
        Node.ofElement (Element.make "orderEntry" [("type", "inheritedJdk")]) "\n    ",
        Node.ofElement (Element.make "content" [("url", "file://$MODULE_DIR$/")]) "\n    ",
        Node.ofElement (Element.make "orderEntry"
          [("type", "sourceFolder"), ("forTests", "false")]) "\n  "] }
  { Element.make "module"
      [("relativePaths", "true"), ("type", "JAVA_MODULE"), ("version", "4")] with
    text := "\n  "
    children := [
      Node.ofElement manager "\n  ",
      Node.ofElement (Element.make "component" [("name", "ModuleRootManager")]) "\n"] }

theorem readDocument_templateText (keepsComments : Bool) :
    readDocument keepsComments templateText = .ok templateRoot := by
  rw [readDocument_eq_readChars]
  unfold templateText
  -- Line by line, since the characters of a long text take long to compute.
  iterate 9 rewrite [String.toList_append]
  revert keepsComments
  decide +kernel

theorem withoutReturns_templateRoot : templateRoot.Meets withoutReturns := by
  simp [templateRoot, Element.meets_iff, meets_ofElement, Element.make, withoutReturns]

/-! ## Loading -/

namespace Descriptor

/-- A loaded descriptor is that of an accepted tree, from its file or from the template. -/
theorem load_eq_ok {files : FileTree} {path : Path} {name : Json.Value} {persisted : Descriptor}
    (loaded : load files path name = .ok persisted) :
    ∃ known root, persisted = ofElement known root ∧ root.Meets accepted ∧
      (readFile files path = .ok persisted ∨ root = templateRoot) := by
  unfold load at loaded
  split at loaded
  · have read := loaded
    unfold readFile at read
    split at read
    · simp at read
    · simp at read
    · obtain ⟨root, isRead, _, isOf⟩ := ofText_eq_ok read
      exact ⟨_, root, isOf, accepted_of_readDocument isRead, .inl loaded⟩
  · obtain ⟨root, isRead, _, isOf⟩ := ofText_eq_ok loaded
    have isTemplate : root = templateRoot :=
      Except.ok.inj (isRead.symm.trans (readDocument_templateText true))
    exact ⟨_, root, isOf, accepted_of_readDocument isRead, .inr isTemplate⟩

theorem readFile_of_find? {files : FileTree} {path : Path} {content : String} {root : Element}
    (found : files.find? path = some (.file content.toUTF8))
    (read : readDocument true content = .ok root) (isModule : root.name = Name.plain "module") :
    readFile files path = .ok (ofElement (.str path.stem) root) := by
  rw [readFile, FileTree.readText_of_find? found]
  simp only [ofText, readDocument_normalized, read]
  exact if_pos isModule

theorem load_of_readFile {files : FileTree} {path : Path} {persisted : Descriptor}
    (read : readFile files path = .ok persisted) (name : Json.Value) :
    load files path name = .ok persisted := by
  have found : files.contains path = true := by
    unfold readFile FileTree.readText at read
    split at read
    · simp at read
    · simp at read
    · rename_i text isText
      split at isText
      · rename_i content isFile
        exact FileTree.contains_of_find? isFile
      · simp at isText
      · simp at isText
  rw [load, if_pos found, read]

end Descriptor

/-! ## Steps -/

namespace ModuleSettings

def anchorsOn (settings : ModuleSettings) (files : FileTree) (options : RunOptions) :
    PathVariables :=
  settings.anchors files.workingDirectory options.shared

/-- A disk that refuses nothing lets every descriptor be loaded. -/
theorem loadOn_plain (settings : ModuleSettings) (files : FileTree) :
    settings.loadOn (.plain false) files =
      Descriptor.load files settings.descriptorPath settings.name :=
  rfl

/-- The steps of a successful run without callbacks, from one file tree to another. -/
structure Steps (settings : ModuleSettings) (options : RunOptions) (before after : FileTree) where
  layout : Layout
  generated : Descriptor
  lines : List String
  persisted : Descriptor
  content : String
  laidOut : settings.layout (settings.anchorsOn before options) = .ok layout
  made : Descriptor.generate settings (settings.anchorsOn before options) options.context layout =
    .ok (generated, lines)
  loaded : Descriptor.load before settings.descriptorPath settings.name = .ok persisted
  written : (persisted.merge generated).write.2 = .ok content
  dry : options.isDry = true → after = before
  saved : options.isDry = false →
    before.replace false settings.descriptorPath content = (after, .ok ())

variable {settings : ModuleSettings} {options : RunOptions} {owner : String}
  {world after : World}

theorem isHarmless_runTasks (options : RunOptions) (layout : Layout) :
    IsHarmless (runTasks options layout) := by
  intro world
  unfold runTasks
  split
  · obtain ⟨_, middle, tasksRun, unchanged⟩ :=
      isHarmless_forM (fun task (_ : task ∈ layout.tasks) => isHarmless_runTask task) world
    exact ⟨_, middle, gives_bind_iff.mpr
      ⟨_, middle, tasksRun, gives_pure_iff.mpr ⟨rfl, rfl⟩⟩, unchanged⟩
  · exact ⟨_, world, gives_pure_iff.mpr ⟨rfl, rfl⟩, rfl⟩

/-- Without callbacks a revision is the merged descriptor with its text. -/
theorem gives_revise_iff {persisted generated : Descriptor} {value : Descriptor × String} :
    Gives (revise owner Hooks.none persisted generated) world value after ↔
      (persisted.merge generated).write = (value.1, .ok value.2) ∧ after = world := by
  simp only [revise, Hooks.none, gives_bind_iff, gives_callBack_nil_iff, gives_ofResult_iff,
    gives_pure_iff]
  unfold Descriptor.write
  constructor
  · rintro ⟨_, _, ⟨rfl, rfl⟩, _, _, ⟨rfl, rfl⟩, tree, _, ⟨isTree, rfl⟩, _, _, ⟨rfl, rfl⟩,
      content, _, ⟨serialized, rfl⟩, rfl, rfl⟩
    rw [isTree]
    simp only [serialized, and_self]
  · rintro ⟨written, rfl⟩
    split at written
    · simp at written
    · rename_i tree isTree
      obtain ⟨isMerged, serialized⟩ := Prod.mk.inj written
      exact ⟨_, _, ⟨rfl, rfl⟩, _, _, ⟨rfl, rfl⟩, tree, _, ⟨isTree, rfl⟩, _, _, ⟨rfl, rfl⟩,
        value.2, _, ⟨serialized, rfl⟩, Prod.ext isMerged.symm rfl, rfl⟩

theorem isHarmless_reportLines (lines : List String) :
    IsHarmless (lines.forM Run.reportLine) :=
  isHarmless_forM fun line _ => isHarmless_reportLine line

/-- A successful run without callbacks takes its steps, and tells the descriptor that it wrote. -/
theorem exists_steps_descriptor {result : GenerationResult}
    (done : Gives (settings.run owner Hooks.none options) world result after) :
    ∃ steps : settings.Steps options world.files after.files,
      steps.content = result.content ∧
        (steps.persisted.merge steps.generated).write.1 = result.descriptor := by
  unfold ModuleSettings.run runOn at done
  simp only [gives_bind_iff, gives_get_iff, gives_ofResult_iff, gives_revise_iff] at done
  obtain ⟨_, _, ⟨rfl, rfl⟩, layout, _, ⟨laidOut, rfl⟩, tasks, ran, tasksRun, ⟨generated, lines⟩,
    _, ⟨made, rfl⟩, _, told, reported, _, _, ⟨rfl, rfl⟩, persisted, _, ⟨loaded, rfl⟩,
    ⟨descriptor, content⟩, _, ⟨written, rfl⟩, ended⟩ := done
  have unchanged := ((isHarmless_reportLines lines).files_eq reported).trans
    ((isHarmless_runTasks options layout).files_eq tasksRun)
  rw [loadOn_plain, unchanged] at loaded
  by_cases isDry : options.isDry = true
  · rw [if_neg (by simp [isDry])] at ended
    obtain ⟨rfl, rfl⟩ := gives_pure_iff.mp ended
    exact ⟨⟨layout, generated, lines, persisted, content, laidOut, made, loaded,
      congrArg Prod.snd written, fun _ => unchanged, fun isWet => by simp [isDry] at isWet⟩, rfl,
      congrArg Prod.fst written⟩
  · rw [if_pos (by simpa using isDry)] at ended
    obtain ⟨_, _, replaced, ended⟩ := gives_bind_iff.mp ended
    obtain ⟨rfl, rfl⟩ := gives_pure_iff.mp ended
    obtain ⟨files, saved, rfl⟩ := gives_replaceFileOn_iff.mp replaced
    rw [unchanged] at saved
    exact ⟨⟨layout, generated, lines, persisted, content, laidOut, made, loaded,
      congrArg Prod.snd written, fun dry => absurd dry isDry, fun _ => saved⟩, rfl,
      congrArg Prod.fst written⟩

theorem exists_steps {result : GenerationResult}
    (done : Gives (settings.run owner Hooks.none options) world result after) :
    ∃ steps : settings.Steps options world.files after.files,
      steps.content = result.content := by
  obtain ⟨steps, sameContent, _⟩ := exists_steps_descriptor done
  exact ⟨steps, sameContent⟩

/-- The last step of a run, after the text of a descriptor is there. -/
theorem exists_gives_save {files : FileTree} {content : String} (result : GenerationResult)
    (dry : options.isDry = true → files = world.files)
    (saved : options.isDry = false →
      world.files.replace false settings.descriptorPath content = (files, .ok ())) :
    ∃ after, Gives (if !options.isDry then do
        Run.replaceFileOn (.plain false) settings.descriptorPath content
        pure result
      else pure result) world result after ∧ after.files = files := by
  cases isDry : options.isDry with
  | true => exact ⟨world, gives_pure_iff.mpr ⟨rfl, rfl⟩, (dry isDry).symm⟩
  | false =>
      exact ⟨{ world with files := files }, gives_bind_iff.mpr
        ⟨(), _, gives_replaceFileOn_iff.mpr ⟨files, saved isDry, rfl⟩,
          gives_pure_iff.mpr ⟨rfl, rfl⟩⟩, rfl⟩

theorem Steps.exists_gives {files : FileTree} (steps : settings.Steps options world.files files)
    (owner : String) :
    ∃ result after, Gives (settings.run owner Hooks.none options) world result after ∧
      result.content = steps.content ∧ after.files = files := by
  obtain ⟨layout, generated, lines, persisted, content, laidOut, made, loaded, written, dry,
    saved⟩ := steps
  obtain ⟨tasks, ran, tasksRun, ranFiles⟩ := isHarmless_runTasks options layout world
  obtain ⟨_, told, reported, toldFiles⟩ := isHarmless_reportLines lines ran
  rw [← ranFiles, ← toldFiles] at loaded dry saved
  let result : GenerationResult :=
    ⟨settings.descriptorPath, (persisted.merge generated).write.1, content, lines, tasks⟩
  obtain ⟨after, ended, savedFiles⟩ := exists_gives_save result dry saved
  refine ⟨result, after, ?_, rfl, savedFiles⟩
  unfold ModuleSettings.run runOn
  simp only [gives_bind_iff, gives_get_iff, gives_ofResult_iff, gives_revise_iff]
  exact ⟨_, _, ⟨rfl, rfl⟩, layout, _, ⟨laidOut, rfl⟩, tasks, ran, tasksRun, (generated, lines),
    _, ⟨made, rfl⟩, _, told, reported, _, _, ⟨rfl, rfl⟩, persisted, _, ⟨loaded, rfl⟩,
    (_, content), _, ⟨Prod.ext rfl written, rfl⟩, ended⟩

end ModuleSettings

end IdeModules
