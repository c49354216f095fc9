import IdeModules.Proofs.ContentRoots
import IdeModules.Proofs.Descriptor.Overwriting

/-!
# What a run remembers of earlier ones

Runs with different settings may write the same file, one after the other.  The
last one leaves what it would have left without the others, except for the
excluded folders: those of all runs are there, behind the ones that stood in the
file before.
-/

namespace IdeModules

open Xml

/-! ## Excluded folders -/

/-- The URLs of the excluded folders of the first content element of a tree. -/
def firstExcludes (root : Element) : List String :=
  ((contentsOf root).head?.map excludeUrls).getD []

theorem excludes_ofElement_distinct (name : Json.Value) (root : Element) :
    (Descriptor.ofElement name root).excludes = distinct (firstExcludes root) := by
  rw [excludes_ofElement_eq, firstExcludes]
  cases (contentsOf root).head? <;> rfl

theorem firstExcludes_ofTexts (text : String → String) (root : Element) :
    firstExcludes (root.change (.ofTexts text)) = firstExcludes root := by
  have sameUrls : excludeUrls ∘ Element.change (.ofTexts text) = excludeUrls := by
    funext content
    simp [excludeUrls, Function.comp_def]
  rw [firstExcludes, contentsOf_ofTexts, List.head?_map, Option.map_map, sameUrls, firstExcludes]

theorem firstExcludes_of_same {left right : Element}
    (same : left.change withoutTexts = right.change withoutTexts) :
    firstExcludes left = firstExcludes right := by
  rw [← firstExcludes_ofTexts (fun _ => "") left, ← firstExcludes_ofTexts (fun _ => "") right]
  exact congrArg firstExcludes same

namespace Descriptor

theorem firstExcludes_writeTo (descriptor : Descriptor) {content : ContentRoot}
    (isRoot : descriptor.root = some content) (root : Element) :
    firstExcludes (descriptor.writeTo root) = content.excludedFolders := by
  rw [firstExcludes, contentsOf, descriptor.component?_writeTo, Option.map_some,
    Option.getD_some, contents_writeComponent, isRoot]
  simp only [Option.map_some, Option.toList_some, List.head?_cons, Option.getD_some, excludeUrls]
  rw [childrenNamed_content (by decide), filter_excludeFolder_folders, List.map_map]
  exact (List.map_congr_left fun _ _ => rfl).trans (List.map_id _)

theorem mergedExcludes_eq_distinct {persisted generated : List String}
    (nodup : generated.Nodup) :
    mergedExcludes (distinct persisted) generated = distinct (persisted ++ generated) := by
  rw [mergedExcludes, distinct_append, distinct_of_nodup nodup]
  simp only [mem_distinct]

end Descriptor

/-! ## Trees that are written again -/

/-- Whether a later tree has nothing that a first one has not and that outlives the next writing,
except for the excluded folders that it has gained. -/
structure Remembers (first : Element) (urls : List String) (later : Element) : Prop where
  alike : ∀ descriptor : Descriptor, descriptor.root.isSome = true →
    (descriptor.writeTo later).Alike (descriptor.writeTo first)
  excludes : distinct (firstExcludes later) = distinct (firstExcludes first ++ urls)

namespace Remembers

variable {first middle later : Element} {urls others : List String}

theorem refl (root : Element) : Remembers root [] root where
  alike _ _ := .refl _
  excludes := by rw [List.append_nil]

theorem trans (before : Remembers first urls middle) (after : Remembers middle others later) :
    Remembers first (urls ++ others) later where
  alike descriptor hasRoot :=
    (after.alike descriptor hasRoot).trans (before.alike descriptor hasRoot)
  excludes := by
    rw [after.excludes, ← distinct_distinct_append, before.excludes, distinct_distinct_append,
      List.append_assoc]

end Remembers

/-- Whether a tree looks like an expected one but for its excluded folders, which are given. -/
structure AlikeWithExcludes (urls : List String) (expected final : Element) : Prop where
  alike : final.Alike (withExcludes urls expected)
  excludes : firstExcludes final = urls

theorem AlikeWithExcludes.of_same {urls : List String} {expected final : Element}
    (alike : AlikeWithExcludes urls expected final) {otherExpected otherFinal : Element}
    (sameExpected : otherExpected.change withoutTexts = expected.change withoutTexts)
    (sameFinal : otherFinal.change withoutTexts = final.change withoutTexts) :
    AlikeWithExcludes urls otherExpected otherFinal where
  alike := (Element.alike_of_same sameFinal).trans
    (alike.alike.trans (alike_withExcludes urls (Element.alike_of_same sameExpected).symm))
  excludes := (firstExcludes_of_same sameFinal).trans alike.excludes

namespace Descriptor

variable {generated : Descriptor} {content : ContentRoot}

theorem remembers_merged (isRoot : generated.root = some content)
    (nodup : content.excludedFolders.Nodup) (name : Json.Value) (root : Element) :
    Remembers root content.excludedFolders
      ((((ofElement name root).merge generated).asText.writeTo root).indent.change settling) := by
  have merged : ((ofElement name root).merge generated).asText.root = some { content with
      excludedFolders :=
        mergedExcludes (ofElement name root).excludes content.excludedFolders } :=
    root_merge isRoot
  constructor
  · intro descriptor hasRoot
    have written := descriptor.alike_writeTo (Element.alike_of_same (withoutTexts_settled
      (((ofElement name root).merge generated).asText.writeTo root)))
    exact written.trans (descriptor.alike_writeTo_writeTo (fun _ => rfl) root)
  · rw [firstExcludes_of_same (withoutTexts_settled _), firstExcludes_writeTo _ merged,
      excludes_ofElement_distinct, mergedExcludes_eq_distinct nodup,
      distinct_of_nodup (nodup_distinct _)]

/-- Merged with one side or another, a descriptor has the same state but for its excluded
folders. -/
theorem withoutTree_merge_withExcludes (isRoot : generated.root = some content)
    {left right : Descriptor} {urls : List String}
    (gathered : mergedExcludes left.excludes content.excludedFolders = urls) :
    (left.merge generated).withoutTree =
      ((right.merge generated).withExcludes urls).withoutTree := by
  have roots : (left.merge generated).root = ((right.merge generated).withExcludes urls).root := by
    rw [root_merge isRoot, root_withExcludes _ (root_merge isRoot), gathered]
  have parts : (left.merge generated).withoutTree =
      { generated.withoutTree with root := (left.merge generated).root } := rfl
  have others : ((right.merge generated).withExcludes urls).withoutTree =
      { generated.withoutTree with
        root := ((right.merge generated).withExcludes urls).root } := rfl
  rw [parts, others, roots]

/-- Where descriptors differ in their excluded folders, so do the trees that they are written into
if one of these remembers the other. -/
theorem alike_writeTo_of_remembers {left right : Descriptor} {first later : Element}
    {urls gathered : List String} (isRoot : right.root = some content)
    (same : left.withoutTree = (right.withExcludes gathered).withoutTree)
    (remembers : Remembers first urls later) :
    AlikeWithExcludes gathered (right.writeTo first) (left.writeTo later) := by
  have sameRoot : left.root = some { content with excludedFolders := gathered } := by
    have roots := congrArg root same
    exact roots.trans (right.root_withExcludes isRoot gathered)
  have exchanged : left.writeTo first = (right.withExcludes gathered).writeTo first := by
    show left.withoutTree.writeTo first = (right.withExcludes gathered).withoutTree.writeTo first
    rw [same]
  refine ⟨?_, left.firstExcludes_writeTo sameRoot later⟩
  rw [right.withExcludes_writeTo isRoot, ← exchanged]
  exact remembers.alike left (by rw [sameRoot]; rfl)

end Descriptor

/-! ## Trees that runs start from -/

/-- Whether runs for a path start from a tree. -/
def StartsFrom (files : FileTree) (path : Path) (root : Element) : Prop :=
  ∀ name, ∃ known, Descriptor.load files path name = .ok (Descriptor.ofElement known root)

section StartsFrom

variable {files : FileTree} {path : Path} {root : Element}

theorem StartsFrom.eq_of_load (starts : StartsFrom files path root) {name known : Json.Value}
    {other : Element}
    (loaded : Descriptor.load files path name = .ok (Descriptor.ofElement known other)) :
    root = other := by
  obtain ⟨_, isLoaded⟩ := starts name
  have trees := congrArg Descriptor.tree (Except.ok.inj (isLoaded.symm.trans loaded))
  rw [Descriptor.tree_ofElement, Descriptor.tree_ofElement] at trees
  exact Option.some.inj trees

theorem StartsFrom.accepted (starts : StartsFrom files path root) : root.Meets accepted := by
  obtain ⟨_, isLoaded⟩ := starts .null
  obtain ⟨known, other, isOf, isRead, _⟩ := Descriptor.load_eq_ok isLoaded
  rw [isOf] at isLoaded
  rwa [starts.eq_of_load isLoaded]

theorem load_of_missing (missing : ¬files.contains path = true) (name : Json.Value) :
    ∃ known, Descriptor.load files path name = .ok (Descriptor.ofElement known templateRoot) := by
  rw [Descriptor.load, if_neg missing, Descriptor.template, Descriptor.ofText,
    readDocument_templateText]
  exact ⟨_, if_pos rfl⟩

theorem exists_startsFrom {name : Json.Value} {persisted : Descriptor}
    (loaded : Descriptor.load files path name = .ok persisted) :
    ∃ root, StartsFrom files path root := by
  by_cases contained : files.contains path = true
  · rw [Descriptor.load, if_pos contained] at loaded
    obtain ⟨known, root, isOf, _⟩ :=
      Descriptor.load_eq_ok (Descriptor.load_of_readFile loaded .null)
    refine ⟨root, fun other => ⟨known, ?_⟩⟩
    rw [← isOf]
    exact Descriptor.load_of_readFile loaded other
  · exact ⟨templateRoot, load_of_missing contained⟩

def treeIn (files : FileTree) (path : Path) : Option Element :=
  match Descriptor.readFile files path with
  | .ok persisted => persisted.tree
  | .error _ => none

theorem readFile_of_treeIn (found : treeIn files path = some root) :
    ∃ known, Descriptor.readFile files path = .ok (Descriptor.ofElement known root) ∧
      root.name = Name.plain "module" := by
  unfold treeIn at found
  split at found
  · rename_i persisted read
    have isRead := read
    unfold Descriptor.readFile at read
    split at read
    · simp at read
    · simp at read
    · obtain ⟨other, _, isModule, rfl⟩ := Descriptor.ofText_eq_ok read
      rw [Descriptor.tree_ofElement] at found
      obtain rfl := Option.some.inj found
      exact ⟨_, isRead, isModule⟩
  · simp at found

/-- The URLs of the excluded folders in the file at a path; a missing one has none. -/
def persistedExcludes (files : FileTree) (path : Path) : List String :=
  ((treeIn files path).map firstExcludes).getD []

theorem persistedExcludes_eq (starts : StartsFrom files path root) :
    persistedExcludes files path = firstExcludes root := by
  by_cases contained : files.contains path = true
  · obtain ⟨known, loaded⟩ := starts .null
    rw [Descriptor.load, if_pos contained] at loaded
    rw [persistedExcludes, treeIn, loaded]
    simp only [Descriptor.tree_ofElement]
    rfl
  · obtain ⟨_, loaded⟩ := load_of_missing contained .null
    have isTemplate := starts.eq_of_load loaded
    have absent : files.find? path = none := by simpa [FileTree.contains] using contained
    have noExcludes : firstExcludes templateRoot = [] := by decide
    rw [persistedExcludes, treeIn, Descriptor.readFile, FileTree.readText, absent, isTemplate,
      noExcludes]
    rfl

end StartsFrom

/-! ## Runs in turn -/

/-- A run for a module without callbacks. -/
structure ModuleRun where
  settings : ModuleSettings
  options : RunOptions
  owner : String

namespace ModuleRun

/-- A run that is taken in a world ends with a result, in another world. -/
def Gives (run : ModuleRun) (world : World) (result : GenerationResult) (after : World) : Prop :=
  IdeModules.Gives (run.settings.run run.owner Hooks.none run.options) world result after

def path (run : ModuleRun) : Path :=
  run.settings.descriptorPath

def excludes (files : FileTree) (run : ModuleRun) : List String :=
  run.settings.excludedFolders (run.settings.anchorsOn files run.options)

end ModuleRun

/-- Runs that end one after the other, each of them in the world that the one before has left. -/
inductive RunsInTurn : World → List ModuleRun → World → Prop where
  | nil {world : World} : RunsInTurn world [] world
  | cons {run : ModuleRun} {rest : List ModuleRun} {world middle after : World}
      {result : GenerationResult} (first : run.Gives world result middle)
      (others : RunsInTurn middle rest after) : RunsInTurn world (run :: rest) after

/-- The excluded folders of a file and of runs in turn, each at its first place. -/
def rememberedExcludes (files : FileTree) (path : Path) (runs : List ModuleRun) : List String :=
  distinct (persistedExcludes files path ++ runs.flatMap (ModuleRun.excludes files))

namespace ModuleSettings.Steps

variable {settings : ModuleSettings} {options : RunOptions} {before after : FileTree}
  (steps : settings.Steps options before after)

theorem excludedFolders_layout : steps.layout.root.excludedFolders =
    settings.excludedFolders (settings.anchorsOn before options) := by
  obtain ⟨_, _, excluded, _⟩ := layout_eq steps.laidOut
  exact excluded

theorem persisted_eq {root : Element}
    (starts : StartsFrom before settings.descriptorPath root) :
    ∃ name, steps.persisted = Descriptor.ofElement name root := by
  obtain ⟨name, other, isOf, _⟩ := steps.exists_tree
  have loaded := steps.loaded
  rw [isOf] at loaded
  obtain rfl := starts.eq_of_load loaded
  exact ⟨name, isOf⟩

include steps

/-- Of what a run has written another one finds nothing but its excluded folders. -/
theorem remembers {root later : Element} (isWet : options.isDry = false)
    (plain : IsPlainlyWritten settings.jdkName)
    (starts : StartsFrom before settings.descriptorPath root)
    (continues : StartsFrom after settings.descriptorPath later) :
    Remembers root (settings.excludedFolders (settings.anchorsOn before options)) later := by
  obtain ⟨name, isOf⟩ := steps.persisted_eq starts
  obtain ⟨isRoot, _, nodup⟩ := steps.generated_cases
  obtain ⟨_, loaded⟩ := continues settings.name
  obtain ⟨_, written, isRead, isWritten⟩ := (steps.load_after isWet).2.2 _ loaded
  rw [isWritten] at loaded
  obtain rfl := continues.eq_of_load loaded
  rw [Descriptor.eq_of_read_serialized starts.accepted.ofBoth.1
    (steps.isPlainlyWritten_merged plain) (steps.serialized isOf) isRead, merged, isOf,
    ← steps.excludedFolders_layout]
  exact Descriptor.remembers_merged isRoot nodup name root

end ModuleSettings.Steps

theorem ModuleRun.excludes_congr {files others : FileTree}
    (same : files.workingDirectory = others.workingDirectory) (run : ModuleRun) :
    run.excludes files = run.excludes others := by
  rw [excludes, excludes, ModuleSettings.anchorsOn, ModuleSettings.anchorsOn, same]

/-- After runs in turn the file of all of them remembers their excluded folders only. -/
theorem RunsInTurn.remembers {start before : World} {runs : List ModuleRun} {path : Path}
    (inTurn : RunsInTurn start runs before) (sameTarget : ∀ run ∈ runs, run.path = path)
    (wet : ∀ run ∈ runs, run.options.isDry = false)
    (plain : ∀ run ∈ runs, IsPlainlyWritten run.settings.jdkName) {later : Element}
    (continues : StartsFrom before.files path later) :
    before.files.workingDirectory = start.files.workingDirectory ∧
      ∃ root, StartsFrom start.files path root ∧
        Remembers root (runs.flatMap (ModuleRun.excludes start.files)) later := by
  -- What the first run leaves remembers the tree before it, and by induction the last file
  -- remembers what the first run leaves.
  induction inTurn with
  | nil => exact ⟨rfl, later, continues, .refl later⟩
  | cons first others ih =>
      rename_i run rest world middle after result
      rw [List.forall_mem_cons] at sameTarget wet plain
      obtain ⟨kept, middleRoot, middleStarts, others⟩ :=
        ih sameTarget.2 wet.2 plain.2 continues
      obtain ⟨steps, _⟩ := ModuleSettings.exists_steps first
      obtain ⟨_, directory, _⟩ := steps.load_after wet.1
      obtain ⟨root, starts⟩ := exists_startsFrom steps.loaded
      obtain rfl : run.settings.descriptorPath = path := sameTarget.1
      have step := steps.remembers wet.1 plain.1 starts middleStarts
      have sameExcludes : ModuleRun.excludes middle.files = ModuleRun.excludes world.files :=
        funext (ModuleRun.excludes_congr directory)
      rw [sameExcludes] at others
      exact ⟨kept.trans directory, root, starts, step.trans others⟩

/-- Where the last of some runs replaces their file the first one could have done so. -/
theorem RunsInTurn.exists_replace {start before : World} {runs : List ModuleRun} {path : Path}
    (inTurn : RunsInTurn start runs before) (sameTarget : ∀ run ∈ runs, run.path = path)
    (wet : ∀ run ∈ runs, run.options.isDry = false) {content : String} {after : FileTree}
    (saved : before.files.replace false path content = (after, .ok ())) (other : String) :
    ∃ files, start.files.replace false path other = (files, .ok ()) := by
  cases inTurn with
  | nil => exact FileTree.exists_replace saved other
  | cons first _ =>
      rw [List.forall_mem_cons] at sameTarget wet
      obtain ⟨steps, _⟩ := ModuleSettings.exists_steps first
      obtain rfl := sameTarget.1
      exact FileTree.exists_replace (steps.saved wet.1) other

/-! ## The last run and one without the others -/

theorem FileTree.exists_dry_or_saved {files : FileTree} {path : Path} {content : String}
    {isDry : Bool}
    (saves : isDry = false → ∃ after, files.replace false path content = (after, .ok ())) :
    ∃ after, (isDry = true → after = files) ∧
      (isDry = false → files.replace false path content = (after, .ok ())) := by
  cases isDry with
  | true => exact ⟨files, fun _ => rfl, fun isWet => absurd isWet (by decide)⟩
  | false =>
      obtain ⟨after, saved⟩ := saves rfl
      exact ⟨after, fun dry => absurd dry (by decide), fun _ => saved⟩

namespace ModuleSettings.Steps

variable {settings : ModuleSettings} {options : RunOptions} {start once before after : FileTree}
  {root later : Element} {urls : List String}

theorem exists_alone (steps : settings.Steps options before after)
    (sameDirectory : before.workingDirectory = start.workingDirectory)
    (starts : StartsFrom start settings.descriptorPath root)
    (continues : StartsFrom before settings.descriptorPath later)
    (saves : options.isDry = false → ∀ content,
      ∃ files, start.replace false settings.descriptorPath content = (files, .ok ())) :
    ∃ files, Nonempty (settings.Steps options start files) := by
  obtain ⟨_, isOf⟩ := steps.persisted_eq continues
  obtain ⟨known, loaded⟩ := starts settings.name
  have sameAnchors : settings.anchorsOn start options = settings.anchorsOn before options := by
    rw [anchorsOn, ← sameDirectory, anchorsOn]
  let merged := (Descriptor.ofElement known root).merge steps.generated
  -- Whether a development kit can be written is not up to the tree that it is written into.
  have isWritten := Descriptor.isWritten_of_writable
    (Descriptor.serialize_eq_ok_iff.mp (steps.serialized isOf)).1
  have sameJdk : merged.jdkName = steps.merged.jdkName := rfl
  rw [← sameJdk] at isWritten
  have written : merged.write.2 = .ok (document (merged.writeTo root).indent) :=
    Descriptor.write_of_isWritten (Descriptor.tree_ofElement known root) isWritten
      starts.accepted.ofBoth.1
  obtain ⟨files, dry, saved⟩ := FileTree.exists_dry_or_saved fun isWet =>
    saves isWet (document (merged.writeTo root).indent)
  exact ⟨files, ⟨{
    layout := steps.layout
    generated := steps.generated
    lines := steps.lines
    persisted := Descriptor.ofElement known root
    content := document (merged.writeTo root).indent
    laidOut := sameAnchors ▸ steps.laidOut
    made := sameAnchors ▸ steps.made
    loaded := loaded
    written := written
    dry := dry
    saved := saved }⟩⟩

theorem exists_root_merged (steps : settings.Steps options before after)
    (continues : StartsFrom before settings.descriptorPath later) :
    ∃ content, steps.merged.root = some content ∧ content.excludedFolders =
      distinct (firstExcludes later ++
        settings.excludedFolders (settings.anchorsOn before options)) := by
  obtain ⟨_, isOf⟩ := steps.persisted_eq continues
  obtain ⟨isRoot, _, nodup⟩ := steps.generated_cases
  refine ⟨_, Descriptor.root_merge isRoot, ?_⟩
  rw [isOf, excludes_ofElement_distinct, Descriptor.mergedExcludes_eq_distinct nodup,
    steps.excludedFolders_layout]

variable (steps : settings.Steps options before after) (alone : settings.Steps options start once)
  (sameDirectory : before.workingDirectory = start.workingDirectory)
  (remembers : Remembers root urls later)
  (starts : StartsFrom start settings.descriptorPath root)
  (continues : StartsFrom before settings.descriptorPath later)
  {gathered : List String}
  (isGathered : distinct (firstExcludes root ++ (urls ++
    settings.excludedFolders (settings.anchorsOn start options))) = gathered)

theorem eq_of_treeIn (isWet : options.isDry = false) (plain : IsPlainlyWritten settings.jdkName)
    (continues : StartsFrom before settings.descriptorPath later) {final : Element}
    (found : treeIn after settings.descriptorPath = some final) :
    readDocument true steps.content = .ok final ∧ final.name = Name.plain "module" ∧
      final = (steps.merged.asText.writeTo later).indent.change settling := by
  obtain ⟨_, isOf⟩ := steps.persisted_eq continues
  obtain ⟨_, read, isModule⟩ := readFile_of_treeIn found
  obtain ⟨_, written, isRead, isWritten⟩ := (steps.load_after isWet).2.2 _
    (Descriptor.load_of_readFile read settings.name)
  have sameTree := congrArg Descriptor.tree isWritten
  rw [Descriptor.tree_ofElement, Descriptor.tree_ofElement] at sameTree
  obtain rfl := Option.some.inj sameTree
  exact ⟨isRead, isModule, Descriptor.eq_of_read_serialized continues.accepted.ofBoth.1
    (steps.isPlainlyWritten_merged plain) (steps.serialized isOf) isRead⟩

include steps alone sameDirectory remembers continues isGathered

/-- Behind other runs a run merges what it merges without them, but for the excluded folders. -/
theorem withoutTree_merged :
    steps.merged.withoutTree = (alone.merged.withExcludes gathered).withoutTree := by
  obtain ⟨_, isOf⟩ := steps.persisted_eq continues
  obtain ⟨isRoot, _, nodup⟩ := alone.generated_cases
  rw [merged, (alone.generated_eq steps sameDirectory).2]
  apply Descriptor.withoutTree_merge_withExcludes isRoot
  rw [isOf, excludes_ofElement_distinct, remembers.excludes,
    Descriptor.mergedExcludes_eq_distinct nodup, alone.excludedFolders_layout, List.append_assoc,
    isGathered]

include starts

/-- What a run writes behind other ones looks like what it writes without them, but for the
excluded folders. -/
theorem alike_merged :
    AlikeWithExcludes gathered (alone.merged.writeTo root) (steps.merged.writeTo later) := by
  obtain ⟨_, isRoot, _⟩ := alone.exists_root_merged starts
  exact Descriptor.alike_writeTo_of_remembers isRoot
    (steps.withoutTree_merged alone sameDirectory remembers continues isGathered) remembers

theorem alike_merged_asText :
    AlikeWithExcludes gathered (alone.merged.asText.writeTo root)
      (steps.merged.asText.writeTo later) := by
  obtain ⟨content, isRoot, _⟩ := alone.exists_root_merged starts
  have isTextRoot : alone.merged.asText.root = some content := isRoot
  have same := steps.withoutTree_merged alone sameDirectory remembers continues isGathered
  have sameText : steps.merged.asText.withoutTree =
      (alone.merged.asText.withExcludes gathered).withoutTree := congrArg Descriptor.asText same
  exact Descriptor.alike_writeTo_of_remembers isTextRoot sameText remembers

theorem legible_alone (admitted : ∀ url ∈ gathered, HasOnly isXmlChar url)
    (namesPlain : (steps.merged.asText.writeTo later).Meets plainNames)
    (valuesAdmitted : (steps.merged.asText.writeTo later).Meets admittedValues) :
    (alone.merged.asText.writeTo root).Meets plainNames ∧
      (alone.merged.asText.writeTo root).Meets admittedValues := by
  obtain ⟨content, isRoot, excludes⟩ := alone.exists_root_merged starts
  have isTextRoot : alone.merged.asText.root = some content := isRoot
  obtain ⟨alike, _⟩ := steps.alike_merged_asText alone sameDirectory remembers starts continues
    isGathered
  have writtenSound : (steps.merged.asText.writeTo later).Meets sound :=
    Descriptor.sound_writeTo_asText continues.accepted.ofBoth.1
  have exchangedSound : (withExcludes gathered (alone.merged.asText.writeTo root)).Meets sound := by
    rw [alone.merged.asText.withExcludes_writeTo isTextRoot]
    show ((alone.merged.withExcludes gathered).asText.writeTo root).Meets sound
    exact Descriptor.sound_writeTo_asText starts.accepted.ofBoth.1
  have own : ∀ url ∈ content.excludedFolders, HasOnly isXmlChar url := by
    intro url member
    refine admitted url ?_
    rw [excludes, mem_distinct, List.mem_append] at member
    rw [← isGathered, mem_distinct, List.mem_append, List.mem_append]
    exact member.imp_right .inr
  -- What looks like a legible tree is legible, and stays so with its own excluded folders.
  rw [← alone.merged.asText.withExcludes_withExcludes_writeTo isTextRoot gathered root]
  constructor
  · exact meets_withExcludes trivial
      (fun url member => (legible_excludedFolderElement (own url member)).1)
      (alike.meets ignoreOrder_plainNames writtenSound exchangedSound namesPlain)
  · exact meets_withExcludes trivial
      (fun url member => (legible_excludedFolderElement (own url member)).2)
      (alike.meets ignoreOrder_admittedValues writtenSound exchangedSound valuesAdmitted)

/-- The file of a run without others is read if that of the run behind them is, and looks like
that but for the excluded folders. -/
theorem exists_treeIn_alone (isWet : options.isDry = false)
    (plain : IsPlainlyWritten settings.jdkName) {final : Element}
    (found : treeIn after settings.descriptorPath = some final) :
    ∃ single, treeIn once settings.descriptorPath = some single ∧
      AlikeWithExcludes gathered single final := by
  obtain ⟨_, isOf⟩ := steps.persisted_eq continues
  obtain ⟨_, isOfAlone⟩ := alone.persisted_eq starts
  obtain ⟨isRead, isModule, isFinal⟩ := steps.eq_of_treeIn isWet plain continues found
  have sameFinal : final.change withoutTexts =
      (steps.merged.asText.writeTo later).change withoutTexts := by
    rw [isFinal, Descriptor.withoutTexts_settled]
  have alike := (steps.alike_merged_asText alone sameDirectory remembers starts continues
    isGathered).of_same (Descriptor.withoutTexts_settled _) sameFinal
  -- The gathered folders have been read, so documents can hold them.
  have admitted : ∀ url ∈ gathered, HasOnly isXmlChar url := by
    have known := Descriptor.hasOnly_excludes_ofElement (accepted_of_readDocument isRead) .null
    rw [excludes_ofElement_distinct, alike.excludes] at known
    exact fun url member => known url (mem_distinct.mpr member)
  have text := Descriptor.eq_document_of_serialize continues.accepted.ofBoth.1
    (steps.isPlainlyWritten_merged plain) (steps.serialized isOf)
  have aloneText := Descriptor.eq_document_of_serialize starts.accepted.ofBoth.1
    (alone.isPlainlyWritten_merged plain) (alone.serialized isOfAlone)
  rw [text] at isRead
  obtain ⟨namesPlain, valuesAdmitted⟩ := legible_of_readDocument
    (Descriptor.sound_indent_asText continues.accepted.ofBoth.1) isRead
  obtain ⟨alonePlain, aloneAdmitted⟩ := steps.legible_alone alone sameDirectory remembers starts
    continues isGathered admitted ((Element.meets_indent_iff fun _ => trivial).mp namesPlain)
    ((Element.meets_indent_iff fun _ => trivial).mp valuesAdmitted)
  have isReadAlone := readDocument_document
    (Descriptor.sound_indent_asText starts.accepted.ofBoth.1)
    ((Element.meets_indent_iff fun _ => trivial).mpr alonePlain)
    ((Element.meets_indent_iff fun _ => trivial).mpr aloneAdmitted)
  rw [← aloneText] at isReadAlone
  refine ⟨_, ?_, alike⟩
  rw [treeIn, Descriptor.readFile_of_find? (alone.load_after isWet).1 isReadAlone
    (alike.alike.name.symm.trans isModule)]
  exact Descriptor.tree_ofElement _ _

end ModuleSettings.Steps

/-- The last of some runs in turn leaves what it leaves without the others, except that the
excluded folders of all of them stand behind those of the file: in the tree that it writes, and in
the file where its development kit is shown without markup too. -/
theorem runs_remember_excludes_only {start before after : World} {earlier : List ModuleRun}
    {last : ModuleRun} {result : GenerationResult} (inTurn : RunsInTurn start earlier before)
    (done : last.Gives before result after) (sameTarget : ∀ run ∈ earlier, run.path = last.path)
    (wet : ∀ run ∈ earlier, run.options.isDry = false)
    (plain : ∀ run ∈ earlier, IsPlainlyWritten run.settings.jdkName) :
    let gathered := rememberedExcludes start.files last.path (earlier ++ [last])
    ∃ single once, last.Gives start single once ∧
      (∃ expected written, single.descriptor.tree = some expected ∧
        result.descriptor.tree = some written ∧ AlikeWithExcludes gathered expected written) ∧
      (last.options.isDry = false → IsPlainlyWritten last.settings.jdkName →
        ∀ final, treeIn after.files last.path = some final →
          ∃ expected, treeIn once.files last.path = some expected ∧
            AlikeWithExcludes gathered expected final) := by
  intro gathered
  obtain ⟨steps, _, isResult⟩ := ModuleSettings.exists_steps_descriptor done
  obtain ⟨later, continues⟩ := exists_startsFrom steps.loaded
  obtain ⟨sameDirectory, root, starts, remembers⟩ :=
    inTurn.remembers sameTarget wet plain continues
  have isGathered : distinct (firstExcludes root ++
      (earlier.flatMap (ModuleRun.excludes start.files) ++ last.excludes start.files)) =
        gathered := by
    have excludes : (earlier ++ [last]).flatMap (ModuleRun.excludes start.files) =
        earlier.flatMap (ModuleRun.excludes start.files) ++ last.excludes start.files := by simp
    rw [← excludes, ← persistedExcludes_eq starts]
    rfl
  obtain ⟨files, ⟨possible⟩⟩ := steps.exists_alone sameDirectory starts continues fun isWet =>
    inTurn.exists_replace sameTarget wet (steps.saved isWet)
  obtain ⟨single, once, doneAlone, _, _⟩ := possible.exists_gives last.owner
  obtain ⟨alone, _, isSingle⟩ := ModuleSettings.exists_steps_descriptor doneAlone
  obtain ⟨_, isOf⟩ := steps.persisted_eq continues
  obtain ⟨_, isOfAlone⟩ := alone.persisted_eq starts
  have isTree : steps.merged.tree = some later := by
    rw [ModuleSettings.Steps.merged, isOf]
    exact Descriptor.tree_ofElement _ later
  have isTreeAlone : alone.merged.tree = some root := by
    rw [ModuleSettings.Steps.merged, isOfAlone]
    exact Descriptor.tree_ofElement _ root
  refine ⟨single, once, doneAlone, ⟨_, _, isSingle ▸ Descriptor.tree_write isTreeAlone,
    isResult ▸ Descriptor.tree_write isTree, ?_⟩, ?_⟩
  · exact (steps.alike_merged alone sameDirectory remembers starts continues isGathered).of_same
      (Element.change_indent_withoutTexts _) (Element.change_indent_withoutTexts _)
  · intro isWet plainLast final found
    exact steps.exists_treeIn_alone alone sameDirectory remembers starts continues isGathered
      isWet plainLast found

/-! ## Runs of a dependent module -/

open ModuleSettings

def dependentRun (jdkName : Json.Value) : ModuleRun :=
  ⟨dependentSettings jdkName (some "1"), dependentOptions, ""⟩

theorem path_dependentRun (jdkName : Json.Value) :
    (dependentRun jdkName).path = ⟨.single, ["ws", "a.iml"], by decide⟩ :=
  descriptorPath_dependent (some "1")

theorem treeIn_dependentFiles {text : String} {root : Element}
    (read : readDocument true text = .ok root) (isModule : root.name = Name.plain "module") :
    treeIn (dependentFiles text) ⟨.single, ["ws", "a.iml"], by decide⟩ = some root := by
  rw [treeIn, readFile_dependentFiles read isModule]
  exact Descriptor.tree_ofElement _ root

/-- A module with another development kit remembers the excluded folders of the one before. -/
theorem later_run_remembers_excludes_only :
    ∃ earlier before result after single once expected final,
      (dependentRun (.str "17")).Gives dependentWorld earlier before ∧
      (dependentRun (.str "21")).Gives before result after ∧
      (dependentRun (.str "21")).Gives dependentWorld single once ∧
      treeIn after.files (dependentRun (.str "21")).path = some final ∧
      treeIn once.files (dependentRun (.str "21")).path = some expected ∧
      AlikeWithExcludes (rememberedExcludes dependentWorld.files
        (dependentRun (.str "21")).path [dependentRun (.str "17"), dependentRun (.str "21")])
        expected final := by
  obtain ⟨earlier, before, root, first, hasContent, isRead, isModule, legible⟩ :=
    exists_legibleRun (show "17" ≠ "" by decide) rfl
      (show dependentWorld.files = dependentFiles foreignText from rfl)
      readDocument_foreign rfl plainNames_foreignRoot
  obtain ⟨result, after, final, second, hasFinal, isReadFinal, isFinalModule, _⟩ :=
    exists_legibleRun (show "21" ≠ "" by decide) rfl hasContent isRead isModule
      legible
  have found : treeIn after.files (dependentRun (.str "21")).path = some final := by
    rw [hasFinal, path_dependentRun]
    exact treeIn_dependentFiles isReadFinal isFinalModule
  have inTurn : RunsInTurn dependentWorld [dependentRun (.str "17")] before :=
    .cons first .nil
  have done : (dependentRun (.str "21")).Gives before result after := second
  obtain ⟨single, once, doneAlone, _, inFile⟩ := runs_remember_excludes_only inTurn done
    (by simp [path_dependentRun]) (by simp [dependentRun, dependentOptions])
    (by simpa [dependentRun] using isPlainlyWritten_dependent)
  have plainLast : IsPlainlyWritten (dependentRun (.str "21")).settings.jdkName := by
    intro values isList
    cases isList
  obtain ⟨expected, isExpected, alike⟩ := inFile rfl plainLast final found
  exact ⟨earlier, before, result, after, single, once, expected, final, first, done, doneAlone,
    found, isExpected, alike⟩

/-! ## A development kit with markup -/

def plainTree (root : Element) : Element :=
  ((dependentMerged (.str "17") (some "1") root).writeTo root).indent

theorem write_plainTree {root : Element} (isSound : root.Meets sound) :
    (dependentMerged (.str "17") (some "1") root).write.2 = .ok (document (plainTree root)) :=
  Descriptor.write_eq_document _ (.inr ⟨"17", rfl, by decide⟩) tree_dependentMerged isSound

/-- The elements that an earlier run has written as part of a name are kept by a later one. -/
theorem exists_keptElements :
    ∃ middle final expected,
      readDocument true (document (injectingTree foreignRoot)) = .ok middle ∧
      readDocument true (document (plainTree middle)) = .ok final ∧
      readDocument true (document (plainTree foreignRoot)) = .ok expected ∧
      middle.name = Name.plain "module" ∧ final.name = Name.plain "module" ∧
      expected.name = Name.plain "module" ∧
      final.children.length ≠ expected.children.length := by
  have evaluated : (do
      let middle ← readChars true
        (declarationLine.toList ++ printRoot (injectingTree foreignRoot) ++ "\n".toList)
      let final ← readChars true
        (declarationLine.toList ++ printRoot (plainTree middle) ++ "\n".toList)
      let expected ← readChars true
        (declarationLine.toList ++ printRoot (plainTree foreignRoot) ++ "\n".toList)
      pure (decide (middle.name = Name.plain "module" ∧ final.name = Name.plain "module" ∧
        expected.name = Name.plain "module" ∧
        final.children.length ≠ expected.children.length))) = Except.ok true := by
    decide +kernel
  simp only [except_bind_eq_ok_iff] at evaluated
  obtain ⟨middle, isMiddle, final, isFinal, expected, isExpected, holds⟩ := evaluated
  refine ⟨middle, final, expected, ?_, ?_, ?_, of_decide_eq_true (Except.ok.inj holds)⟩
  · rw [readDocument_eq_readChars, Xml.toList_document_eq, isMiddle]
  · rw [readDocument_eq_readChars, Xml.toList_document_eq, isFinal]
  · rw [readDocument_eq_readChars, Xml.toList_document_eq, isExpected]

/-- An earlier run whose development kit is shown with markup is remembered by more than its
excluded folders. -/
theorem injecting_run_is_remembered :
    ∃ earlier before result after single once kept final expected,
      (dependentRun injectingJdk).Gives dependentWorld earlier before ∧
      (dependentRun (.str "17")).Gives before result after ∧
      (dependentRun (.str "17")).Gives dependentWorld single once ∧
      (dependentRun injectingJdk).path = (dependentRun (.str "17")).path ∧
      treeIn before.files (dependentRun (.str "17")).path = some kept ∧
      treeIn after.files (dependentRun (.str "17")).path = some final ∧
      treeIn once.files (dependentRun (.str "17")).path = some expected ∧
      ∀ urls, ¬final.Alike (withExcludes urls expected) := by
  obtain ⟨middle, final, expected, isMiddle, isFinal, isExpected, middleModule, finalModule,
    expectedModule, longer⟩ := exists_keptElements
  have hasText : dependentWorld.files = dependentFiles foreignText := rfl
  obtain ⟨earlier, before, first, _, hasMiddle⟩ := exists_dependentRun hasText
    readDocument_foreign rfl (write_injecting writable_injecting)
  obtain ⟨result, after, second, _, hasFinal⟩ := exists_dependentRun hasMiddle isMiddle
    middleModule (write_plainTree (accepted_of_readDocument isMiddle).ofBoth.1)
  obtain ⟨single, once, alone, _, hasExpected⟩ := exists_dependentRun hasText
    readDocument_foreign rfl
    (write_plainTree (accepted_of_readDocument readDocument_foreign).ofBoth.1)
  refine ⟨earlier, before, result, after, single, once, middle, final, expected, first, second,
    alone, ?_, ?_, ?_, ?_, ?_⟩
  · rw [path_dependentRun, path_dependentRun]
  · rw [hasMiddle, path_dependentRun]
    exact treeIn_dependentFiles isMiddle middleModule
  · rw [hasFinal, path_dependentRun]
    exact treeIn_dependentFiles isFinal finalModule
  · rw [hasExpected, path_dependentRun]
    exact treeIn_dependentFiles isExpected expectedModule
  · intro urls alike
    have lengths := alike.children.length_eq
    rw [withExcludes, changeChild, length_replaceFirst] at lengths
    exact longer lengths

end IdeModules
