import IdeModules.Proofs.Regeneration

/-!
# The content root of a persisted descriptor

A descriptor has one content root.  A run updates the first content element of
an existing tree: the excluded folders that it had stay among those of the
written one, and so does what it holds beside its folders.  All further content
elements are managed children like any other, and are not written again.
-/

namespace IdeModules

open Xml

/-! ## Content elements -/

def contentsOf (root : Element) : List Element :=
  ((component? root rootManager).map fun manager => manager.childrenNamed "content").getD []

def excludeUrls (content : Element) : List String :=
  (content.childrenNamed "excludeFolder").map fun folder => (folder.attribute? "url").getD ""

/-- What is left of a content element in another one: its excluded folders, and what it holds
beside its folders. -/
structure KeepsContentRoot (before after : Element) : Prop where
  excludes : ∀ url ∈ excludeUrls before, url ∈ excludeUrls after
  others : KeepsContent before after

/-- Whether a tree has one content element, which keeps the first one of an earlier tree. -/
def KeepsFirstContent (before after : Element) : Prop :=
  ∃ kept, contentsOf after = [kept] ∧
    ∀ first, (contentsOf before).head? = some first → KeepsContentRoot first kept

theorem mem_excludeUrls_iff {content : Element} {url : String} :
    url ∈ excludeUrls content ↔ url ∈ (contentRootOf content).excludedFolders :=
  mem_distinct.symm

theorem head?_contentsOf (root : Element) :
    (contentsOf root).head? =
      (component? root rootManager).bind fun manager => manager.child? "content" := by
  rw [contentsOf]
  cases component? root rootManager <;> rfl

theorem excludes_ofElement_eq (name : Json.Value) (root : Element) :
    (Descriptor.ofElement name root).excludes =
      (((contentsOf root).head?.map contentRootOf).map ContentRoot.excludedFolders).getD [] := by
  rw [head?_contentsOf, Descriptor.ofElement]
  cases component? root rootManager <;> rfl

/-! ## Other texts -/

section Texts

variable (text : String → String)

theorem contentsOf_ofTexts (root : Element) :
    contentsOf (root.change (.ofTexts text)) =
      (contentsOf root).map (Element.change (.ofTexts text)) := by
  rw [contentsOf, contentsOf, component?_ofTexts]
  cases component? root rootManager with
  | none => rfl
  | some manager => exact childrenNamed_change _ manager "content"

theorem keepsContentRoot_change_iff {before after : Element} :
    KeepsContentRoot before (after.change (.ofTexts text)) ↔ KeepsContentRoot before after := by
  have sameUrls : ∀ url, url ∈ excludeUrls (after.change (.ofTexts text)) ↔
      url ∈ excludeUrls after := by
    intro url
    rw [mem_excludeUrls_iff, contentRootOf_ofTexts, ← mem_excludeUrls_iff]
  constructor
  · rintro ⟨excludes, others⟩
    exact ⟨fun url known => (sameUrls url).mp (excludes url known),
      (keepsContent_change_iff text).mp others⟩
  · rintro ⟨excludes, others⟩
    exact ⟨fun url known => (sameUrls url).mpr (excludes url known),
      (keepsContent_change_iff text).mpr others⟩

theorem keepsFirstContent_change_iff {before after : Element} :
    KeepsFirstContent before (after.change (.ofTexts text)) ↔ KeepsFirstContent before after := by
  unfold KeepsFirstContent
  rw [contentsOf_ofTexts]
  constructor
  · rintro ⟨changed, isOnly, keeps⟩
    obtain ⟨kept, isKept, rfl⟩ := List.map_eq_singleton_iff.mp isOnly
    exact ⟨kept, isKept, fun first isFirst =>
      (keepsContentRoot_change_iff text).mp (keeps first isFirst)⟩
  · rintro ⟨kept, isOnly, keeps⟩
    exact ⟨kept.change (.ofTexts text), by rw [isOnly]; rfl, fun first isFirst =>
      (keepsContentRoot_change_iff text).mpr (keeps first isFirst)⟩

/-- Trees that differ in their texts only keep the same content. -/
theorem KeepsFirstContent.of_same {before left right : Element}
    (keeps : KeepsFirstContent before left)
    (same : left.change withoutTexts = right.change withoutTexts) :
    KeepsFirstContent before right := by
  rw [← keepsFirstContent_change_iff fun _ => ""] at keeps ⊢
  exact same ▸ keeps

end Texts

/-! ## Writing keeps the content root -/

namespace Descriptor

variable (descriptor : Descriptor)

theorem contents_writeComponent (component : Element) :
    (descriptor.writeComponent component).childrenNamed "content" =
      (descriptor.root.map fun root => startingContent
        (some (contentNode (component.children.find? (Node.isNamed "content")) root))).toList := by
  rw [descriptor.childrenNamed_writeComponent (by decide),
    descriptor.filter_managedNodes (isContent_find? _),
    descriptor.filter_outputElements (by decide) (by decide)]
  cases descriptor.root <;> rfl

/-- A written tree has one content element, with the excluded folders of the descriptor. -/
theorem keepsFirstContent_writeTo {content : ContentRoot} (isRoot : descriptor.root = some content)
    {root : Element}
    (known : ∀ first, (contentsOf root).head? = some first →
      ∀ url ∈ excludeUrls first, url ∈ content.excludedFolders) :
    KeepsFirstContent root (descriptor.writeTo root) := by
  let existing := (startingComponent root).children.find? (Node.isNamed "content")
  refine ⟨startingContent (some (contentNode existing content)), ?_, ?_⟩
  · rw [contentsOf, descriptor.component?_writeTo]
    simp only [Option.map_some, Option.getD_some]
    rw [contents_writeComponent, isRoot]
    rfl
  · intro first isFirst
    constructor
    · intro url member
      rw [mem_excludeUrls_iff, contentRootOf_content]
      exact mem_distinct.mpr (known first isFirst url member)
    · rw [head?_contentsOf] at isFirst
      obtain ⟨manager, isManager, isContent⟩ := Option.bind_eq_some_iff.mp isFirst
      rw [child?_eq_find?] at isContent
      obtain ⟨node, found, isElement⟩ := Option.bind_eq_some_iff.mp isContent
      have isExisting : existing = some node := by
        show (startingComponent root).children.find? _ = some node
        rw [startingComponent, isManager]
        exact found
      have starting : startingContent (some node) = first := by
        rw [startingContent, Option.bind_some, isElement]
        rfl
      rw [isExisting, ← starting]
      exact keepsContent_contentNode node content

/-- Merging into the descriptor of a tree and writing keeps the first content of the tree. -/
theorem keepsFirstContent_merge {generated : Descriptor} {content : ContentRoot}
    (isRoot : generated.root = some content) (name : Json.Value) (root : Element) :
    KeepsFirstContent root (((ofElement name root).merge generated).writeTo root) ∧
      KeepsFirstContent root (((ofElement name root).merge generated).asText.writeTo root) := by
  have merged : ((ofElement name root).merge generated).root = some { content with
      excludedFolders :=
        mergedExcludes (ofElement name root).excludes content.excludedFolders } :=
    root_merge isRoot
  have known : ∀ first, (contentsOf root).head? = some first → ∀ url ∈ excludeUrls first,
      url ∈ mergedExcludes (ofElement name root).excludes content.excludedFolders := by
    intro first isFirst url member
    refine List.mem_append_left _ ?_
    rw [excludes_ofElement_eq, isFirst]
    exact mem_excludeUrls_iff.mp member
  exact ⟨keepsFirstContent_writeTo _ merged known,
    keepsFirstContent_writeTo ((ofElement name root).merge generated).asText merged known⟩

end Descriptor

/-! ## A run keeps the content root -/

namespace ModuleSettings

variable {settings : ModuleSettings} {options : RunOptions} {owner : String}

/-- What a run writes has one content element, which keeps the first one that was there. -/
theorem run_keeps_first_content {world after : World} {result : GenerationResult}
    {persisted : Descriptor} {existing : Element}
    (read : Descriptor.readFile world.files settings.descriptorPath = .ok persisted)
    (isTree : persisted.tree = some existing)
    (done : Gives (settings.run owner Hooks.none options) world result after) :
    (∃ written, result.descriptor.tree = some written ∧ serialize written = .ok result.content ∧
      KeepsFirstContent existing written) ∧
    (IsPlainlyWritten settings.jdkName → ∀ reread,
      readDocument true result.content = .ok reread → KeepsFirstContent existing reread) ∧
    (options.isDry = false → after.files.find? settings.descriptorPath =
      some (.file result.content.toUTF8)) := by
  obtain ⟨steps, sameContent, sameDescriptor⟩ := exists_steps_descriptor done
  have isPersisted : steps.persisted = persisted := Except.ok.inj
    (steps.loaded.symm.trans (Descriptor.load_of_readFile read settings.name))
  obtain ⟨name, root, isOf, isRead, _⟩ := steps.exists_tree
  obtain rfl : root = existing := by
    rw [← isPersisted, isOf, Descriptor.tree_ofElement] at isTree
    exact Option.some.inj isTree
  obtain ⟨isRoot, _, _⟩ := steps.generated_cases
  obtain ⟨keeps, keepsShown⟩ := Descriptor.keepsFirstContent_merge isRoot name root
  have isMergedTree : (steps.persisted.merge steps.generated).tree = some root := by
    rw [isOf]
    exact Descriptor.tree_ofElement name root
  rw [← sameContent, ← sameDescriptor]
  refine ⟨⟨_, Descriptor.tree_write isMergedTree, steps.serialized isOf, ?_⟩, ?_, ?_⟩
  · rw [isOf]
    exact keeps.of_same (Element.change_indent_withoutTexts _).symm
  · intro plain reread isReread
    rw [Descriptor.eq_of_read_serialized isRead.ofBoth.1 (steps.isPlainlyWritten_merged plain)
      (steps.serialized isOf) isReread, Steps.merged, isOf]
    exact keepsShown.of_same (Descriptor.withoutTexts_settled _).symm
  · exact fun isWet => (steps.load_after isWet).1

/-! ## Two content elements -/

/-- A descriptor with two content elements, of which the second one has an excluded folder and an
excluded pattern. -/
def twoContentsText : String :=
  "<module><component name=\"NewModuleRootManager\"><content url=\"u\">" ++
  "<excludeFolder url=\"file://kept\"/></content><content url=\"v\">" ++
  "<excludeFolder url=\"file://lost\"/><excludePattern pattern=\"*.tmp\"/></content>" ++
  "</component></module>"

def secondContent : Element :=
  (Element.make "content" [("url", "v")]).withChildren
    [excludedFolderElement "file://lost", Element.make "excludePattern" [("pattern", "*.tmp")]]

def twoContentsRoot : Element :=
  (Element.make "module" []).withChildren
    [(Element.make "component" [("name", rootManager)]).withChildren
      [(Element.make "content" [("url", "u")]).withChildren [excludedFolderElement "file://kept"],
        secondContent]]

theorem readDocument_twoContents : readDocument true twoContentsText = .ok twoContentsRoot := by
  rw [readDocument_eq_readChars]
  decide +kernel

def twoContentsWorld : World :=
  World.ofFiles (dependentFiles twoContentsText)

theorem readFile_twoContentsWorld :
    Descriptor.readFile twoContentsWorld.files
        (dependentSettings (.str "17") (some "1")).descriptorPath =
      .ok (Descriptor.ofElement (.str "a") twoContentsRoot) := by
  rw [descriptorPath_dependent]
  exact readFile_dependentFiles readDocument_twoContents rfl

theorem exists_twoContentsRun :
    ∃ result after,
      Gives ((dependentSettings (.str "17") (some "1")).run "" Hooks.none dependentOptions)
        twoContentsWorld result after ∧
      result.content = document (((dependentMerged (.str "17") (some "1") twoContentsRoot).writeTo
        twoContentsRoot).indent) := by
  have written := Descriptor.write_eq_document
    (dependentMerged (.str "17") (some "1") twoContentsRoot) (.inr ⟨"17", rfl, by decide⟩)
    tree_dependentMerged (accepted_of_readDocument readDocument_twoContents).ofBoth.1
  have hasText : twoContentsWorld.files = dependentFiles twoContentsText := rfl
  obtain ⟨result, after, done, isContent, _⟩ :=
    exists_dependentRun hasText readDocument_twoContents rfl written
  exact ⟨result, after, done, isContent⟩

theorem twoContents_run_keeps_first_content :
    ∃ result after written,
      Gives ((dependentSettings (.str "17") (some "1")).run "" Hooks.none dependentOptions)
        twoContentsWorld result after ∧
      result.descriptor.tree = some written ∧ KeepsFirstContent twoContentsRoot written := by
  obtain ⟨result, after, done, _⟩ := exists_twoContentsRun
  obtain ⟨⟨written, isTree, _, keeps⟩, _⟩ := run_keeps_first_content readFile_twoContentsWorld
    (Descriptor.tree_ofElement (.str "a") twoContentsRoot) done
  exact ⟨result, after, written, done, isTree, keeps⟩

/-- What the second content element held is nowhere in the written text. -/
theorem twoContents_run_loses_second_content :
    ∃ result after,
      Descriptor.readFile twoContentsWorld.files
          (dependentSettings (.str "17") (some "1")).descriptorPath =
        .ok (Descriptor.ofElement (.str "a") twoContentsRoot) ∧
      Gives ((dependentSettings (.str "17") (some "1")).run "" Hooks.none dependentOptions)
        twoContentsWorld result after ∧
      secondContent ∈ contentsOf twoContentsRoot ∧
      "file://lost" ∈ excludeUrls secondContent ∧
      Node.ofElement (Element.make "excludePattern" [("pattern", "*.tmp")]) "" ∈
        secondContent.children ∧
      ¬"file://lost".toList <:+: result.content.toList ∧
      ¬"excludePattern".toList <:+: result.content.toList := by
  obtain ⟨result, after, done, isContent⟩ := exists_twoContentsRun
  refine ⟨result, after, readFile_twoContentsWorld, done, by decide, by decide, by decide, ?_⟩
  rw [isContent, Xml.toList_document_eq]
  decide +kernel

end ModuleSettings

end IdeModules
