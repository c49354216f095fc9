import IdeModules.Proofs.Descriptor.Frame
import IdeModules.Proofs.Xml.Resemblance
import IdeModules.Workspace

/-!
# Writing a descriptor over another one

Writing a descriptor into a tree that another one has been written into gives
what writing it into the tree before would have given: all that the earlier one
put there is replaced or removed.  Only its excluded folders can come back, since
a merged descriptor has them among its own; so the excluded folders of a tree can
be exchanged apart from everything else.
-/

namespace IdeModules

open Xml

/-! ## Trees that look alike are written alike -/

theorem alike_startingContent {left right : Option Node}
    (alike : Option.Rel Node.Alike left right) :
    (startingContent left).Alike (startingContent right) := by
  cases alike with
  | none => exact .refl _
  | some nodes =>
      cases nodes with
      | element values inner => exact ⟨rfl, values, inner⟩
      | comment => exact .refl _

theorem alike_contentNode {left right : Option Node}
    (alike : Option.Rel Node.Alike left right) (root : ContentRoot) :
    (contentNode left root).Alike (contentNode right root) := by
  have starting := alike_startingContent alike
  rw [contentNode_eq, contentNode_eq, starting.name]
  refine .element (starting.values.put _ _) (List.rel_append (forall₂_alike_refl _) ?_)
  exact filter_alike (fun _ _ nodes => congrArg not (nodes.isNamedIn folderTags))
    starting.children

theorem isComponent_of_alike {left right : Node} (alike : left.Alike right) (name : String) :
    isComponent name left = isComponent name right := by
  have elements := alike.element?
  unfold isComponent
  rw [alike.isNamed]
  generalize left.element? = found, right.element? = other at elements
  cases elements with
  | none => rfl
  | some same => simp only [Option.bind_some, same.attribute?]

namespace Descriptor

variable (descriptor : Descriptor)

theorem alike_managedNodes {left right : Option Node}
    (alike : Option.Rel Node.Alike left right) :
    List.Forall₂ Node.Alike (descriptor.managedNodes left) (descriptor.managedNodes right) := by
  have content : List.Forall₂ Node.Alike (descriptor.root.map (contentNode left)).toList
      (descriptor.root.map (contentNode right)).toList := by
    cases descriptor.root with
    | none => exact .nil
    | some root => exact .cons (alike_contentNode alike root) .nil
  exact List.rel_append (List.rel_append (forall₂_alike_refl _) content) (forall₂_alike_refl _)

theorem alike_markedChildren {lefts rights : List Node}
    (alike : List.Forall₂ Node.Alike lefts rights) :
    List.Forall₂ Node.Alike (descriptor.markedChildren lefts)
      (descriptor.markedChildren rights) := by
  have kept := filter_alike (fun _ _ nodes => congrArg not (nodes.isNamedIn managedTags)) alike
  have content := forall₂_find? (fun _ _ nodes => nodes.isNamed "content") alike
  exact List.rel_append kept (descriptor.alike_managedNodes content)

theorem get?_markedAttributes (name : Name) (entries : Attributes) :
    Keyed.get? name (descriptor.markedAttributes entries) =
      if Name.plain "LANGUAGE_LEVEL" = name then descriptor.languageLevel.map .text
      else if Name.plain "inherit-compiler-output" = name then
        some (.text (truthText descriptor.inheritsOutput))
      else Keyed.get? name entries := by
  unfold markedAttributes
  cases descriptor.languageLevel with
  | none => simp only [Keyed.get?_erase, Keyed.get?_put, Option.map_none]
  | some level => simp only [Keyed.get?_put, Option.map_some]

theorem alike_writeComponent {left right : Element} (alike : left.Alike right) :
    (descriptor.writeComponent left).Alike (descriptor.writeComponent right) := by
  rw [writeComponent_eq, writeComponent_eq]
  refine ⟨alike.name, ?_, descriptor.alike_markedChildren alike.children⟩
  intro name
  rw [get?_markedAttributes, get?_markedAttributes, alike.values name]

theorem alike_writeNode {left right : Node} (alike : left.Alike right) :
    (descriptor.writeNode left).Alike (descriptor.writeNode right) := by
  have elements := alike.element?
  unfold writeNode
  generalize left.element? = found, right.element? = other at elements
  cases elements with
  | none => exact alike
  | some same => exact Node.alike_ofElement (descriptor.alike_writeComponent same) _ _

theorem alike_withRootManager {left right : Element} (alike : left.Alike right) :
    (withRootManager left).Alike (withRootManager right) := by
  have sameFirst := forall₂_find?
    (fun (left right : Node) (nodes : left.Alike right) => isComponent_of_alike nodes rootManager)
    alike.children
  have same : left.children.any (isComponent rootManager) =
      right.children.any (isComponent rootManager) := by
    rw [← List.isSome_find?, ← List.isSome_find?]
    generalize left.children.find? _ = found, right.children.find? _ = other at sameFirst
    cases sameFirst <;> rfl
  unfold withRootManager
  rw [same]
  split
  · exact alike
  · exact ⟨alike.name, alike.values, .cons (.refl _) alike.children⟩

/-- Trees that look alike still do when a descriptor has been written into both. -/
theorem alike_writeTo {left right : Element} (alike : left.Alike right) :
    (descriptor.writeTo left).Alike (descriptor.writeTo right) := by
  have prepared := alike_withRootManager alike
  refine ⟨prepared.name, prepared.values, forall₂_replaceFirst ?_ ?_ ?_ prepared.children⟩
  · exact fun _ _ nodes => isComponent_of_alike nodes rootManager
  · exact fun _ _ nodes _ => descriptor.alike_writeNode nodes
  · exact fun _ _ nodes => nodes

/-! ## Writing over another descriptor -/

section Earlier

variable {earlier : Descriptor}
  (covered : descriptor.root.isSome = true → earlier.root.isSome = true)

include covered

theorem alike_writeComponent_writeComponent (component : Element) :
    (descriptor.writeComponent (earlier.writeComponent component)).Alike
      (descriptor.writeComponent component) := by
  simp only [writeComponent_eq, descriptor.markedChildren_markedChildren covered]
  -- The attributes are not equal: one that was removed before stands behind the others when it is
  -- set again.
  refine ⟨rfl, ?_, forall₂_alike_refl _⟩
  intro name
  simp only [get?_markedAttributes]
  split
  · rfl
  · split <;> rfl

theorem alike_writeNode_writeNode (node : Node) :
    (descriptor.writeNode (earlier.writeNode node)).Alike (descriptor.writeNode node) := by
  cases node with
  | element name attributes text children tail =>
      exact Node.alike_ofElement
        (descriptor.alike_writeComponent_writeComponent covered
          ⟨name, attributes, text, children⟩) _ _
  | comment content tail => exact .comment

/-- A descriptor that is written over another one leaves nothing of that. -/
theorem alike_writeTo_writeTo (root : Element) :
    (descriptor.writeTo (earlier.writeTo root)).Alike (descriptor.writeTo root) := by
  have has : (earlier.writeTo root).children.any (isComponent rootManager) = true := by
    rw [writeTo, any_replaceFirst earlier.isComponent_written, any_withRootManager]
  rw [writeTo, withRootManager_of_any has]
  simp only [writeTo, replaceFirst_replaceFirst earlier.isComponent_written]
  refine ⟨rfl, fun _ => rfl, forall₂_replaceFirst ?_ ?_ ?_ (forall₂_alike_refl _)⟩
  · exact fun _ _ nodes => isComponent_of_alike nodes rootManager
  · exact fun left right nodes _ => (descriptor.alike_writeNode_writeNode covered left).trans
      (descriptor.alike_writeNode nodes)
  · exact fun _ _ nodes => nodes

end Earlier

end Descriptor

/-! ## Other excluded folders -/

/-- A content element with other excluded folders; they stand behind the source folders. -/
def excluding (urls : List String) (content : Element) : Element :=
  { content with
    children :=
      content.children.filter (Node.isNamed "sourceFolder") ++
        urls.map (fun url => Node.ofElement (excludedFolderElement url) "") ++
        content.children.filter fun child => !child.isNamedIn folderTags }

/-- A tree with other excluded folders in its first content element. -/
def withExcludes (urls : List String) (root : Element) : Element :=
  changeChild (isComponent rootManager)
    (changeChild (Node.isNamed "content") (excluding urls)) root

theorem alike_changeChild {test : Node → Bool} {change : Element → Element}
    (same : ∀ left right : Node, left.Alike right → test left = test right)
    (changed : ∀ left right : Element, left.Alike right → (change left).Alike (change right))
    {left right : Element} (alike : left.Alike right) :
    (changeChild test change left).Alike (changeChild test change right) := by
  refine ⟨alike.name, alike.values, forall₂_replaceFirst same ?_ ?_ alike.children⟩
  · intro leftNode rightNode nodes _
    have elements := nodes.element?
    rw [changedNode, changedNode]
    generalize leftNode.element? = found, rightNode.element? = other at elements
    cases elements with
    | none => exact nodes
    | some inner => exact Node.alike_ofElement (changed _ _ inner) _ _
  · exact fun _ _ nodes => nodes

theorem alike_excluding (urls : List String) {left right : Element} (alike : left.Alike right) :
    (excluding urls left).Alike (excluding urls right) := by
  refine ⟨alike.name, alike.values, List.rel_append (List.rel_append ?_ ?_) ?_⟩
  · exact filter_alike (fun _ _ nodes => nodes.isNamed "sourceFolder") alike.children
  · exact forall₂_alike_refl _
  · exact filter_alike (fun _ _ nodes => congrArg not (nodes.isNamedIn folderTags))
      alike.children

theorem alike_withExcludes (urls : List String) {left right : Element}
    (alike : left.Alike right) : (withExcludes urls left).Alike (withExcludes urls right) :=
  alike_changeChild (fun _ _ nodes => isComponent_of_alike nodes rootManager)
    (fun _ _ => alike_changeChild (fun _ _ nodes => nodes.isNamed "content")
      fun _ _ => alike_excluding urls) alike

theorem changedNode_contentNode (urls : List String) (existing : Option Node)
    (root : ContentRoot) :
    changedNode (excluding urls) (contentNode existing root) =
      contentNode existing { root with excludedFolders := urls } := by
  let kept := (startingContent existing).children.filter fun child => !child.isNamedIn folderTags
  have sources : (root.folders.map (Node.ofElement · "") ++ kept).filter
      (Node.isNamed "sourceFolder") =
        (root.sourceFolders.map SourceFolder.element).map (Node.ofElement · "") := by
    rw [List.filter_append, filter_isNamed_map, filter_sourceFolder_folders,
      filter_kept (by decide), List.append_nil]
  have others : (root.folders.map (Node.ofElement · "") ++ kept).filter
      (fun child => !child.isNamedIn folderTags) = kept :=
    filter_append_filter (isNamedIn_folders root)
  have folders : ({ root with excludedFolders := urls } : ContentRoot).folders.map
        (Node.ofElement · "") =
      (root.sourceFolders.map SourceFolder.element).map (Node.ofElement · "") ++
        urls.map fun url => Node.ofElement (excludedFolderElement url) "" := by
    simp [ContentRoot.folders]
  rw [contentNode_eq, contentNode_eq, folders, ← sources]
  show Node.element _ _ _ (_ ++ _ ++ List.filter _ (_ ++ kept)) _ = _
  rw [others]
  rfl

namespace Descriptor

/-- A descriptor with other excluded folders. -/
def withExcludes (urls : List String) (descriptor : Descriptor) : Descriptor :=
  { descriptor with
    root := descriptor.root.map fun root => { root with excludedFolders := urls } }

variable (descriptor : Descriptor) {content : ContentRoot}
  (isRoot : descriptor.root = some content) (urls : List String)

include isRoot

theorem root_withExcludes : (descriptor.withExcludes urls).root =
    some { content with excludedFolders := urls } := by
  rw [withExcludes, isRoot]
  rfl

/-- The content element among the children of a root manager. -/
theorem markedChildren_of_root (children : List Node) :
    descriptor.markedChildren children =
      children.filter (fun child => !child.isNamedIn managedTags) ++
        (descriptor.outputElements ++ [Element.make "exclude-output" []]).map
          (Node.ofElement · "") ++
        contentNode (children.find? (Node.isNamed "content")) content ::
          descriptor.orderElements.map (Node.ofElement · "") := by
  rw [markedChildren, managedNodes, isRoot, List.append_assoc, List.append_assoc]
  rfl

theorem replaceFirst_content_markedChildren (children : List Node) :
    replaceFirst (Node.isNamed "content") (changedNode (excluding urls))
        (descriptor.markedChildren children) =
      (descriptor.withExcludes urls).markedChildren children := by
  have noContent : (children.filter (fun child => !child.isNamedIn managedTags) ++
      (descriptor.outputElements ++ [Element.make "exclude-output" []]).map
        (Node.ofElement · "")).filter (Node.isNamed "content") = [] := by
    rw [List.filter_append, filter_kept (by decide), filter_isNamed_map, List.filter_append,
      descriptor.filter_outputElements (by decide) (by decide)]
    rfl
  have isFirst : (contentNode (children.find? (Node.isNamed "content")) content).isNamed
      "content" = true :=
    isNamed_contentNode (isContent_find? children) content
  rw [descriptor.markedChildren_of_root isRoot,
    (descriptor.withExcludes urls).markedChildren_of_root
      (descriptor.root_withExcludes isRoot urls),
    replaceFirst_at_first (List.filter_eq_nil_iff.mp noContent) isFirst, changedNode_contentNode]
  rfl

theorem changedNode_writeNode {node : Node} (isFirst : isComponent rootManager node = true) :
    changedNode (changeChild (Node.isNamed "content") (excluding urls))
        (descriptor.writeNode node) =
      (descriptor.withExcludes urls).writeNode node := by
  obtain ⟨component, isElement⟩ := element?_of_isComponent isFirst
  rw [element?_writeNode _ isElement, element?_writeNode _ isElement, writeComponent_eq,
    writeComponent_eq, ← descriptor.replaceFirst_content_markedChildren isRoot urls]
  rfl

/-- Exchanging the excluded folders of a written tree is writing other ones. -/
theorem withExcludes_writeTo (root : Element) :
    IdeModules.withExcludes urls (descriptor.writeTo root) =
      (descriptor.withExcludes urls).writeTo root := by
  have children : replaceFirst (isComponent rootManager)
      (changedNode (changeChild (Node.isNamed "content") (excluding urls)))
      (descriptor.writeTo root).children =
        ((descriptor.withExcludes urls).writeTo root).children := by
    rw [writeTo, replaceFirst_replaceFirst descriptor.isComponent_written]
    exact replaceFirst_congr (fun _ => descriptor.changedNode_writeNode isRoot urls) _
  rw [IdeModules.withExcludes, changeChild, children]
  rfl

theorem withExcludes_withExcludes_writeTo (root : Element) :
    IdeModules.withExcludes content.excludedFolders
        (IdeModules.withExcludes urls (descriptor.writeTo root)) =
      descriptor.writeTo root := by
  have undone : (descriptor.withExcludes urls).withExcludes content.excludedFolders =
      descriptor := by
    obtain ⟨name, known, output, testOutput, inherits, jdkName, level, scopes, tree⟩ := descriptor
    obtain rfl := isRoot
    rfl
  rw [descriptor.withExcludes_writeTo isRoot,
    withExcludes_writeTo _ (descriptor.root_withExcludes isRoot urls), undone]

end Descriptor

/-! ## Rules -/

section Rules

variable {rules : TreeRules} {urls : List String}

theorem meets_changeChild {test : Node → Bool} {change : Element → Element}
    (changed : ∀ element : Element, element.Meets rules → (change element).Meets rules)
    {parent : Element} (meets : parent.Meets rules) :
    (changeChild test change parent).Meets rules := by
  obtain ⟨tagMeets, textMeets, childrenMeet⟩ := Element.meets_iff.mp meets
  refine Element.meets_iff.mpr ⟨tagMeets, textMeets, forall_mem_replaceFirst childrenMeet ?_⟩
  intro node member
  have nodeMeets := childrenMeet node member
  rw [changedNode]
  split
  · rename_i child isElement
    exact meets_ofElement.mpr
      ⟨changed child (Descriptor.meets_of_element? nodeMeets isElement), nodeMeets.tail⟩
  · exact nodeMeets

theorem meets_withExcludes (noText : rules.text "")
    (folders : ∀ url ∈ urls, (excludedFolderElement url).Meets rules) {root : Element}
    (meets : root.Meets rules) : (withExcludes urls root).Meets rules := by
  apply meets_changeChild _ meets
  intro component
  apply meets_changeChild
  intro content contentMeets
  obtain ⟨tagMeets, textMeets, childrenMeet⟩ := Element.meets_iff.mp contentMeets
  refine Element.meets_iff.mpr ⟨tagMeets, textMeets, ?_⟩
  rw [excluding, List.forall_mem_append, List.forall_mem_append, List.forall_mem_map]
  refine ⟨⟨?_, ?_⟩, ?_⟩
  · exact fun child member => childrenMeet child (List.mem_filter.mp member).1
  · exact fun url member => meets_ofElement.mpr ⟨folders url member, noText⟩
  · exact fun child member => childrenMeet child (List.mem_filter.mp member).1

end Rules

theorem legible_excludedFolderElement {url : String} (admitted : HasOnly isXmlChar url) :
    (excludedFolderElement url).Meets plainNames ∧
      (excludedFolderElement url).Meets admittedValues := by
  have isMade : (Node.ofElement (excludedFolderElement url) "").Meets (made isXmlChar) :=
    made_ofElement (made_make ["url"] (by decide) rfl (by simpa using admitted))
  exact ⟨(meets_ofElement.mp (plainNames_of_made isMade)).1,
    (meets_ofElement.mp (admittedValues_of_made isMade)).1⟩

end IdeModules
