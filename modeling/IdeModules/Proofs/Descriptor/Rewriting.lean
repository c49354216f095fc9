import IdeModules.Proofs.Descriptor.Writing
import IdeModules.Proofs.Xml.Indentation

/-!
# Writing a descriptor again

A tree that a descriptor has been written into does not change when the
descriptor is written into it again, also where the tree has been indented in
between: what writing makes anew is the same again, and what it keeps it finds
at its place.
-/

namespace IdeModules

open Xml

/-! ## Names of managed children -/

/-- Whether a content element, where there is one, is one by its name. -/
def IsContent (existing : Option Node) : Prop :=
  ∀ node, existing = some node → node.isNamed "content" = true

theorem isContent_find? (nodes : List Node) :
    IsContent (nodes.find? (Node.isNamed "content")) :=
  fun _ found => List.find?_some found

def startingContent (existing : Option Node) : Element :=
  (existing.bind Node.element?).getD (Element.make "content" [])

theorem name_startingContent {existing : Option Node} (isContent : IsContent existing) :
    (startingContent existing).name = Name.plain "content" := by
  cases existing with
  | none => rfl
  | some node =>
      have named := isContent node rfl
      cases node with
      | element name attributes text children tail =>
          exact of_decide_eq_true named
      | comment content tail => simp [Node.isNamed] at named

theorem name_library (library : Library) : library.element.name = Name.plain "orderEntry" := by
  cases library <;> rfl

namespace Descriptor

variable (descriptor : Descriptor)

theorem name_jdkElement : descriptor.jdkElement.name = Name.plain "orderEntry" := by
  unfold jdkElement
  split <;> rfl

theorem name_orderElements :
    ∀ element ∈ descriptor.orderElements, element.name = Name.plain "orderEntry" := by
  rw [orderElements, List.forall_mem_append, List.forall_mem_cons, List.forall_mem_singleton,
    List.forall_mem_map]
  exact ⟨⟨descriptor.name_jdkElement, rfl⟩, fun library _ => name_library library⟩

theorem name_outputElement {tag : String} {url : Option String} {element : Element}
    (member : element ∈ outputElements.outputElement tag url) :
    element.name = Name.plain tag := by
  obtain ⟨found, _, rfl⟩ := Option.map_eq_some_iff.mp (Option.mem_toList.mp member)
  rfl

end Descriptor

section ManagedNodes

variable {tag : String}

/-- The children of one name that elements make. -/
theorem filter_isNamed_map (tag : String) (elements : List Element) :
    (elements.map (Node.ofElement · "")).filter (Node.isNamed tag) =
      (elements.filter (·.name = Name.plain tag)).map (Node.ofElement · "") := by
  rw [List.filter_map]
  rfl

theorem filter_isNamed_of_forall (tag : String) {elements : List Element} {name : String}
    (named : ∀ element ∈ elements, element.name = Name.plain name) :
    (elements.map (Node.ofElement · "")).filter (Node.isNamed tag) =
      if name = tag then elements.map (Node.ofElement · "") else [] := by
  rw [filter_isNamed_map]
  by_cases same : name = tag
  · rw [if_pos same, List.filter_eq_self.mpr]
    intro element member
    simp [named element member, same]
  · rw [if_neg same, List.filter_eq_nil_iff.mpr, List.map_nil]
    intro element member
    simpa [named element member] using fun equal => same (plain_injective equal)

theorem isNamed_contentNode {existing : Option Node} (isContent : IsContent existing)
    (root : ContentRoot) :
    (contentNode existing root).isNamed tag = decide ("content" = tag) := by
  have named : (startingContent existing).name = Name.plain "content" :=
    name_startingContent isContent
  show decide ((startingContent existing).name = Name.plain tag) = decide ("content" = tag)
  rw [named]
  exact decide_eq_decide.mpr ⟨plain_injective, congrArg Name.plain⟩

/-- The children of a managed name among those that are kept. -/
theorem filter_kept {names : List String} (managed : tag ∈ names) (children : List Node) :
    (children.filter fun child => !child.isNamedIn names).filter (Node.isNamed tag) = [] := by
  rw [List.filter_filter, List.filter_eq_nil_iff]
  intro child _ both
  simp only [Bool.and_eq_true, Bool.not_eq_true', Node.isNamedIn] at both
  have named : (names.any fun name => child.isNamed name) = true :=
    List.any_eq_true.mpr ⟨tag, managed, both.1⟩
  exact absurd named (by simp [both.2])

end ManagedNodes

namespace Descriptor

variable (descriptor : Descriptor) {existing : Option Node} {tag : String}

theorem filter_managedNodes (isContent : IsContent existing) :
    (descriptor.managedNodes existing).filter (Node.isNamed tag) =
      (descriptor.outputElements.filter (·.name = Name.plain tag)).map (Node.ofElement · "") ++
      ((if "exclude-output" = tag then
          [Node.ofElement (Element.make "exclude-output" []) ""] else []) ++
      ((if "content" = tag then (descriptor.root.map (contentNode existing)).toList else []) ++
      if "orderEntry" = tag then
        descriptor.orderElements.map (Node.ofElement · "") else [])) := by
  have excluding : ([Element.make "exclude-output" []].map (Node.ofElement · "")).filter
      (Node.isNamed tag) =
      if "exclude-output" = tag then [Node.ofElement (Element.make "exclude-output" []) ""]
      else [] :=
    filter_isNamed_of_forall tag (by simp; rfl)
  have order := filter_isNamed_of_forall tag descriptor.name_orderElements
  have content : (descriptor.root.map (contentNode existing)).toList.filter (Node.isNamed tag) =
      if "content" = tag then (descriptor.root.map (contentNode existing)).toList else [] := by
    cases descriptor.root with
    | none => simp
    | some root =>
        by_cases same : "content" = tag
        · simp [isNamed_contentNode isContent, same]
        · simp [isNamed_contentNode isContent, same]
  rw [managedNodes, List.filter_append, List.filter_append, List.map_append, List.filter_append,
    content, filter_isNamed_map, excluding, order, List.append_assoc, List.append_assoc]

/-- The output directories of the managed children are named like none of the others. -/
theorem filter_outputElements (notOutput : tag ≠ "output") (notTest : tag ≠ "output-test") :
    descriptor.outputElements.filter (·.name = Name.plain tag) = [] := by
  rw [List.filter_eq_nil_iff]
  intro element member same
  rw [outputElements] at member
  split at member
  · simp at member
  · rcases List.mem_append.mp member with isOutput | isTest
    · rw [name_outputElement isOutput] at same
      exact notOutput (plain_injective (of_decide_eq_true same)).symm
    · rw [name_outputElement isTest] at same
      exact notTest (plain_injective (of_decide_eq_true same)).symm

theorem find?_content_managedNodes (isContent : IsContent existing) :
    (descriptor.managedNodes existing).find? (Node.isNamed "content") =
      descriptor.root.map (contentNode existing) := by
  rw [← List.head?_filter, descriptor.filter_managedNodes isContent,
    descriptor.filter_outputElements (by decide) (by decide)]
  cases descriptor.root <;> rfl

theorem isNamedIn_managedNodes (isContent : IsContent existing) :
    ∀ node ∈ descriptor.managedNodes existing, node.isNamedIn managedTags = true := by
  have plain : ∀ (elements : List Element) (name : String), name ∈ managedTags →
      (∀ element ∈ elements, element.name = Name.plain name) →
      ∀ node ∈ elements.map (Node.ofElement · ""), node.isNamedIn managedTags = true := by
    intro elements name managed named
    rw [List.forall_mem_map]
    intro element member
    exact List.any_eq_true.mpr ⟨name, managed, decide_eq_true (named element member)⟩
  have outputs : ∀ element ∈ descriptor.outputElements,
      (Node.ofElement element "").isNamedIn managedTags = true := by
    intro element member
    rw [outputElements] at member
    split at member
    · simp at member
    · rcases List.mem_append.mp member with isOutput | isTest
      · exact plain [element] "output" (by decide)
          (by simpa using name_outputElement isOutput) _ (by simp)
      · exact plain [element] "output-test" (by decide)
          (by simpa using name_outputElement isTest) _ (by simp)
  rw [managedNodes, List.forall_mem_append, List.forall_mem_append, List.map_append,
    List.forall_mem_append, List.forall_mem_map]
  refine ⟨⟨⟨outputs, ?_⟩, ?_⟩, ?_⟩
  · exact plain _ "exclude-output" (by decide) (by simp; rfl)
  · intro node member
    obtain ⟨root, _, rfl⟩ := Option.map_eq_some_iff.mp (Option.mem_toList.mp member)
    refine List.any_eq_true.mpr ⟨"content", by decide, ?_⟩
    rw [isNamed_contentNode isContent]
    rfl
  · exact plain _ "orderEntry" (by decide) descriptor.name_orderElements

theorem managedNodes_ne_nil : descriptor.managedNodes existing ≠ [] := by
  rw [managedNodes]
  simp

end Descriptor

/-! ## Writing twice -/

theorem contentNode_eq (existing : Option Node) (root : ContentRoot) :
    contentNode existing root =
      .element (startingContent existing).name
        (Keyed.put (Name.plain "url") (.text root.url) (startingContent existing).attributes) ""
        (root.folders.map (Node.ofElement · "") ++
          (startingContent existing).children.filter fun child => !child.isNamedIn folderTags)
        ((existing.map Node.tail).getD "") :=
  rfl

theorem isNamedIn_folders (root : ContentRoot) :
    ∀ node ∈ root.folders.map (Node.ofElement · ""), node.isNamedIn folderTags = true := by
  rw [List.forall_mem_map, ContentRoot.folders, List.forall_mem_append, List.forall_mem_map,
    List.forall_mem_map]
  exact ⟨fun _ _ => rfl, fun _ _ => rfl⟩

@[simp] theorem name_sourceFolder (folder : SourceFolder) :
    folder.element.name = Name.plain "sourceFolder" := rfl

@[simp] theorem name_excludedFolder (url : String) :
    (excludedFolderElement url).name = Name.plain "excludeFolder" := rfl

theorem filter_sourceFolder_folders (root : ContentRoot) :
    root.folders.filter (·.name = Name.plain "sourceFolder") =
      root.sourceFolders.map SourceFolder.element := by
  have differ : Name.plain "excludeFolder" ≠ Name.plain "sourceFolder" := by decide
  simp [ContentRoot.folders, List.filter_map, Function.comp_def, differ]

theorem filter_excludeFolder_folders (root : ContentRoot) :
    root.folders.filter (·.name = Name.plain "excludeFolder") =
      root.excludedFolders.map excludedFolderElement := by
  have differ : Name.plain "sourceFolder" ≠ Name.plain "excludeFolder" := by decide
  simp [ContentRoot.folders, List.filter_map, Function.comp_def, differ]

theorem filter_append_filter {test : α → Bool} {front items : List α}
    (dropped : ∀ item ∈ front, test item = true) :
    (front ++ items.filter fun item => !test item).filter (fun item => !test item) =
      items.filter fun item => !test item := by
  rw [List.filter_append, List.filter_filter, List.filter_eq_nil_iff.mpr, List.nil_append]
  · simp only [Bool.and_self]
  · intro item member
    simp [dropped item member]

theorem filter_filter_append {test : α → Bool} {items back : List α}
    (dropped : ∀ item ∈ back, test item = true) :
    (items.filter (fun item => !test item) ++ back).filter (fun item => !test item) =
      items.filter fun item => !test item := by
  have gone : back.filter (fun item => !test item) = [] := by
    rw [List.filter_eq_nil_iff]
    intro item member
    simp [dropped item member]
  rw [List.filter_append, gone, List.append_nil, List.filter_filter]
  simp only [Bool.and_self]

/-- A content root that is written over another one leaves nothing of that. -/
theorem contentNode_contentNode (existing : Option Node) (earlier root : ContentRoot) :
    contentNode (some (contentNode existing earlier)) root = contentNode existing root := by
  have written : startingContent (some (contentNode existing earlier)) =
      ⟨(startingContent existing).name,
        Keyed.put (Name.plain "url") (.text earlier.url) (startingContent existing).attributes, "",
        earlier.folders.map (Node.ofElement · "") ++
          (startingContent existing).children.filter fun child => !child.isNamedIn folderTags⟩ :=
    rfl
  rw [contentNode_eq, written, Keyed.put_put,
    filter_append_filter (isNamedIn_folders earlier)]
  rfl

namespace Descriptor

variable (descriptor : Descriptor)

def markedAttributes (entries : Attributes) : Attributes :=
  let inherits := Keyed.put (Name.plain "inherit-compiler-output")
    (.text (truthText descriptor.inheritsOutput)) entries
  match descriptor.languageLevel with
  | none => Keyed.erase (Name.plain "LANGUAGE_LEVEL") inherits
  | some level => Keyed.put (Name.plain "LANGUAGE_LEVEL") (.text level) inherits

/-- The children of a root manager that a descriptor has been written into. -/
def markedChildren (children : List Node) : List Node :=
  children.filter (fun child => !child.isNamedIn managedTags) ++
    descriptor.managedNodes (children.find? (Node.isNamed "content"))

theorem writeComponent_eq (component : Element) :
    descriptor.writeComponent component =
      { component with
        attributes := descriptor.markedAttributes component.attributes
        children := descriptor.markedChildren component.children } := by
  unfold writeComponent markedAttributes withLanguageLevel
  cases descriptor.languageLevel <;> rfl

theorem markedAttributes_markedAttributes (entries : Attributes) :
    descriptor.markedAttributes (descriptor.markedAttributes entries) =
      descriptor.markedAttributes entries := by
  unfold markedAttributes
  cases descriptor.languageLevel with
  | none =>
      have inherits : Keyed.get? (Name.plain "inherit-compiler-output")
          (Keyed.erase (Name.plain "LANGUAGE_LEVEL")
            (Keyed.put (Name.plain "inherit-compiler-output")
              (.text (truthText descriptor.inheritsOutput)) entries)) =
          some (.text (truthText descriptor.inheritsOutput)) := by
        rw [Keyed.get?_erase, if_neg (by decide), Keyed.get?_put_same]
      simp only [Keyed.put_of_get? inherits,
        Keyed.erase_of_get?_none (Keyed.get?_erase_same _ _)]
  | some level =>
      have inherits : Keyed.get? (Name.plain "inherit-compiler-output")
          (Keyed.put (Name.plain "LANGUAGE_LEVEL") (.text level)
            (Keyed.put (Name.plain "inherit-compiler-output")
              (.text (truthText descriptor.inheritsOutput)) entries)) =
          some (.text (truthText descriptor.inheritsOutput)) := by
        rw [Keyed.get?_put, if_neg (by decide), Keyed.get?_put_same]
      simp only [Keyed.put_of_get? inherits, Keyed.put_of_get? (Keyed.get?_put_same _ _ _)]

theorem managedNodes_managedNodes {earlier : Descriptor}
    (covered : descriptor.root.isSome = true → earlier.root.isSome = true)
    (existing : Option Node) :
    descriptor.managedNodes (earlier.root.map (contentNode existing)) =
      descriptor.managedNodes existing := by
  unfold managedNodes
  cases isRoot : descriptor.root with
  | none => rfl
  | some root =>
      obtain ⟨content, isContent⟩ := Option.isSome_iff_exists.mp (covered (by rw [isRoot]; rfl))
      simp only [isContent, Option.map_some, contentNode_contentNode]

theorem find?_content_markedChildren (children : List Node) :
    (descriptor.markedChildren children).find? (Node.isNamed "content") =
      descriptor.root.map (contentNode (children.find? (Node.isNamed "content"))) := by
  rw [markedChildren, List.find?_append, ← List.head?_filter, filter_kept (by decide),
    descriptor.find?_content_managedNodes (isContent_find? children)]
  rfl

/-- The children of a root manager that is written over another one. -/
theorem markedChildren_markedChildren {earlier : Descriptor}
    (covered : descriptor.root.isSome = true → earlier.root.isSome = true)
    (children : List Node) :
    descriptor.markedChildren (earlier.markedChildren children) =
      descriptor.markedChildren children := by
  have kept : (earlier.markedChildren children).filter
      (fun child => !child.isNamedIn managedTags) =
      children.filter fun child => !child.isNamedIn managedTags :=
    filter_filter_append (earlier.isNamedIn_managedNodes (isContent_find? children))
  rw [markedChildren, kept, find?_content_markedChildren,
    descriptor.managedNodes_managedNodes covered, ← markedChildren]

theorem writeComponent_writeComponent (component : Element) :
    descriptor.writeComponent (descriptor.writeComponent component) =
      descriptor.writeComponent component := by
  rw [writeComponent_eq, writeComponent_eq]
  simp only [markedAttributes_markedAttributes, descriptor.markedChildren_markedChildren id]

theorem element?_writeNode {node : Node} {component : Element}
    (isElement : node.element? = some component) :
    descriptor.writeNode node =
      Node.ofElement (descriptor.writeComponent component) node.tail := by
  rw [writeNode, isElement]

theorem attribute?_writeComponent {component : Element} {name : String}
    (notInherits : name ≠ "inherit-compiler-output") (notLevel : name ≠ "LANGUAGE_LEVEL") :
    (descriptor.writeComponent component).attribute? name = component.attribute? name := by
  have same : Keyed.get? (Name.plain name) (descriptor.markedAttributes component.attributes) =
      Keyed.get? (Name.plain name) component.attributes := by
    have inherits : Name.plain "inherit-compiler-output" ≠ Name.plain name := fun equal =>
      notInherits (plain_injective equal).symm
    have level : Name.plain "LANGUAGE_LEVEL" ≠ Name.plain name := fun equal =>
      notLevel (plain_injective equal).symm
    unfold markedAttributes
    cases descriptor.languageLevel with
    | none => simp only [Keyed.get?_erase, if_neg level, Keyed.get?_put, if_neg inherits]
    | some name => simp only [Keyed.get?_put, if_neg level, if_neg inherits]
  simp only [writeComponent_eq, Element.attribute?, same]

theorem isComponent_ofElement (name : String) (element : Element) (tail : String) :
    isComponent name (Node.ofElement element tail) =
      (decide (element.name = Name.plain "component") &&
        element.attribute? "name" == some name) :=
  rfl

theorem isComponent_writeNode (name : String) (node : Node) :
    isComponent name (descriptor.writeNode node) = isComponent name node := by
  cases isElement : node.element? with
  | none => rw [writeNode, isElement]
  | some component =>
      have unwritten : node = Node.ofElement component node.tail := by
        cases node with
        | element localName attributes text children tail =>
            obtain rfl := Option.some.inj isElement
            rfl
        | comment content tail => simp [Node.element?] at isElement
      have sameName : (descriptor.writeComponent component).name = component.name := by
        rw [writeComponent_eq]
      rw [descriptor.element?_writeNode isElement, isComponent_ofElement, sameName,
        descriptor.attribute?_writeComponent (by decide) (by decide), ← isComponent_ofElement,
        ← unwritten]

theorem writeNode_writeNode (node : Node) :
    descriptor.writeNode (descriptor.writeNode node) = descriptor.writeNode node := by
  cases isElement : node.element? with
  | none =>
      have same : descriptor.writeNode node = node := by rw [writeNode, isElement]
      rw [same, same]
  | some component =>
      have written := descriptor.element?_writeNode isElement
      have isWritten : (Node.ofElement (descriptor.writeComponent component) node.tail).element? =
          some (descriptor.writeComponent component) := rfl
      rw [written, descriptor.element?_writeNode isWritten, writeComponent_writeComponent]
      rfl

theorem any_withRootManager (root : Element) :
    (withRootManager root).children.any (isComponent rootManager) = true := by
  unfold withRootManager
  split
  · assumption
  · rfl

theorem withRootManager_of_any {root : Element}
    (has : root.children.any (isComponent rootManager) = true) : withRootManager root = root :=
  if_pos has

theorem writeTo_writeTo (root : Element) :
    descriptor.writeTo (descriptor.writeTo root) = descriptor.writeTo root := by
  have passes : ∀ node, isComponent rootManager node = true →
      isComponent rootManager (descriptor.writeNode node) = true := fun node isFirst =>
    (descriptor.isComponent_writeNode rootManager node).trans isFirst
  have has : (descriptor.writeTo root).children.any (isComponent rootManager) = true := by
    rw [writeTo, any_replaceFirst passes, any_withRootManager]
  have again : descriptor.writeNode ∘ descriptor.writeNode = descriptor.writeNode :=
    funext descriptor.writeNode_writeNode
  rw [writeTo, withRootManager_of_any has]
  simp only [writeTo]
  rw [replaceFirst_replaceFirst passes, again]

end Descriptor

/-! ## Writing into an indented tree -/

/-- Elements of one tag are indented alike if their children are, and their texts as far as
there are children. -/
theorem alikeAt_element {depth : Nat} {name : Name} {attributes : Attributes}
    {leftText rightText leftTail rightTail : String} {lefts rights : List Node}
    (children : List.Forall₂ (AlikeAt (depth + 1)) lefts rights)
    (texts : leftText = rightText ∨
      rights ≠ [] ∧ ∀ depth, orIndent leftText depth = orIndent rightText depth)
    (tails : ∀ depth, orIndent leftTail depth = orIndent rightTail depth) :
    AlikeAt depth (.element name attributes leftText lefts leftTail)
      (.element name attributes rightText rights rightTail) := by
  have inner := indentNodes_congr children
  have empties : lefts.isEmpty = rights.isEmpty := by
    rw [← isEmpty_indentNodes (depth + 1) lefts, inner, isEmpty_indentNodes]
  intro isLast
  rw [indentNode, indentNode, inner, empties, tails]
  rcases texts with rfl | ⟨nonempty, texts⟩
  · rfl
  · have notEmpty : ¬rights.isEmpty = true := by simpa using nonempty
    rw [if_neg notEmpty, if_neg notEmpty, texts]

theorem filter_indented (names : List String) {depth : Nat} {lefts rights : List Node}
    (indented : List.Forall₂ (IsIndented depth) lefts rights) :
    List.Forall₂ (IsIndented depth) (lefts.filter fun child => !child.isNamedIn names)
      (rights.filter fun child => !child.isNamedIn names) := by
  refine List.rel_filter ?_ indented
  intro left right isIndented
  simp only [isIndented.isNamedIn]

theorem forall₂_alikeAt_refl (depth : Nat) (nodes : List Node) :
    List.Forall₂ (AlikeAt depth) nodes nodes :=
  List.forall₂_same.mpr fun node _ => AlikeAt.refl depth node

theorem alikeAt_contentNode {depth : Nat} {indented existing : Option Node}
    (isIndented : Option.Rel (IsIndented depth) indented existing) (root : ContentRoot) :
    AlikeAt depth (contentNode indented root) (contentNode existing root) := by
  cases isIndented with
  | none => exact AlikeAt.refl depth _
  | some indentedNode =>
      rename_i left right
      obtain ⟨isLast, rfl⟩ := indentedNode
      cases right with
      | element name attributes text children tail =>
          refine alikeAt_element ?_ (.inl rfl) fun depth => orIndent_orIndent tail depth _
          apply List.rel_append (forall₂_alikeAt_refl (depth + 1) _)
          exact (filter_indented _ (forall₂_indentNodes (depth + 1) children)).imp
            fun _ _ => IsIndented.alike
      | comment content tail =>
          exact alikeAt_element (forall₂_alikeAt_refl (depth + 1) _) (.inl rfl)
            fun depth => orIndent_orIndent tail depth _

namespace Descriptor

variable (descriptor : Descriptor)

theorem alikeAt_managedNodes {depth : Nat} {indented existing : Option Node}
    (isIndented : Option.Rel (IsIndented depth) indented existing) :
    List.Forall₂ (AlikeAt depth) (descriptor.managedNodes indented)
      (descriptor.managedNodes existing) := by
  have content : List.Forall₂ (AlikeAt depth)
      (descriptor.root.map (contentNode indented)).toList
      (descriptor.root.map (contentNode existing)).toList := by
    cases descriptor.root with
    | none => exact .nil
    | some root => exact .cons (alikeAt_contentNode isIndented root) .nil
  exact List.rel_append (List.rel_append (forall₂_alikeAt_refl depth _) content)
    (forall₂_alikeAt_refl depth _)

theorem alikeAt_markedChildren {depth : Nat} {lefts rights : List Node}
    (indented : List.Forall₂ (IsIndented depth) lefts rights) :
    List.Forall₂ (AlikeAt depth) (descriptor.markedChildren lefts)
      (descriptor.markedChildren rights) := by
  have kept := (filter_indented managedTags indented).imp fun _ _ => IsIndented.alike
  have content := forall₂_find? (fun _ _ isIndented => isIndented.isNamed "content") indented
  exact List.rel_append kept (descriptor.alikeAt_managedNodes content)

theorem markedChildren_ne_nil (children : List Node) :
    descriptor.markedChildren children ≠ [] :=
  List.append_ne_nil_of_right_ne_nil _ descriptor.managedNodes_ne_nil

theorem alikeAt_writeNode {depth : Nat} {indented node : Node}
    (isIndented : IsIndented depth indented node) :
    AlikeAt depth (descriptor.writeNode indented) (descriptor.writeNode node) := by
  obtain ⟨isLast, rfl⟩ := isIndented
  cases node with
  | element name attributes text children tail =>
      rw [indentNode, writeNode, writeNode]
      simp only [Node.element?, writeComponent_eq, Node.ofElement, Node.tail]
      refine alikeAt_element
        (descriptor.alikeAt_markedChildren (forall₂_indentNodes (depth + 1) children))
        (.inr ⟨descriptor.markedChildren_ne_nil children, ?_⟩) fun depth =>
          orIndent_orIndent tail depth _
      intro depth
      split
      · rfl
      · exact orIndent_orIndent text depth _
  | comment content tail => exact IsIndented.alike ⟨isLast, rfl⟩

theorem isComponent_of_indented {depth : Nat} {indented node : Node}
    (isIndented : IsIndented depth indented node) (name : String) :
    isComponent name indented = isComponent name node := by
  obtain ⟨isLast, rfl⟩ := isIndented
  cases node <;> rfl

theorem alikeAt_writeTo (root : Element) :
    List.Forall₂ (AlikeAt 1) (descriptor.writeTo root.indent).children
      (descriptor.writeTo root).children := by
  have indented := forall₂_indentNodes 1 root.children
  have has : (indentNodes 1 root.children).any (isComponent rootManager) =
      root.children.any (isComponent rootManager) :=
    any_indentNodes (fun _ _ isIndented => isComponent_of_indented isIndented rootManager) _
  unfold writeTo withRootManager
  simp only [Element.indent, has]
  split
  · refine forall₂_replaceFirst ?_ ?_ ?_ indented
    · exact fun left right isIndented => isComponent_of_indented isIndented rootManager
    · exact fun left right isIndented _ => descriptor.alikeAt_writeNode isIndented
    · exact fun left right isIndented => isIndented.alike
  · have isFirst : isComponent rootManager (Node.ofElement
        (Element.make "component" [("name", rootManager)]) "") = true := rfl
    rw [replaceFirst, replaceFirst, if_pos isFirst, if_pos isFirst]
    exact .cons (AlikeAt.refl 1 _) (indented.imp fun _ _ => IsIndented.alike)

theorem children_writeTo_ne_nil (root : Element) : (descriptor.writeTo root).children ≠ [] := by
  apply replaceFirst_ne_nil
  intro empty
  have has := any_withRootManager root
  rw [empty] at has
  exact Bool.false_ne_true has

theorem name_writeTo (root : Element) : (descriptor.writeTo root).name = root.name := by
  unfold writeTo withRootManager
  split <;> rfl

theorem attributes_writeTo (root : Element) :
    (descriptor.writeTo root).attributes = root.attributes := by
  unfold writeTo withRootManager
  split <;> rfl

theorem text_writeTo (root : Element) : (descriptor.writeTo root).text = root.text := by
  unfold writeTo withRootManager
  split <;> rfl

theorem orIndent_text_indent (root : Element) (depth : Nat) :
    orIndent root.indent.text depth = orIndent root.text depth := by
  rw [Element.indent]
  split
  · rfl
  · exact orIndent_orIndent root.text depth 1

theorem indent_writeTo (root : Element) :
    (descriptor.writeTo root).indent =
      ⟨root.name, root.attributes, orIndent root.text 1,
        indentNodes 1 (descriptor.writeTo root).children⟩ := by
  have notEmpty : ¬(descriptor.writeTo root).children.isEmpty = true := by
    simpa using descriptor.children_writeTo_ne_nil root
  rw [Element.indent, if_neg notEmpty, name_writeTo, attributes_writeTo, text_writeTo]

/-- Indentation before writing does not show in the indented tree. -/
theorem indent_writeTo_indent (root : Element) :
    (descriptor.writeTo root.indent).indent = (descriptor.writeTo root).indent := by
  rw [indent_writeTo, indent_writeTo, orIndent_text_indent,
    indentNodes_congr (descriptor.alikeAt_writeTo root)]
  rfl

/-- A written and indented tree stays as it is when the descriptor is written again. -/
theorem indent_writeTo_indent_writeTo (root : Element) :
    (descriptor.writeTo (descriptor.writeTo root).indent).indent =
      (descriptor.writeTo root).indent := by
  rw [indent_writeTo_indent, writeTo_writeTo]

end Descriptor

end IdeModules
