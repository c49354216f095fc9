import IdeModules.Proofs.Descriptor.Reading
import IdeModules.Proofs.Descriptor.Rewriting

/-!
# What writing leaves alone

Writing a descriptor touches the first root manager only, and of it the managed
attributes and children.  Everything else of a tree stays, at every depth and in
its order; texts are not part of this, since indenting may change them.
-/

namespace IdeModules

open Xml

/-! ## The root manager of a written tree -/

/-- The root manager that writing starts from. -/
def startingComponent (root : Element) : Element :=
  (component? root rootManager).getD (Element.make "component" [("name", rootManager)])

theorem element?_of_isComponent {name : String} {node : Node}
    (isFirst : isComponent name node = true) : ∃ component, node.element? = some component := by
  cases node with
  | element localName attributes text children tail => exact ⟨_, rfl⟩
  | comment content tail => simp [isComponent, Node.isNamed] at isFirst

theorem component?_eq_some {root : Element} {name : String} {node : Node}
    (found : root.children.find? (isComponent name) = some node) :
    component? root name = node.element? := by
  rw [component?, found]
  rfl

/-- The first root manager of a tree that has been prepared for writing. -/
theorem find?_withRootManager (root : Element) :
    ∃ node, (Descriptor.withRootManager root).children.find? (isComponent rootManager) =
        some node ∧ node.element? = some (startingComponent root) := by
  cases found : root.children.find? (isComponent rootManager) with
  | some node =>
      obtain ⟨component, isElement⟩ := element?_of_isComponent (List.find?_some found)
      have has : root.children.any (isComponent rootManager) = true :=
        List.any_eq_true.mpr
          ⟨node, List.mem_of_find?_eq_some found, List.find?_some found⟩
      refine ⟨node, ?_, ?_⟩
      · rw [Descriptor.withRootManager_of_any has, found]
      · rw [startingComponent, component?_eq_some found, isElement]
        rfl
  | none =>
      have hasNone : ¬root.children.any (isComponent rootManager) = true := by
        simpa using List.find?_eq_none.mp found
      refine ⟨Node.ofElement (Element.make "component" [("name", rootManager)]) "", ?_, ?_⟩
      · rw [Descriptor.withRootManager, if_neg hasNone]
        rfl
      · rw [startingComponent, component?, found]
        rfl

namespace Descriptor

variable (descriptor : Descriptor)

theorem isComponent_written (node : Node) (isFirst : isComponent rootManager node = true) :
    isComponent rootManager (descriptor.writeNode node) = true :=
  (descriptor.isComponent_writeNode rootManager node).trans isFirst

theorem component?_writeTo (root : Element) :
    component? (descriptor.writeTo root) rootManager =
      some (descriptor.writeComponent (startingComponent root)) := by
  obtain ⟨node, found, isElement⟩ := find?_withRootManager root
  have written : (descriptor.writeTo root).children.find? (isComponent rootManager) =
      some (descriptor.writeNode node) := by
    rw [writeTo, find?_replaceFirst descriptor.isComponent_written, found]
    rfl
  rw [component?_eq_some written, descriptor.element?_writeNode isElement]
  rfl

/-- The children beside the root manager are those of the tree. -/
theorem eraseP_writeTo (root : Element) :
    (descriptor.writeTo root).children.eraseP (isComponent rootManager) =
      root.children.eraseP (isComponent rootManager) := by
  rw [writeTo, eraseP_replaceFirst descriptor.isComponent_written, withRootManager]
  split
  · rfl
  · rename_i hasNone
    have noneHere : ∀ node ∈ root.children, ¬isComponent rootManager node = true := by
      simpa using hasNone
    rw [List.eraseP_cons_of_pos rfl, List.eraseP_of_forall_not noneHere]

theorem findIdx_writeTo (root : Element) :
    (descriptor.writeTo root).children.findIdx (isComponent rootManager) =
      if root.children.any (isComponent rootManager) then
        root.children.findIdx (isComponent rootManager)
      else 0 := by
  rw [writeTo, findIdx_replaceFirst descriptor.isComponent_written, withRootManager]
  split <;> rfl

end Descriptor

/-! ## Kept parts -/

def bare (nodes : List Node) : List Node :=
  nodes.map (Node.change withoutTexts)

/-- Whether a name is none of some plain names. -/
def isBeside (names : List String) (name : Name) : Bool :=
  !(names.map Name.plain).contains name

/-- Attributes apart from those with some plain names. -/
def attributesBeside (names : List String) (entries : Attributes) : Attributes :=
  entries.filter fun entry => isBeside names entry.1

/-- Children apart from those with some plain names, without texts. -/
def childrenBeside (names : List String) (nodes : List Node) : List Node :=
  bare (nodes.filter fun child => !child.isNamedIn names)

/-- What a content element keeps: attributes other than its URL, and children other than its
folders. -/
structure KeepsContent (before after : Element) : Prop where
  attributes : attributesBeside ["url"] after.attributes =
    attributesBeside ["url"] before.attributes
  children : childrenBeside folderTags after.children = childrenBeside folderTags before.children

/-- What a root manager keeps: attributes and children that are not managed, and its first
content element. -/
structure KeepsComponent (before after : Element) : Prop where
  attributes : attributesBeside ["inherit-compiler-output", "LANGUAGE_LEVEL"] after.attributes =
    attributesBeside ["inherit-compiler-output", "LANGUAGE_LEVEL"] before.attributes
  children : childrenBeside managedTags after.children =
    childrenBeside managedTags before.children
  content : ∀ old, before.child? "content" = some old →
    ∃ new, after.child? "content" = some new ∧ KeepsContent old new

/-- What a tree keeps: the attributes of the root, its children beside the first root manager,
and what is not managed of that; a tree without one gets one as its first child. -/
structure KeepsUnmanaged (before after : Element) : Prop where
  attributes : after.attributes = before.attributes
  others : bare (after.children.eraseP (isComponent rootManager)) =
    bare (before.children.eraseP (isComponent rootManager))
  place : after.children.findIdx (isComponent rootManager) =
    if before.children.any (isComponent rootManager) then
      before.children.findIdx (isComponent rootManager)
    else 0
  component : ∃ managed, component? after rootManager = some managed ∧
    KeepsComponent (startingComponent before) managed

theorem isBeside_of_mem {names : List String} {name : String} (known : name ∈ names) :
    isBeside names (Name.plain name) = false := by
  simpa [isBeside] using ⟨name, known, rfl⟩

theorem attributesBeside_put {names : List String} {name : String} (known : name ∈ names)
    (value : AttributeValue) (entries : Attributes) :
    attributesBeside names (Keyed.put (Name.plain name) value entries) =
      attributesBeside names entries :=
  Keyed.filter_put (isBeside_of_mem known) value entries

theorem attributesBeside_erase {names : List String} {name : String} (known : name ∈ names)
    (entries : Attributes) :
    attributesBeside names (Keyed.erase (Name.plain name) entries) =
      attributesBeside names entries :=
  Keyed.filter_erase (isBeside_of_mem known) entries

theorem childrenBeside_append {names : List String} {managed : List Node}
    (areManaged : ∀ node ∈ managed, node.isNamedIn names = true) (children : List Node) :
    childrenBeside names (children.filter (fun child => !child.isNamedIn names) ++ managed) =
      childrenBeside names children := by
  rw [childrenBeside, filter_filter_append areManaged, childrenBeside]

/-! ## Writing keeps them -/

theorem keepsContent_contentNode (node : Node) (root : ContentRoot) :
    KeepsContent (startingContent (some node)) (startingContent
      (some (contentNode (some node) root))) := by
  constructor
  · exact attributesBeside_put (by simp) _ _
  · show childrenBeside folderTags (root.folders.map (Node.ofElement · "") ++
      (startingContent (some node)).children.filter fun child =>
        !child.isNamedIn folderTags) = _
    rw [childrenBeside, filter_append_filter (isNamedIn_folders root), childrenBeside]

theorem child?_eq_find? (element : Element) (name : String) :
    element.child? name = (element.children.find? (Node.isNamed name)).bind Node.element? := by
  obtain ⟨elementName, attributes, text, children⟩ := element
  induction children with
  | nil => rfl
  | cons node rest ih =>
      simp only [Element.child?, Element.childrenNamed] at ih ⊢
      cases named : node.isNamed name with
      | false =>
          rw [List.filter_cons_of_neg (by simp [named]), ih,
            List.find?_cons_of_neg (by simp [named])]
      | true =>
          rw [List.filter_cons_of_pos named, List.find?_cons_of_pos named]
          cases node with
          | element localName attributes text children tail => rfl
          | comment content tail => simp [Node.isNamed] at named

namespace Descriptor

variable (descriptor : Descriptor)

theorem attributesBeside_markedAttributes (entries : Attributes) :
    attributesBeside ["inherit-compiler-output", "LANGUAGE_LEVEL"]
        (descriptor.markedAttributes entries) =
      attributesBeside ["inherit-compiler-output", "LANGUAGE_LEVEL"] entries := by
  unfold markedAttributes
  cases descriptor.languageLevel with
  | none => rw [attributesBeside_erase (by simp), attributesBeside_put (by simp)]
  | some level => rw [attributesBeside_put (by simp), attributesBeside_put (by simp)]

theorem keepsComponent_writeComponent (hasRoot : descriptor.root.isSome = true)
    (component : Element) :
    KeepsComponent component (descriptor.writeComponent component) := by
  rw [writeComponent_eq]
  constructor
  · exact descriptor.attributesBeside_markedAttributes component.attributes
  · exact childrenBeside_append
      (descriptor.isNamedIn_managedNodes (isContent_find? component.children))
      component.children
  · intro old isOld
    rw [child?_eq_find?] at isOld
    obtain ⟨node, found, isElement⟩ := Option.bind_eq_some_iff.mp isOld
    obtain ⟨root, isRoot⟩ := Option.isSome_iff_exists.mp hasRoot
    have starting : startingContent (some node) = old := by
      rw [startingContent, Option.bind_some, isElement]
      rfl
    refine ⟨startingContent (some (contentNode (some node) root)), ?_, ?_⟩
    · rw [child?_eq_find?]
      simp only [find?_content_markedChildren, isRoot, found]
      rfl
    · rw [← starting]
      exact keepsContent_contentNode node root

/-- Writing keeps what is not managed. -/
theorem keepsUnmanaged_writeTo (hasRoot : descriptor.root.isSome = true) (root : Element) :
    KeepsUnmanaged root (descriptor.writeTo root) where
  attributes := descriptor.attributes_writeTo root
  others := congrArg bare (descriptor.eraseP_writeTo root)
  place := descriptor.findIdx_writeTo root
  component := ⟨_, descriptor.component?_writeTo root,
    descriptor.keepsComponent_writeComponent hasRoot _⟩

end Descriptor

/-! ## Other texts -/

section Texts

variable (text : String → String)

theorem bare_map (nodes : List Node) :
    bare (nodes.map (Node.change (.ofTexts text))) = bare nodes := by
  rw [bare, List.map_map]
  exact List.map_congr_left fun node _ => node.change_change

theorem childrenBeside_change (names : List String) (element : Element) :
    childrenBeside names (element.change (.ofTexts text)).children =
      childrenBeside names element.children := by
  simp only [Element.change, changeNodes_eq_map, childrenBeside]
  rw [filter_changed, bare_map]
  intro node
  rw [isNamedIn_change]

theorem attributes_change (element : Element) :
    (element.change (.ofTexts text)).attributes = element.attributes := by
  rw [Element.change, attributes_ofTexts]

variable {before after : Element}

theorem keepsContent_change_iff :
    KeepsContent before (after.change (.ofTexts text)) ↔ KeepsContent before after := by
  constructor
  · rintro ⟨attributes, children⟩
    rw [attributes_change] at attributes
    rw [childrenBeside_change] at children
    exact ⟨attributes, children⟩
  · rintro ⟨attributes, children⟩
    constructor
    · rw [attributes_change, attributes]
    · rw [childrenBeside_change, children]

theorem keepsComponent_change_iff :
    KeepsComponent before (after.change (.ofTexts text)) ↔ KeepsComponent before after := by
  constructor
  · rintro ⟨attributes, children, content⟩
    rw [attributes_change] at attributes
    rw [childrenBeside_change] at children
    refine ⟨attributes, children, ?_⟩
    intro old isOld
    obtain ⟨new, isNew, keeps⟩ := content old isOld
    rw [child?_change] at isNew
    obtain ⟨bareNew, found, rfl⟩ := Option.map_eq_some_iff.mp isNew
    exact ⟨bareNew, found, (keepsContent_change_iff text).mp keeps⟩
  · rintro ⟨attributes, children, content⟩
    constructor
    · rw [attributes_change, attributes]
    · rw [childrenBeside_change, children]
    · intro old isOld
      obtain ⟨new, isNew, keeps⟩ := content old isOld
      refine ⟨new.change (.ofTexts text), ?_, (keepsContent_change_iff text).mpr keeps⟩
      rw [child?_change, isNew]
      rfl

/-- What a tree keeps shows in the tree with other texts. -/
theorem keepsUnmanaged_change_iff :
    KeepsUnmanaged before (after.change (.ofTexts text)) ↔ KeepsUnmanaged before after := by
  have same : isComponent rootManager ∘ Node.change (.ofTexts text) =
      isComponent rootManager := funext (isComponent_ofTexts text rootManager)
  have others : bare ((after.change (.ofTexts text)).children.eraseP
      (isComponent rootManager)) = bare (after.children.eraseP (isComponent rootManager)) := by
    rw [Element.change, changeNodes_eq_map, List.eraseP_map, same, bare_map]
  have place : (after.change (.ofTexts text)).children.findIdx (isComponent rootManager) =
      after.children.findIdx (isComponent rootManager) := by
    rw [Element.change, changeNodes_eq_map, List.findIdx_map, same]
  constructor
  · rintro ⟨attributes, keptOthers, keptPlace, managed, found, keeps⟩
    rw [attributes_change] at attributes
    rw [component?_ofTexts] at found
    obtain ⟨bareManaged, isManaged, rfl⟩ := Option.map_eq_some_iff.mp found
    exact ⟨attributes, others ▸ keptOthers, place ▸ keptPlace, bareManaged, isManaged,
      (keepsComponent_change_iff text).mp keeps⟩
  · rintro ⟨attributes, keptOthers, keptPlace, managed, found, keeps⟩
    refine ⟨?_, others.trans keptOthers, place.trans keptPlace, managed.change (.ofTexts text),
      ?_, (keepsComponent_change_iff text).mpr keeps⟩
    · rw [attributes_change, attributes]
    · rw [component?_ofTexts, found]
      rfl

theorem KeepsUnmanaged.of_same {left right : Element} (keeps : KeepsUnmanaged before left)
    (same : left.change withoutTexts = right.change withoutTexts) :
    KeepsUnmanaged before right := by
  rw [← keepsUnmanaged_change_iff fun _ => ""] at keeps ⊢
  exact same ▸ keeps

end Texts

end IdeModules
