import IdeModules.Descriptor.Reading
import IdeModules.Proofs.Xml.Indentation

/-!
# Texts that descriptors do not read

A descriptor is read from names, attributes and the order of children.  A tree
with other texts, such as an indented one, gives the same descriptor.
-/

namespace IdeModules

open Xml

section Texts

variable (text : String → String)

@[simp] theorem Xml.attributes_ofTexts (entries : Attributes) :
    (PartChange.ofTexts text).attributes entries = entries :=
  PartChange.attributes_untouched fun _ _ => rfl

@[simp] theorem Xml.attribute?_ofTexts (element : Element) (name : String) :
    (element.change (.ofTexts text)).attribute? name = element.attribute? name := by
  simp [Element.attribute?, Element.change]

theorem Xml.filter_changed (change : PartChange) {test : Node → Bool}
    (same : ∀ node, test (node.change change) = test node) (nodes : List Node) :
    (nodes.map (Node.change change)).filter test =
      (nodes.filter test).map (Node.change change) := by
  rw [List.filter_map]
  congr 1
  exact List.filter_congr fun node _ => same node

@[simp] theorem Xml.childrenNamed_change (change : PartChange) (element : Element)
    (name : String) :
    (element.change change).childrenNamed name =
      (element.childrenNamed name).map (Element.change change) := by
  simp only [Element.childrenNamed, Element.change, changeNodes_eq_map]
  rw [filter_changed change (isNamed_change name), List.filterMap_map, List.map_filterMap]
  congr 1
  funext node
  exact element?_change node

@[simp] theorem Xml.child?_change (change : PartChange) (element : Element) (name : String) :
    (element.change change).child? name =
      (element.child? name).map (Element.change change) := by
  rw [Element.child?, Element.child?, childrenNamed_change, List.head?_map]

theorem isComponent_ofTexts (name : String) (node : Node) :
    isComponent name (node.change (.ofTexts text)) = isComponent name node := by
  unfold isComponent
  rw [isNamed_change, element?_change]
  cases node.element? <;> simp

theorem component?_ofTexts (root : Element) (name : String) :
    component? (root.change (.ofTexts text)) name =
      (component? root name).map (Element.change (.ofTexts text)) := by
  have found : (root.children.map (Node.change (.ofTexts text))).find? (isComponent name) =
      (root.children.find? (isComponent name)).map (Node.change (.ofTexts text)) := by
    rw [← List.head?_filter, ← List.head?_filter,
      filter_changed _ (isComponent_ofTexts text name), List.head?_map]
  simp only [component?, Element.change, changeNodes_eq_map, found]
  cases root.children.find? (isComponent name) with
  | none => rfl
  | some node => exact element?_change node

/-! ## Parts of a descriptor -/

theorem rootUrls_ofTexts (library : Element) (kind : String) :
    rootUrls (library.change (.ofTexts text)) kind = rootUrls library kind := by
  unfold rootUrls
  rw [child?_change]
  cases library.child? kind with
  | none => rfl
  | some group => simp [List.filterMap_map]

theorem moduleLibraryOf_ofTexts (scope : String) (entry : Element) :
    moduleLibraryOf scope (entry.change (.ofTexts text)) = moduleLibraryOf scope entry := by
  unfold moduleLibraryOf
  rw [child?_change]
  cases entry.child? "library" with
  | none => rfl
  | some library => simp [rootUrls_ofTexts]

theorem libraryOf_ofTexts (entry : Element) :
    libraryOf (entry.change (.ofTexts text)) = libraryOf entry := by
  simp only [libraryOf, scopeOf, attribute?_ofTexts, moduleLibraryOf_ofTexts]

theorem isJdkEntry_ofTexts (entry : Element) :
    isJdkEntry (entry.change (.ofTexts text)) = isJdkEntry entry := by
  rw [isJdkEntry, attribute?_ofTexts, isJdkEntry]

theorem contentRootOf_ofTexts (content : Element) :
    contentRootOf (content.change (.ofTexts text)) = contentRootOf content := by
  have folders : sourceFolderOf ∘ Element.change (.ofTexts text) = sourceFolderOf := by
    funext folder
    simp only [Function.comp_apply, sourceFolderOf, attribute?_ofTexts]
  simp [contentRootOf, folders, Function.comp_def]

theorem jdkNameOf_ofTexts (entries : List Element) :
    Descriptor.jdkNameOf (entries.map (Element.change (.ofTexts text))) =
      Descriptor.jdkNameOf entries := by
  unfold Descriptor.jdkNameOf
  rw [List.filter_map, List.map_map]
  simp only [Function.comp_def, isJdkEntry_ofTexts, attribute?_ofTexts]

/-! ## Descriptors -/

theorem ofComponent_ofTexts (name : Json.Value) (root component : Element) :
    Descriptor.ofComponent name (root.change (.ofTexts text))
        (component.change (.ofTexts text)) =
      { Descriptor.ofComponent name root component with
        tree := some (root.change (.ofTexts text)) } := by
  simp only [Descriptor.ofComponent, childrenNamed_change, child?_change, attribute?_ofTexts,
    jdkNameOf_ofTexts, List.filterMap_map, Function.comp_def, libraryOf_ofTexts, Option.map_map,
    contentRootOf_ofTexts, Option.bind_map]

theorem ofElement_ofTexts (name : Json.Value) (root : Element) :
    Descriptor.ofElement name (root.change (.ofTexts text)) =
      { Descriptor.ofElement name root with tree := some (root.change (.ofTexts text)) } := by
  unfold Descriptor.ofElement
  rw [component?_ofTexts]
  cases component? root rootManager with
  | none => rfl
  | some component => exact ofComponent_ofTexts text name root component

end Texts

namespace Descriptor

/-- A descriptor apart from its tree. -/
def withoutTree (descriptor : Descriptor) : Descriptor :=
  { descriptor with tree := none }

theorem tree_ofElement (name : Json.Value) (root : Element) :
    (ofElement name root).tree = some root := by
  unfold ofElement
  split <;> rfl

theorem jdkName_ofElement (name : Json.Value) (root : Element) :
    (ofElement name root).jdkName = .null ∨
      ∃ text, (ofElement name root).jdkName = .str text := by
  unfold ofElement
  split
  · exact .inl rfl
  · show jdkNameOf _ = .null ∨ ∃ text, jdkNameOf _ = .str text
    unfold jdkNameOf
    split
    · exact .inr ⟨_, rfl⟩
    · exact .inl rfl

/-- Trees that differ in their texts only give the same descriptor. -/
theorem withoutTree_ofElement {left right : Element}
    (same : left.change withoutTexts = right.change withoutTexts) (name : Json.Value) :
    (ofElement name left).withoutTree = (ofElement name right).withoutTree := by
  have unchanged : ∀ root : Element, (ofElement name (root.change withoutTexts)).withoutTree =
      (ofElement name root).withoutTree := by
    intro root
    rw [withoutTexts, ofElement_ofTexts]
    rfl
  rw [← unchanged left, same, unchanged]

end Descriptor

end IdeModules
