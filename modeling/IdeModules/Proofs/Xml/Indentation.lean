import IdeModules.Proofs.Related
import IdeModules.Proofs.Xml.Trees
import IdeModules.Xml.Indent

/-!
# Indenting again

Indenting a tree that is indented already gives the same tree as indenting it
once, also where children have been added or taken away in between.  Indenting
only sets texts, so that a tree without its texts does not show it.
-/

namespace IdeModules.Xml

/-! ## Texts -/

theorem allBlank_lineIndent (depth : Nat) : allBlank (lineIndent depth) = true := by
  rw [allBlank, lineIndent, String.toList_ofList, List.all_cons, List.all_replicate]
  split <;> decide

@[simp] theorem orIndent_orIndent (text : String) (depth other : Nat) :
    orIndent (orIndent text other) depth = orIndent text depth := by
  unfold orIndent
  by_cases blank : allBlank text = true
  · simp [blank, allBlank_lineIndent]
  · simp [blank]

/-! ## Nodes -/

theorem isEmpty_indentNodes (depth : Nat) (nodes : List Node) :
    (indentNodes depth nodes).isEmpty = nodes.isEmpty := by
  cases nodes <;> rfl

/-- Whether a node is another one that has been indented to a depth. -/
def IsIndented (depth : Nat) (indented node : Node) : Prop :=
  ∃ isLast, indented = indentNode depth isLast node

/-- Whether two nodes are the same once they are indented to a depth. -/
def AlikeAt (depth : Nat) (left right : Node) : Prop :=
  ∀ isLast, indentNode depth isLast left = indentNode depth isLast right

theorem AlikeAt.refl (depth : Nat) (node : Node) : AlikeAt depth node node :=
  fun _ => rfl

/-- Children are indented alike if they are so one by one. -/
theorem indentNodes_congr {depth : Nat} {left right : List Node}
    (alike : List.Forall₂ (AlikeAt depth) left right) :
    indentNodes depth left = indentNodes depth right := by
  induction alike with
  | nil => rfl
  | cons first others ih =>
      rw [indentNodes, indentNodes, ih, isEmpty_of_forall₂ others, first]

/-- A relation to a child that indents have wherever it stands is one of all children. -/
theorem forall₂_indentNodes_of {relation : Node → Node → Prop} {depth : Nat} {nodes : List Node}
    (each : ∀ node ∈ nodes, ∀ isLast, relation (indentNode depth isLast node) node) :
    List.Forall₂ relation (indentNodes depth nodes) nodes := by
  induction nodes with
  | nil => exact .nil
  | cons node rest ih =>
      exact .cons (each node List.mem_cons_self _)
        (ih fun other member => each other (List.mem_cons_of_mem _ member))

theorem forall₂_indentNodes (depth : Nat) (nodes : List Node) :
    List.Forall₂ (IsIndented depth) (indentNodes depth nodes) nodes :=
  forall₂_indentNodes_of fun _ _ isLast => ⟨isLast, rfl⟩

/-- Children that are indented again are indented alike if each of them is. -/
theorem forall₂_alike_indentNodes {depth : Nat} {nodes : List Node}
    (each : ∀ node ∈ nodes, ∀ isLast other,
      indentNode depth isLast (indentNode depth other node) = indentNode depth isLast node) :
    List.Forall₂ (AlikeAt depth) (indentNodes depth nodes) nodes :=
  forall₂_indentNodes_of fun node member other isLast => each node member isLast other

theorem indentNode_indentNode (depth : Nat) (isLast other : Bool) (node : Node) :
    indentNode depth isLast (indentNode depth other node) = indentNode depth isLast node := by
  induction node generalizing depth isLast other with
  | element name attributes text children tail ih =>
      have inner : indentNodes (depth + 1) (indentNodes (depth + 1) children) =
          indentNodes (depth + 1) children :=
        indentNodes_congr (forall₂_alike_indentNodes fun child member isLast other =>
          ih child member (depth + 1) isLast other)
      rw [indentNode, indentNode, indentNode, inner, isEmpty_indentNodes, orIndent_orIndent]
      congr 1
      split <;> simp
  | comment content tail => rw [indentNode, indentNode, indentNode, orIndent_orIndent]

/-- What has been indented before is indented as if it had not been. -/
theorem IsIndented.alike {depth : Nat} {indented node : Node}
    (isIndented : IsIndented depth indented node) : AlikeAt depth indented node := by
  obtain ⟨other, rfl⟩ := isIndented
  exact fun isLast => indentNode_indentNode depth isLast other node

/-! ## Parts that indentation leaves alone -/

theorem map_indentNodes {view : Node → β} {depth : Nat} {nodes : List Node}
    (each : ∀ node ∈ nodes, ∀ isLast, view (indentNode depth isLast node) = view node) :
    (indentNodes depth nodes).map view = nodes.map view := by
  rw [← List.forall₂_eq_eq_eq, List.forall₂_map_left_iff, List.forall₂_map_right_iff]
  exact forall₂_indentNodes_of each

theorem any_indentNodes {test : Node → Bool} {depth : Nat}
    (ignores : ∀ indented node, IsIndented depth indented node → test indented = test node)
    (nodes : List Node) : (indentNodes depth nodes).any test = nodes.any test := by
  have sameTests := map_indentNodes fun node (_ : node ∈ nodes) isLast =>
    ignores _ node ⟨isLast, rfl⟩
  have any := congrArg (fun tests : List Bool => tests.any id) sameTests
  simpa only [List.any_map, Function.id_comp] using any

theorem isNamed_indentNode (localPart : String) (depth : Nat) (isLast : Bool) (node : Node) :
    (indentNode depth isLast node).isNamed localPart = node.isNamed localPart := by
  cases node <;> rfl

theorem IsIndented.isNamed {depth : Nat} {indented node : Node}
    (isIndented : IsIndented depth indented node) (localPart : String) :
    indented.isNamed localPart = node.isNamed localPart := by
  obtain ⟨other, rfl⟩ := isIndented
  exact isNamed_indentNode localPart depth other node

theorem IsIndented.isNamedIn {depth : Nat} {indented node : Node}
    (isIndented : IsIndented depth indented node) (names : List String) :
    indented.isNamedIn names = node.isNamedIn names := by
  simp [Node.isNamedIn, isIndented.isNamed]

section Meets

variable {rules : TreeRules}

theorem orIndent_meets (blank : ∀ depth, rules.text (lineIndent depth)) {text : String}
    (meets : rules.text text) (depth : Nat) : rules.text (orIndent text depth) := by
  unfold orIndent
  split
  · exact blank depth
  · exact meets

theorem forall_mem_indentNodes {motive : Node → Prop} {depth : Nat} {nodes : List Node}
    (each : ∀ node ∈ nodes, ∀ isLast, motive (indentNode depth isLast node)) :
    ∀ child ∈ indentNodes depth nodes, motive child := by
  induction nodes with
  | nil => simp [indentNodes]
  | cons node rest ih =>
      rw [indentNodes, List.forall_mem_cons]
      exact ⟨each node (by simp) _,
        ih fun other member => each other (by simp [member])⟩

theorem Node.Meets.indented (blank : ∀ depth, rules.text (lineIndent depth)) {node : Node}
    (meets : node.Meets rules) (depth : Nat) (isLast : Bool) :
    (indentNode depth isLast node).Meets rules := by
  induction node generalizing depth isLast with
  | element name attributes text children tail ih =>
      obtain ⟨tagMeets, textMeets, childrenMeet, tailMeets⟩ := meets_element.mp meets
      have inner : ∀ child ∈ indentNodes (depth + 1) children, child.Meets rules :=
        forall_mem_indentNodes fun child member isLast =>
          ih child member (childrenMeet child member) (depth + 1) isLast
      rw [indentNode]
      refine meets_element.mpr ⟨tagMeets, ?_, inner, orIndent_meets blank tailMeets _⟩
      split
      · exact textMeets
      · exact orIndent_meets blank textMeets _
  | comment content tail =>
      obtain ⟨commentMeets, tailMeets⟩ := meets_comment.mp meets
      rw [indentNode]
      exact meets_comment.mpr ⟨commentMeets, orIndent_meets blank tailMeets _⟩

theorem Element.Meets.indent (blank : ∀ depth, rules.text (lineIndent depth)) {root : Element}
    (meets : root.Meets rules) : root.indent.Meets rules := by
  obtain ⟨tagMeets, textMeets, childrenMeet⟩ := Element.meets_iff.mp meets
  have inner : ∀ child ∈ indentNodes 1 root.children, child.Meets rules :=
    forall_mem_indentNodes fun child member isLast =>
      (childrenMeet child member).indented blank 1 isLast
  refine Element.meets_iff.mpr ⟨tagMeets, ?_, inner⟩
  rw [Element.indent]
  split
  · exact textMeets
  · exact orIndent_meets blank textMeets _

end Meets

/-! ## Changes of an indented tree -/

/-- A change of texts that leaves the values. -/
def PartChange.ofTexts (text : String → String) : PartChange where
  value := id
  text := text

/-- The change that drops all texts. -/
def withoutTexts : PartChange :=
  .ofTexts fun _ => ""

/-- A change of values that leaves the texts. -/
def PartChange.ofValues (value : AttributeValue → AttributeValue) : PartChange where
  value := value
  text := id

theorem change_indentNode_withoutTexts (depth : Nat) (isLast : Bool) (node : Node) :
    (indentNode depth isLast node).change withoutTexts = node.change withoutTexts := by
  induction node generalizing depth isLast with
  | element name attributes text children tail ih =>
      have inner := map_indentNodes fun child member isLast =>
        ih child member (depth + 1) isLast
      rw [indentNode, change_element, change_element, inner]
      rfl
  | comment content tail => rw [indentNode, change_comment, change_comment]; rfl

theorem Element.change_indent_withoutTexts (root : Element) :
    root.indent.change withoutTexts = root.change withoutTexts := by
  have inner := map_indentNodes fun child (_ : child ∈ root.children) isLast =>
    change_indentNode_withoutTexts 1 isLast child
  simp only [Element.indent, Element.change, changeNodes_eq_map, inner]
  rfl

theorem indentNodes_map {change : Node → Node} {depth : Nat} {nodes : List Node}
    (each : ∀ node ∈ nodes, ∀ isLast,
      change (indentNode depth isLast node) = indentNode depth isLast (change node)) :
    (indentNodes depth nodes).map change = indentNodes depth (nodes.map change) := by
  induction nodes with
  | nil => rfl
  | cons node rest ih =>
      rw [indentNodes, List.map_cons, List.map_cons, indentNodes, each node (by simp),
        ih fun other member => each other (by simp [member]), List.isEmpty_map]

theorem change_indentNode_ofValues (value : AttributeValue → AttributeValue) (depth : Nat)
    (isLast : Bool) (node : Node) :
    (indentNode depth isLast node).change (.ofValues value) =
      indentNode depth isLast (node.change (.ofValues value)) := by
  induction node generalizing depth isLast with
  | element name attributes text children tail ih =>
      have inner := indentNodes_map fun child member isLast =>
        ih child member (depth + 1) isLast
      rw [indentNode, change_element, change_element, indentNode, inner, List.isEmpty_map]
      rfl
  | comment content tail =>
      rw [indentNode, change_comment, change_comment, indentNode]
      rfl

theorem Element.change_indent_ofValues (value : AttributeValue → AttributeValue)
    (root : Element) :
    root.indent.change (.ofValues value) = (root.change (.ofValues value)).indent := by
  have inner := indentNodes_map fun child (_ : child ∈ root.children) isLast =>
    change_indentNode_ofValues value 1 isLast child
  simp only [Element.indent, Element.change, changeNodes_eq_map, inner, List.isEmpty_map]
  rfl

end IdeModules.Xml
