import IdeModules.Proofs.Xml.Indentation
import IdeModules.Proofs.Xml.Printing
import Mathlib.Data.List.Nodup

/-!
# Trees that look alike

Trees look alike if nothing but their texts and the order of their attributes
tells them apart.  Rules that neither texts nor that order have a part in hold of
both trees or of none.
-/

namespace IdeModules.Xml

/-! ## Attributes in any order -/

/-- Whether attributes have the same values, in whatever order they stand. -/
def SameValues (left right : Attributes) : Prop :=
  ∀ name, Keyed.get? name left = Keyed.get? name right

namespace SameValues

variable {left right : Attributes}

theorem put (same : SameValues left right) (name : Name) (value : AttributeValue) :
    SameValues (Keyed.put name value left) (Keyed.put name value right) := by
  intro other
  rw [Keyed.get?_put, Keyed.get?_put, same other]

theorem mem (same : SameValues left right) (nodup : (Keyed.keys left).Nodup)
    {entry : Name × AttributeValue} (member : entry ∈ left) : entry ∈ right := by
  have value := Keyed.get?_of_mem nodup member
  rw [same entry.1] at value
  exact Keyed.mem_of_get? value

/-- Attributes that have the same values, each name once, differ in their order only. -/
theorem perm (same : SameValues left right) (leftNodup : (Keyed.keys left).Nodup)
    (rightNodup : (Keyed.keys right).Nodup) : left.Perm right := by
  have converse : SameValues right left := fun name => (same name).symm
  apply (List.perm_ext_iff_of_nodup (List.Nodup.of_map _ leftNodup)
    (List.Nodup.of_map _ rightNodup)).mpr
  intro entry
  exact ⟨same.mem leftNodup, converse.mem rightNodup⟩

end SameValues

/-! ## Nodes -/

/-- Whether nodes look alike. -/
inductive Node.Alike : Node → Node → Prop where
  | element {name : Name} {lefts rights : Attributes} {leftText rightText : String}
      {leftChildren rightChildren : List Node} {leftTail rightTail : String}
      (values : SameValues lefts rights)
      (inner : List.Forall₂ Node.Alike leftChildren rightChildren) :
    Node.Alike (.element name lefts leftText leftChildren leftTail)
      (.element name rights rightText rightChildren rightTail)
  | comment {content leftTail rightTail : String} :
    Node.Alike (.comment content leftTail) (.comment content rightTail)

/-- A property of nodes that look alike holds of all if elements have it whenever their children
do. -/
@[elab_as_elim]
theorem Node.Alike.inductionOn {motive : ∀ left right : Node, left.Alike right → Prop}
    (element : ∀ {name lefts rights leftText rightText leftChildren rightChildren leftTail
      rightTail} (values : SameValues lefts rights)
      (inner : List.Forall₂ Node.Alike leftChildren rightChildren),
      List.Forall₂ (fun left right => ∃ alike, motive left right alike) leftChildren
        rightChildren →
      motive (.element name lefts leftText leftChildren leftTail)
        (.element name rights rightText rightChildren rightTail) (.element values inner))
    (comment : ∀ {content leftTail rightTail},
      motive (.comment content leftTail) (.comment content rightTail) .comment)
    {left right : Node} (alike : left.Alike right) : motive left right alike := by
  refine @Node.Alike.rec motive
    (fun lefts rights _ =>
      List.Forall₂ (fun left right => ∃ alike, motive left right alike) lefts rights)
    (fun values inner holds => element values inner holds) comment .nil ?_ left right alike
  exact fun first _ holds others => .cons ⟨first, holds⟩ others

namespace Node.Alike

variable {left middle right : Node}

theorem refl (node : Node) : node.Alike node := by
  induction node with
  | element name attributes text children tail ih =>
      exact .element (fun _ => rfl) (List.forall₂_same.mpr ih)
  | comment content tail => exact .comment

theorem symm (alike : left.Alike right) : right.Alike left := by
  induction alike using Node.Alike.inductionOn with
  | element values _ ih =>
      refine .element (fun name => (values name).symm) ?_
      exact (ih.imp fun _ _ ⟨_, holds⟩ => holds).flip
  | comment => exact .comment

theorem trans (first : left.Alike middle) (second : middle.Alike right) : left.Alike right := by
  induction first using Node.Alike.inductionOn generalizing right with
  | element values _ ih =>
      cases second with
      | element others inner =>
        refine .element (fun name => (values name).trans (others name)) ?_
        exact forall₂_trans (fun _ _ _ ⟨_, step⟩ next => step next) ih inner
  | comment =>
      cases second
      exact .comment

theorem isNamed (alike : left.Alike right) (localPart : String) :
    left.isNamed localPart = right.isNamed localPart := by
  cases alike <;> rfl

theorem isNamedIn (alike : left.Alike right) (names : List String) :
    left.isNamedIn names = right.isNamedIn names := by
  simp only [Node.isNamedIn, alike.isNamed]

end Node.Alike

theorem Node.alike_change (text : String → String) (node : Node) :
    node.Alike (node.change (.ofTexts text)) := by
  induction node with
  | element name attributes content children tail ih =>
      have unchanged : (PartChange.ofTexts text).attributes attributes = attributes :=
        PartChange.attributes_untouched fun _ _ => rfl
      rw [change_element, unchanged]
      exact .element (fun _ => rfl)
        (List.forall₂_map_right_iff.mpr (List.forall₂_same.mpr ih))
  | comment content tail =>
      rw [change_comment]
      exact .comment

theorem forall₂_alike_refl (nodes : List Node) : List.Forall₂ Node.Alike nodes nodes :=
  List.forall₂_same.mpr fun node _ => .refl node

theorem filter_alike {test : Node → Bool}
    (same : ∀ left right : Node, left.Alike right → test left = test right)
    {lefts rights : List Node} (alike : List.Forall₂ Node.Alike lefts rights) :
    List.Forall₂ Node.Alike (lefts.filter test) (rights.filter test) := by
  refine List.rel_filter ?_ alike
  intro left right nodesAlike
  simp only [same left right nodesAlike]

/-! ## Elements -/

/-- Whether elements look alike. -/
structure Element.Alike (left right : Element) : Prop where
  name : left.name = right.name
  values : SameValues left.attributes right.attributes
  children : List.Forall₂ Node.Alike left.children right.children

theorem Node.alike_ofElement {left right : Element} (alike : left.Alike right)
    (leftTail rightTail : String) :
    (Node.ofElement left leftTail).Alike (Node.ofElement right rightTail) := by
  obtain ⟨name, attributes, text, children⟩ := left
  obtain ⟨otherName, others, otherText, otherChildren⟩ := right
  obtain ⟨sameName, values, inner⟩ := alike
  obtain rfl : name = otherName := sameName
  exact .element values inner

theorem Node.Alike.element? {left right : Node} (alike : left.Alike right) :
    Option.Rel Element.Alike left.element? right.element? := by
  cases alike with
  | element values inner => exact .some ⟨rfl, values, inner⟩
  | comment => exact .none

namespace Element.Alike

variable {left middle right : Element}

theorem refl (root : Element) : root.Alike root :=
  ⟨rfl, fun _ => rfl, forall₂_alike_refl root.children⟩

theorem symm (alike : left.Alike right) : right.Alike left :=
  ⟨alike.name.symm, fun name => (alike.values name).symm,
    (alike.children.imp fun _ _ nodes => nodes.symm).flip⟩

theorem trans (first : left.Alike middle) (second : middle.Alike right) : left.Alike right :=
  ⟨first.name.trans second.name, fun name => (first.values name).trans (second.values name),
    forall₂_trans (fun _ _ _ nodes others => nodes.trans others) first.children second.children⟩

theorem attribute? (alike : left.Alike right) (name : String) :
    left.attribute? name = right.attribute? name := by
  simp only [Element.attribute?, alike.values (Name.plain name)]

end Element.Alike

/-- A tree with other texts looks alike. -/
theorem Element.alike_change (text : String → String) (root : Element) :
    root.Alike (root.change (.ofTexts text)) := by
  have unchanged : (PartChange.ofTexts text).attributes root.attributes = root.attributes :=
    PartChange.attributes_untouched fun _ _ => rfl
  constructor
  · rfl
  · intro name
    rw [Element.change, unchanged]
  · rw [Element.change, changeNodes_eq_map]
    exact List.forall₂_map_right_iff.mpr
      (List.forall₂_same.mpr fun node _ => node.alike_change text)

theorem Element.alike_of_same {left right : Element}
    (same : left.change withoutTexts = right.change withoutTexts) : left.Alike right := by
  have stripped := right.alike_change fun _ => ""
  rw [← withoutTexts, ← same] at stripped
  exact (left.alike_change fun _ => "").trans stripped.symm

/-! ## Rules -/

/-- Whether rules leave out texts and the order of attributes. -/
structure TreeRules.IgnoreOrder (rules : TreeRules) : Prop where
  text : ∀ content, rules.text content
  tag : ∀ name lefts rights, lefts.Perm rights → rules.tag name lefts → rules.tag name rights

section Rules

variable {rules : TreeRules}

/-- What looks like a sound tree that meets rules meets them, if it is sound itself. -/
theorem Node.Alike.meets (ignore : rules.IgnoreOrder) {left right : Node}
    (alike : left.Alike right) (leftSound : left.Meets sound) (rightSound : right.Meets sound)
    (meets : left.Meets rules) : right.Meets rules := by
  induction alike using Node.Alike.inductionOn with
  | element values _ ih =>
      obtain ⟨⟨_, leftNodup, _⟩, _, leftChildren, _⟩ := meets_element.mp leftSound
      obtain ⟨⟨_, rightNodup, _⟩, _, rightChildren, _⟩ := meets_element.mp rightSound
      obtain ⟨tagMeets, _, childrenMeet, _⟩ := meets_element.mp meets
      refine meets_element.mpr ⟨ignore.tag _ _ _ (values.perm leftNodup rightNodup) tagMeets,
        ignore.text _, ?_, ignore.text _⟩
      intro child member
      obtain ⟨other, known, _, holds⟩ := exists_mem_of_forall₂ ih child member
      exact holds (leftChildren other known) (rightChildren child member)
        (childrenMeet other known)
  | comment => exact meets_comment.mpr ⟨(meets_comment.mp meets).1, ignore.text _⟩

theorem Element.Alike.meets (ignore : rules.IgnoreOrder) {left right : Element}
    (alike : left.Alike right) (leftSound : left.Meets sound) (rightSound : right.Meets sound)
    (meets : left.Meets rules) : right.Meets rules := by
  obtain ⟨⟨_, leftNodup, _⟩, _, leftChildren⟩ := Element.meets_iff.mp leftSound
  obtain ⟨⟨_, rightNodup, _⟩, _, rightChildren⟩ := Element.meets_iff.mp rightSound
  obtain ⟨tagMeets, _, childrenMeet⟩ := Element.meets_iff.mp meets
  have tag := ignore.tag _ _ _ (alike.values.perm leftNodup rightNodup) tagMeets
  refine Element.meets_iff.mpr ⟨alike.name ▸ tag, ignore.text _, ?_⟩
  intro child member
  obtain ⟨other, known, nodes⟩ := exists_mem_of_forall₂ alike.children child member
  exact nodes.meets ignore (leftChildren other known) (rightChildren child member)
    (childrenMeet other known)

end Rules

theorem ignoreOrder_plainNames : plainNames.IgnoreOrder where
  text _ := trivial
  tag _ _ _ same plain := ⟨plain.1, fun entry member => plain.2 entry (same.mem_iff.mpr member)⟩

theorem ignoreOrder_admittedValues : admittedValues.IgnoreOrder where
  text _ := trivial
  tag _ _ _ same admitted := fun entry member => admitted entry (same.mem_iff.mpr member)

end IdeModules.Xml
