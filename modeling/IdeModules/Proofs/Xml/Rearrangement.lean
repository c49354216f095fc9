import IdeModules.Proofs.Xml.Documents
import IdeModules.Proofs.Xml.Resemblance

/-!
# Attributes in another order

Trees may differ in the order of attributes only.  Where the attributes of
namespaces keep their order, both trees use the same prefixes, so that their
documents have the same tags with the same attributes, texts and comments.
-/

namespace IdeModules.Xml

/-- Whether attributes are others in another order, those of namespaces in the same one. -/
structure Rearranged (left right : Attributes) : Prop where
  perm : left.Perm right
  qualified : left.filter (fun entry => entry.1.space.isSome) =
    right.filter fun entry => entry.1.space.isSome

theorem Rearranged.refl (entries : Attributes) : Rearranged entries entries :=
  ⟨.refl entries, rfl⟩

/-- Only attributes of namespaces have a part in the namespaces of a tag. -/
theorem namesSpaces_eq_qualified (name : Name) (attributes : Attributes) :
    namesSpaces name attributes =
      namesSpaces name (attributes.filter fun entry => entry.1.space.isSome) := by
  have same : attributes.flatMap (fun entry => entry.1.space.toList) =
      (attributes.filter fun entry => entry.1.space.isSome).flatMap
        fun entry => entry.1.space.toList := by
    induction attributes with
    | nil => rfl
    | cons entry rest ih =>
        rw [List.flatMap_cons, ih]
        cases isSpace : entry.1.space with
        | none =>
            rw [List.filter_cons_of_neg (by simp [isSpace])]
            rfl
        | some uri => rw [List.filter_cons_of_pos (by simp [isSpace]), List.flatMap_cons, isSpace]
  rw [namesSpaces, namesSpaces, same]

theorem Rearranged.namesSpaces_eq {left right : Attributes} (rearranged : Rearranged left right)
    (name : Name) : namesSpaces name left = namesSpaces name right := by
  rw [namesSpaces_eq_qualified, rearranged.qualified, ← namesSpaces_eq_qualified]

/-! ## Nodes -/

/-- Whether nodes differ in the order of attributes only. -/
inductive Node.Rearranged : Node → Node → Prop where
  | element {name : Name} {lefts rights : Attributes} {text : String}
      {leftChildren rightChildren : List Node} {tail : String}
      (attributes : Xml.Rearranged lefts rights)
      (inner : List.Forall₂ Node.Rearranged leftChildren rightChildren) :
    Node.Rearranged (.element name lefts text leftChildren tail)
      (.element name rights text rightChildren tail)
  | comment {content tail : String} :
    Node.Rearranged (.comment content tail) (.comment content tail)

/-- A relation of nodes holds of rearranged ones if it holds of elements whenever it does of their
children. -/
@[elab_as_elim]
theorem Node.Rearranged.inductionOn {motive : Node → Node → Prop}
    (element : ∀ name lefts rights text leftChildren rightChildren tail,
      Xml.Rearranged lefts rights → List.Forall₂ motive leftChildren rightChildren →
      motive (.element name lefts text leftChildren tail)
        (.element name rights text rightChildren tail))
    (comment : ∀ content tail, motive (.comment content tail) (.comment content tail))
    {left right : Node} (rearranged : left.Rearranged right) : motive left right := by
  refine @Node.Rearranged.rec (fun left right _ => motive left right)
    (fun lefts rights _ => List.Forall₂ motive lefts rights) ?_ (comment _ _) .nil ?_ left right
    rearranged
  · exact fun attributes _ inner => element _ _ _ _ _ _ _ attributes inner
  · exact fun _ _ first others => .cons first others

theorem Node.Rearranged.refl (node : Node) : node.Rearranged node := by
  induction node with
  | element name attributes text children tail ih =>
      exact .element (.refl attributes) (List.forall₂_same.mpr ih)
  | comment content tail => exact .comment

theorem forall₂_rearranged_refl (nodes : List Node) : List.Forall₂ Node.Rearranged nodes nodes :=
  List.forall₂_same.mpr fun node _ => .refl node

/-! ## Indentation -/

theorem rearranged_indentNodes {depth : Nat} {lefts rights : List Node}
    (each : List.Forall₂ (fun left right => ∀ isLast,
      (indentNode depth isLast left).Rearranged (indentNode depth isLast right)) lefts rights) :
    List.Forall₂ Node.Rearranged (indentNodes depth lefts) (indentNodes depth rights) := by
  induction each with
  | nil => exact .nil
  | cons first others ih =>
      rw [indentNodes, indentNodes, isEmpty_of_forall₂ others]
      exact .cons (first _) ih

theorem Node.Rearranged.indented {left right : Node} (rearranged : left.Rearranged right) :
    ∀ depth isLast,
      (indentNode depth isLast left).Rearranged (indentNode depth isLast right) := by
  refine Node.Rearranged.inductionOn ?_ ?_ rearranged
  · intro name lefts rights text leftChildren rightChildren tail attributes inner depth isLast
    rw [indentNode, indentNode, isEmpty_of_forall₂ inner]
    exact .element attributes
      (rearranged_indentNodes (inner.imp fun _ _ nodes => nodes (depth + 1)))
  · exact fun _ _ _ _ => .refl _

/-! ## Prefixes -/

theorem nodesSpaces_congr {lefts rights : List Node}
    (same : List.Forall₂ (fun left right => nodeSpaces left = nodeSpaces right) lefts rights) :
    nodesSpaces lefts = nodesSpaces rights := by
  induction same with
  | nil => rfl
  | cons first _ ih => rw [nodesSpaces, nodesSpaces, first, ih]

theorem Node.Rearranged.nodeSpaces_eq {left right : Node} (rearranged : left.Rearranged right) :
    nodeSpaces left = nodeSpaces right := by
  refine Node.Rearranged.inductionOn ?_ (fun _ _ => rfl) rearranged
  intro name lefts rights text leftChildren rightChildren tail attributes inner
  rw [nodeSpaces, nodeSpaces, attributes.namesSpaces_eq, nodesSpaces_congr inner]

/-! ## Elements -/

/-- Whether elements differ in the order of attributes only. -/
structure Element.Rearranged (left right : Element) : Prop where
  name : left.name = right.name
  attributes : Xml.Rearranged left.attributes right.attributes
  text : left.text = right.text
  children : List.Forall₂ Node.Rearranged left.children right.children

namespace Element.Rearranged

variable {left right : Element}

theorem toNode (rearranged : left.Rearranged right) (tail : String) :
    (Node.ofElement left tail).Rearranged (Node.ofElement right tail) := by
  rw [Node.ofElement, Node.ofElement, rearranged.name, rearranged.text]
  exact .element rearranged.attributes rearranged.children

theorem indented (rearranged : left.Rearranged right) : left.indent.Rearranged right.indent := by
  refine ⟨rearranged.name, rearranged.attributes, ?_, ?_⟩
  · rw [Element.indent, Element.indent, rearranged.text, isEmpty_of_forall₂ rearranged.children]
  · exact rearranged_indentNodes (rearranged.children.imp fun _ _ nodes => nodes.indented 1)

/-- Rearranged trees use the same prefixes. -/
theorem prefixesOf_eq (rearranged : left.Rearranged right) :
    prefixesOf left = prefixesOf right := by
  rw [prefixesOf, prefixesOf, rearranged.name, rearranged.attributes.namesSpaces_eq,
    nodesSpaces_congr (rearranged.children.imp fun _ _ nodes => nodes.nodeSpaces_eq)]

end Element.Rearranged

end IdeModules.Xml
