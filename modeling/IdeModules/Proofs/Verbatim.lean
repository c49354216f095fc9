import IdeModules.Proofs.Regeneration

/-!
# Trees that are written and read unchanged

A tree that was read is serialized, and its document is read again.  Names,
attributes, comments and their order stay, and so do all texts but for blank
ones around children, which are indented, and for carriage returns, which are
read as line feeds.  A document of another encoding may have names that are
written but not read again.
-/

namespace IdeModules

open Xml

namespace Xml

/-! ## Texts -/

/-- Whether a text stays, or is blank before and after. -/
def SameOrBlank (before after : String) : Prop :=
  after = before ∨ allBlank before = true ∧ allBlank after = true

theorem SameOrBlank.refl (text : String) : SameOrBlank text text :=
  .inl rfl

theorem allBlank_settling {text : String} (blank : allBlank text = true) :
    allBlank (settling.text text) = true := by
  rw [allBlank, settling, String.toList_ofList, List.all_eq_true]
  intro c member
  rcases mem_normalizeLineEnds member with known | isFeed
  · exact List.all_eq_true.mp blank c known
  · exact isFeed ▸ by decide

/-- A settled text stays where it is indented, unless it is blank. -/
theorem sameOrBlank_settling (text : String) (depth : Nat) :
    SameOrBlank (settling.text text) (settling.text (orIndent text depth)) := by
  unfold orIndent
  split
  · rename_i blank
    exact .inr ⟨allBlank_settling blank, allBlank_settling (allBlank_lineIndent depth)⟩
  · exact .refl _

/-! ## Trees -/

/-- Whether a child stays as it is but for blank texts around children. -/
inductive Node.IsVerbatim : Node → Node → Prop where
  | element {name : Name} {attributes : Attributes} {text laterText : String}
      {children laterChildren : List Node} {tail laterTail : String}
      (content : SameOrBlank text laterText) (leaf : children = [] → laterText = text)
      (inner : List.Forall₂ Node.IsVerbatim children laterChildren)
      (behind : SameOrBlank tail laterTail) :
    Node.IsVerbatim (.element name attributes text children tail)
      (.element name attributes laterText laterChildren laterTail)
  | comment {content tail laterTail : String} (behind : SameOrBlank tail laterTail) :
    Node.IsVerbatim (.comment content tail) (.comment content laterTail)

/-- Whether a root element stays as it is but for blank texts around children. -/
structure Element.IsVerbatim (before after : Element) : Prop where
  name : after.name = before.name
  attributes : after.attributes = before.attributes
  text : SameOrBlank before.text after.text
  leaf : before.children = [] → after.text = before.text
  children : List.Forall₂ Node.IsVerbatim before.children after.children

/-- Children are settled as they are if each of them is so, wherever it stands. -/
theorem isVerbatim_indentNodes {depth : Nat} {nodes : List Node}
    (each : ∀ node ∈ nodes, ∀ isLast,
      (node.change settling).IsVerbatim ((indentNode depth isLast node).change settling)) :
    List.Forall₂ Node.IsVerbatim (nodes.map (Node.change settling))
      ((indentNodes depth nodes).map (Node.change settling)) := by
  rw [List.forall₂_map_left_iff, List.forall₂_map_right_iff]
  exact (forall₂_indentNodes_of each).flip

theorem isVerbatim_indentNode (depth : Nat) (isLast : Bool) (node : Node) :
    (node.change settling).IsVerbatim ((indentNode depth isLast node).change settling) := by
  induction node generalizing depth isLast with
  | element name attributes text children tail ih =>
      have inner := isVerbatim_indentNodes fun child member isLast =>
        ih child member (depth + 1) isLast
      rw [indentNode, change_element, change_element]
      refine .element ?_ ?_ inner (sameOrBlank_settling tail _)
      · split
        · exact .refl _
        · exact sameOrBlank_settling text _
      · intro isLeaf
        rw [List.map_eq_nil_iff.mp isLeaf]
        rfl
  | comment content tail =>
      rw [indentNode, change_comment, change_comment]
      exact .comment (sameOrBlank_settling tail _)

theorem Element.isVerbatim_indent (root : Element) :
    (root.change settling).IsVerbatim (root.indent.change settling) := by
  have inner := isVerbatim_indentNodes fun node (_ : node ∈ root.children) isLast =>
    isVerbatim_indentNode 1 isLast node
  rw [← changeNodes_eq_map, ← changeNodes_eq_map] at inner
  refine ⟨rfl, rfl, ?_, ?_, inner⟩
  · simp only [Element.change, Element.indent]
    split
    · exact .refl _
    · exact sameOrBlank_settling root.text _
  · intro isLeaf
    rw [Element.change, changeNodes_eq_map, List.map_eq_nil_iff] at isLeaf
    simp only [Element.change, Element.indent, isLeaf]
    rfl

/-- The document of an accepted tree is read again if and only if other documents allow all names
of the tree, and then as the indented tree with line feeds as line ends. -/
theorem readDocument_indented_iff {tree found : Element} (isAccepted : tree.Meets accepted) :
    readDocument true (document tree.indent) = .ok found ↔
      tree.Meets plainNames ∧ found = tree.indent.change settling := by
  obtain ⟨isSound, admitted⟩ := isAccepted.ofBoth
  have indentedSound := sound_indent isSound
  have samePlain : tree.indent.Meets plainNames ↔ tree.Meets plainNames :=
    Element.meets_indent_iff fun _ => trivial
  have indentedAdmitted : tree.indent.Meets admittedValues :=
    (Element.meets_indent_iff fun _ => trivial).mpr admitted
  constructor
  · intro reread
    have plain := (legible_of_readDocument indentedSound reread).1
    rw [readDocument_document indentedSound plain indentedAdmitted] at reread
    exact ⟨samePlain.mp plain, (Except.ok.inj reread).symm⟩
  · rintro ⟨plain, rfl⟩
    exact readDocument_document indentedSound (samePlain.mpr plain) indentedAdmitted

end Xml

/-! ## Descriptors -/

theorem serialize_indent {tree : Element} (isAccepted : tree.Meets accepted) :
    serialize tree.indent = .ok (document tree.indent) :=
  if_pos (Descriptor.writable_of_textual (textual_of_sound (sound_indent isAccepted.ofBoth.1)))

theorem ofText_of_readDocument {text : String} {root : Element}
    (read : readDocument true text = .ok root) (isModule : root.name = Name.plain "module")
    (path : Path) (name : Json.Value) :
    Descriptor.ofText path name text = .ok (Descriptor.ofElement name root) := by
  rw [Descriptor.ofText, read]
  exact if_pos isModule

/-- The tree of an accepted text has a document.  This is read again if and only if other
documents allow all names of the tree, and then as the tree with line feeds as line ends; so
a tree without carriage returns in its texts is read as it was. -/
theorem serialized_tree_is_read_again {path : Path} {name : Json.Value} {text : String}
    {descriptor : Descriptor} (read : Descriptor.ofText path name text = .ok descriptor) :
    ∃ tree content, descriptor.tree = some tree ∧ serialize tree.indent = .ok content ∧
      (∀ savedPath savedName,
        (∃ found, Descriptor.ofText savedPath savedName content = .ok found) ↔
          tree.Meets plainNames) ∧
      ∀ savedPath savedName found, Descriptor.ofText savedPath savedName content = .ok found →
        ∃ reread, found.tree = some reread ∧ (tree.change settling).IsVerbatim reread ∧
          (tree.Meets withoutReturns → tree.IsVerbatim reread) := by
  obtain ⟨tree, isRead, isModule, rfl⟩ := Descriptor.ofText_eq_ok read
  have isAccepted := accepted_of_readDocument isRead
  refine ⟨tree, document tree.indent, Descriptor.tree_ofElement name tree,
    serialize_indent isAccepted, ?_, ?_⟩
  · intro savedPath savedName
    constructor
    · rintro ⟨found, reread⟩
      obtain ⟨root, isReread, _⟩ := Descriptor.ofText_eq_ok reread
      exact ((readDocument_indented_iff isAccepted).mp isReread).1
    · intro plain
      have isReread := (readDocument_indented_iff isAccepted).mpr ⟨plain, rfl⟩
      exact ⟨_, ofText_of_readDocument isReread isModule savedPath savedName⟩
  · intro savedPath savedName found reread
    obtain ⟨root, isReread, _, rfl⟩ := Descriptor.ofText_eq_ok reread
    obtain ⟨_, rfl⟩ := (readDocument_indented_iff isAccepted).mp isReread
    have isVerbatim := tree.isVerbatim_indent
    refine ⟨_, Descriptor.tree_ofElement savedName _, isVerbatim, ?_⟩
    intro noReturns
    rwa [ModuleSettings.change_settling_of_withoutReturns noReturns] at isVerbatim

/-- A text with markup characters, a comment and a text behind it. -/
def mixedText : String :=
  "<module><b c=\"&quot;\">x &amp; y</b><!--z--> w</module>"

def mixedRoot : Element where
  name := Name.plain "module"
  attributes := []
  text := ""
  children := [.element (Name.plain "b") [(Name.plain "c", .text "\"")] "x & y" [] "",
    .comment "z" " w"]

theorem readDocument_mixed : readDocument true mixedText = .ok mixedRoot := by
  rw [readDocument_eq_readChars]
  decide +kernel

/-- The text is read, written and read again with the same parts. -/
theorem mixed_tree_is_read_again :
    ∃ descriptor tree content found reread,
      Descriptor.ofText ⟨.relative, ["a.iml"], by decide⟩ (.str "a") mixedText = .ok descriptor ∧
      descriptor.tree = some tree ∧ serialize tree.indent = .ok content ∧
      Descriptor.ofText ⟨.relative, ["a.iml"], by decide⟩ (.str "a") content = .ok found ∧
      found.tree = some reread ∧ tree.IsVerbatim reread := by
  have read := ofText_of_readDocument readDocument_mixed rfl ⟨.relative, ["a.iml"], by decide⟩
    (.str "a")
  obtain ⟨tree, content, isTree, written, readable, preserved⟩ :=
    serialized_tree_is_read_again read
  obtain rfl := Option.some.inj isTree
  have letters : ∀ letter ∈ ["module", "b", "c"], isNamePart false letter.toList = true := by
    decide
  have plain : mixedRoot.Meets plainNames := by
    simpa [mixedRoot, Element.meets_iff, plainNames, Name.IsLegible, Name.plain] using letters
  have noReturns : mixedRoot.Meets withoutReturns := by
    simp [mixedRoot, Element.meets_iff, withoutReturns]
  obtain ⟨found, reread⟩ := (readable ⟨.relative, ["a.iml"], by decide⟩ (.str "a")).mpr plain
  obtain ⟨root, isRoot, _, isVerbatim⟩ := preserved _ _ found reread
  exact ⟨_, _, content, found, root, read, isTree, written, reread, isRoot, isVerbatim noReturns⟩

/-! ## What is read differently -/

/-- A text with a carriage return behind a character reference. -/
def returnText : String := "<module><a>x&#13;y</a></module>"

/-- The tree of this text, or that of its document, with some line end and some indentation. -/
def lineEndRoot (text inner tail : String) : Element where
  name := Name.plain "module"
  attributes := []
  text := inner
  children := [.element (Name.plain "a") [] text [] tail]

theorem readDocument_return :
    readDocument true returnText = .ok (lineEndRoot "x\ry" "" "") := by
  rw [readDocument_eq_readChars]
  decide +kernel

theorem not_isVerbatim_lineEnd {inner tail laterInner laterTail : String} :
    ¬(lineEndRoot "x\ry" inner tail).IsVerbatim (lineEndRoot "x\ny" laterInner laterTail) := by
  intro isVerbatim
  have children := isVerbatim.children
  simp only [lineEndRoot, List.forall₂_cons] at children
  obtain ⟨_, leaf, _, _⟩ := children.1
  exact absurd (leaf rfl) (by decide)

/-- A carriage return in a text is written as it stands, and read as a line feed.  A name that
only documents of Latin characters allow is written, but not read again. -/
theorem serialized_tree_may_differ :
    (∃ descriptor tree content found reread,
      Descriptor.ofText ⟨.relative, ["a.iml"], by decide⟩ (.str "a") returnText = .ok descriptor ∧
      descriptor.tree = some tree ∧ serialize tree.indent = .ok content ∧
      Descriptor.ofText ⟨.relative, ["a.iml"], by decide⟩ (.str "a") content = .ok found ∧
      found.tree = some reread ∧ ¬tree.IsVerbatim reread) ∧
    ∃ descriptor tree content,
      Descriptor.ofText ⟨.relative, ["a.iml"], by decide⟩ (.str "a") latinText = .ok descriptor ∧
      descriptor.tree = some tree ∧ serialize tree.indent = .ok content ∧
      ∀ path name found, Descriptor.ofText path name content ≠ .ok found := by
  constructor
  · have isAccepted := accepted_of_readDocument readDocument_return
    have plain : (lineEndRoot "x\ry" "" "").Meets plainNames := by
      have letters : ∀ letter ∈ ["module", "a"], isNamePart false letter.toList = true := by
        decide
      simpa [lineEndRoot, Element.meets_iff, plainNames, Name.IsLegible, Name.plain] using letters
    have reread := (readDocument_indented_iff isAccepted).mpr ⟨plain, rfl⟩
    have settled : (lineEndRoot "x\ry" "" "").indent.change settling =
        lineEndRoot "x\ny" "\n  " "\n" := by decide +kernel
    rw [settled] at reread
    exact ⟨_, _, _, _, _, ofText_of_readDocument readDocument_return rfl _ _, rfl,
      serialize_indent isAccepted, ofText_of_readDocument reread rfl _ _, rfl,
      not_isVerbatim_lineEnd⟩
  · have isAccepted := accepted_of_readDocument readDocument_latin
    refine ⟨_, _, _, ofText_of_readDocument readDocument_latin rfl _ _, rfl,
      serialize_indent isAccepted, ?_⟩
    intro path name found reread
    obtain ⟨root, isReread, _⟩ := Descriptor.ofText_eq_ok reread
    obtain ⟨plain, _⟩ := (readDocument_indented_iff isAccepted).mp isReread
    have notPlain : isNamePart false "aÂª".toList = false := by decide +kernel
    have child := (Element.meets_iff.mp plain).2.2 _ List.mem_cons_self
    exact Bool.false_ne_true (notPlain.symm.trans (meets_ofElement.mp child).1.1.1)

end IdeModules
