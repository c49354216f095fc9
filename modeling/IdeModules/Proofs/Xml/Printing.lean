import IdeModules.Proofs.Xml.LineEnds
import IdeModules.Proofs.Xml.Prefixes

/-!
# Trees as pieces

A tree whose attribute values are texts prints as pieces: one for an element
that is closed at once, two for any other element, around those of its children,
and one for a comment.  The pieces are sound if the names of the tree are names in
some document, and legible if they are names in every document and the values
hold only characters that a document may hold.
-/

namespace IdeModules.Xml

/-- A name as it is written under prefixes. -/
def writtenName (prefixes : Keyed String String) (name : Name) : WrittenName :=
  ⟨name.space.map fun uri => (prefixFor prefixes uri).toList, name.localPart.toList⟩

namespace AttributeValue

def chars : AttributeValue → List Char
  | text content => content.toList
  | verbatim content => content.toList
  | unwritable => []

def IsText : AttributeValue → Prop
  | text _ => True
  | verbatim _ => False
  | unwritable => False

theorem IsText.eq_text {value : AttributeValue} (isText : value.IsText) :
    ∃ content, value = .text content := by
  cases value with
  | text content => exact ⟨content, rfl⟩
  | verbatim content => exact absurd isText id
  | unwritable => exact absurd isText id

end AttributeValue

def writtenAttribute (prefixes : Keyed String String) (entry : Name × AttributeValue) :
    WrittenAttribute :=
  ⟨writtenName prefixes entry.1, entry.2.chars⟩

/-- The declaration of a namespace as it is written. -/
def writtenSpace (entry : String × String) : WrittenAttribute :=
  ⟨⟨some declaringWord, entry.2.toList⟩, entry.1.toList⟩

/-- The pieces of an element with the pieces in it: one piece if there is nothing in it. -/
def tagPieces (name : WrittenName) (attributes : List WrittenAttribute) (text : String)
    (isEmpty : Bool) (inner : List Piece) (tail : String) : List Piece :=
  if text = "" && isEmpty then [⟨.start name attributes true, tail.toList⟩]
  else
    ⟨.start name attributes false, text.toList⟩ :: (inner ++ [⟨.finish name, tail.toList⟩])

mutual

def nodePieces (prefixes : Keyed String String) : Node → List Piece
  | .element name attributes text children tail =>
    tagPieces (writtenName prefixes name) (attributes.map (writtenAttribute prefixes)) text
      children.isEmpty (nodesPieces prefixes children) tail
  | .comment content tail => [⟨.comment content.toList, tail.toList⟩]

def nodesPieces (prefixes : Keyed String String) : List Node → List Piece
  | [] => []
  | node :: rest => nodePieces prefixes node ++ nodesPieces prefixes rest

end

/-- The pieces of a root with its declarations and what stands behind it. -/
def rootPieces (root : Element) (tail : String) : List Piece :=
  let prefixes := prefixesOf root
  tagPieces (writtenName prefixes root.name)
    ((declaredSpaces root).map writtenSpace ++ root.attributes.map (writtenAttribute prefixes))
    root.text root.children.isEmpty (nodesPieces prefixes root.children) tail

/-- The rules of a tree whose attribute values are texts. -/
def textual : TreeRules where
  tag _ attributes := ∀ entry ∈ attributes, entry.2.IsText
  text _ := True
  comment _ := True

/-! ## Characters -/

section Characters

variable {prefixes : Keyed String String}

theorem nodesPieces_eq_flatMap (nodes : List Node) :
    nodesPieces prefixes nodes = nodes.flatMap (nodePieces prefixes) := by
  induction nodes with
  | nil => rfl
  | cons node rest ih => rw [nodesPieces, ih, List.flatMap_cons]

theorem printedName_eq (name : Name) :
    printedName prefixes name = (writtenName prefixes name).chars := by
  obtain ⟨space, localPart⟩ := name
  cases space with
  | none => rfl
  | some uri =>
      simp only [printedName, writtenName, prefixFor, WrittenName.chars, Option.map_some]
      cases Keyed.get? uri prefixes <;> rfl

theorem printedAttribute_eq {entry : Name × AttributeValue} (isText : entry.2.IsText) :
    printedAttribute prefixes entry = (writtenAttribute prefixes entry).chars := by
  obtain ⟨name, value⟩ := entry
  obtain ⟨content, rfl⟩ := isText.eq_text
  simp only [printedAttribute, printedName_eq, printedValue, WrittenAttribute.chars,
    writtenAttribute, List.cons_append, List.append_assoc]
  rfl

theorem printedSpace_eq (entry : String × String) :
    printedSpace entry = (writtenSpace entry).chars := by
  have split : " xmlns:".toList = ' ' :: (declaringWord ++ [':']) := by decide
  unfold printedSpace
  rw [split]
  simp [WrittenAttribute.chars, writtenSpace, WrittenName.chars, escapedAttribute,
    escapedValueChars]

theorem printedAttributes_eq {attributes : Attributes}
    (isText : ∀ entry ∈ attributes, entry.2.IsText) :
    attributes.flatMap (printedAttribute prefixes) =
      (attributes.map (writtenAttribute prefixes)).flatMap WrittenAttribute.chars := by
  rw [List.flatMap_map]
  exact List.flatMap_congr fun entry member => printedAttribute_eq (isText entry member)

theorem chars_tagPieces (name : WrittenName) (attributes : List WrittenAttribute)
    (text : String) (isEmpty : Bool) (inner : List Piece) (tail : String) :
    (tagPieces name attributes text isEmpty inner tail).flatMap Piece.chars =
      '<' :: (name.chars ++ (attributes.flatMap WrittenAttribute.chars ++
        ((if text = "" && isEmpty then " />".toList
          else '>' :: (escapedText text ++ (inner.flatMap Piece.chars ++
            ("</".toList ++ (name.chars ++ ['>']))))) ++ escapedText tail))) := by
  unfold tagPieces
  split
  · simp [Piece.chars, Markup.chars, tagClosing, escapedText, escapedTextChars]
  · simp [Piece.chars, Markup.chars, tagClosing, escapedText, escapedTextChars]

theorem printNode_eq {node : Node} (isTextual : node.Meets textual) :
    printNode prefixes node = (nodePieces prefixes node).flatMap Piece.chars := by
  induction node with
  | element name attributes text children tail ih =>
      obtain ⟨isText, _, childrenTextual, _⟩ := meets_element.mp isTextual
      have inner : printNodes prefixes children =
          (nodesPieces prefixes children).flatMap Piece.chars := by
        clear isTextual
        induction children with
        | nil => rfl
        | cons child rest rest_step =>
            rw [printNodes, nodesPieces, List.flatMap_append,
              ih child (by simp) (childrenTextual child (by simp)),
              rest_step (fun other member => ih other (by simp [member]))
                fun other member => childrenTextual other (by simp [member])]
      rw [printNode, nodePieces, chars_tagPieces, inner, printedName_eq,
        printedAttributes_eq isText]
      simp only [List.cons_append, List.append_assoc]
  | comment content tail =>
      simp [printNode, nodePieces, Piece.chars, Markup.chars, escapedText, escapedTextChars]

theorem printNodes_eq {nodes : List Node} (isTextual : ∀ node ∈ nodes, node.Meets textual) :
    printNodes prefixes nodes = (nodesPieces prefixes nodes).flatMap Piece.chars := by
  induction nodes with
  | nil => rfl
  | cons node rest ih =>
      rw [printNodes, nodesPieces, List.flatMap_append, printNode_eq (isTextual node (by simp)),
        ih fun other member => isTextual other (by simp [member])]

/-- A printed document is its declaration and the pieces of its root. -/
theorem toList_document {root : Element} (isTextual : root.Meets textual) :
    (document root).toList =
      declarationLine.toList ++ (rootPieces root "\n").flatMap Piece.chars := by
  obtain ⟨isText, _, childrenTextual⟩ := Element.meets_iff.mp isTextual
  have declared : (declaredSpaces root).flatMap printedSpace =
      ((declaredSpaces root).map writtenSpace).flatMap WrittenAttribute.chars := by
    rw [List.flatMap_map]
    exact List.flatMap_congr fun entry _ => printedSpace_eq entry
  have printed : printRoot root ++ ['\n'] = (rootPieces root "\n").flatMap Piece.chars := by
    rw [rootPieces, chars_tagPieces, printRoot, ← declaredSpaces, declared, printedName_eq,
      printedAttributes_eq isText, printNodes_eq childrenTextual, List.flatMap_append]
    simp only [List.cons_append, List.append_assoc]
    rfl
  rw [document, String.toList_append, String.toList_append, String.toList_ofList,
    List.append_assoc]
  exact congrArg (declarationLine.toList ++ ·) printed

end Characters

/-! ## Rules of trees -/

/-- Whether a name is that of an element or attribute in some document. -/
structure Name.Sound (name : Name) : Prop where
  localPart : isNamePart true name.localPart.toList = true
  space : ∀ uri, name.space = some uri → IsSpace uri

/-- Whether a name is one in every document. -/
def Name.IsLegible (name : Name) : Prop :=
  isNamePart false name.localPart.toList = true

/-- The rules of the trees that documents hold, apart from their attribute values. -/
def sound : TreeRules where
  tag name attributes := name.Sound ∧ (Keyed.keys attributes).Nodup ∧
    ∀ entry ∈ attributes, entry.1.Sound ∧ entry.1 ≠ Name.plain "xmlns" ∧ entry.2.IsText
  text content := content.toList.all isXmlChar = true
  comment content := IsCommentContent content.toList

/-- The rules of the trees whose names every document may hold. -/
def plainNames : TreeRules where
  tag name attributes := name.IsLegible ∧ ∀ entry ∈ attributes, entry.1.IsLegible
  text _ := True
  comment _ := True

/-- The rules of the trees whose attribute values every document may hold. -/
def admittedValues : TreeRules where
  tag _ attributes := ∀ entry ∈ attributes, entry.2.chars.all isXmlChar = true
  text _ := True
  comment _ := True

/-- The change that reading makes of the texts of a printed document. -/
def settling : PartChange where
  value := id
  text content := String.ofList (normalizeLineEnds content.toList)

@[simp] theorem settling_attributes (entries : Attributes) :
    settling.attributes entries = entries :=
  PartChange.attributes_untouched fun _ _ => rfl

theorem Name.Sound.written {name : Name} (isSound : name.Sound) (root : Element) :
    (writtenName (prefixesOf root) name).Sound := by
  refine ⟨?_, isSound.localPart⟩
  intro qualifier known
  obtain ⟨uri, _, rfl⟩ := Option.map_eq_some_iff.mp known
  exact isNamePart_prefixFor root uri

theorem isLegible_writtenName (root : Element) (name : Name) :
    (writtenName (prefixesOf root) name).isLegible = true ↔ name.IsLegible := by
  obtain ⟨space, localPart⟩ := name
  cases space with
  | none => simp [writtenName, WrittenName.isLegible, Name.IsLegible]
  | some uri =>
      simp [writtenName, WrittenName.isLegible, Name.IsLegible, isNamePart_prefixFor root uri]

theorem textual_of_sound {root : Element} (isSound : root.Meets sound) : root.Meets textual :=
  isSound.imp (fun _ _ tag entry member => (tag.2.2 entry member).2.2) (fun _ _ => trivial)
    fun _ _ => trivial

/-! ## Sound pieces -/

section Pieces

variable {name : WrittenName} {attributes : List WrittenAttribute} {text tail : String}
  {isEmpty : Bool} {inner : List Piece}

theorem sound_tagPieces (nameSound : name.Sound)
    (attributesSound : ∀ entry ∈ attributes, entry.name.Sound)
    (textSound : text.toList.all isXmlChar = true) (tailSound : tail.toList.all isXmlChar = true)
    (innerSound : ∀ piece ∈ inner, piece.Sound) :
    ∀ piece ∈ tagPieces name attributes text isEmpty inner tail, piece.Sound := by
  intro piece member
  unfold tagPieces at member
  split at member
  · obtain rfl := List.mem_singleton.mp member
    exact ⟨⟨nameSound, attributesSound⟩, tailSound⟩
  · rcases List.mem_cons.mp member with rfl | behind
    · exact ⟨⟨nameSound, attributesSound⟩, textSound⟩
    · rcases List.mem_append.mp behind with inside | last
      · exact innerSound piece inside
      · obtain rfl := List.mem_singleton.mp last
        exact ⟨nameSound, tailSound⟩

theorem isLegible_tagPieces (noneInside : isEmpty = true → inner = []) :
    (tagPieces name attributes text isEmpty inner tail).all (·.markup.isLegible) = true ↔
      name.isLegible = true ∧ (∀ entry ∈ attributes, entry.isLegible = true) ∧
        inner.all (·.markup.isLegible) = true := by
  unfold tagPieces
  split
  · rename_i closed
    simp only [Bool.and_eq_true, decide_eq_true_eq] at closed
    simp [noneInside closed.2, Markup.isLegible]
  · simp [Markup.isLegible, and_assoc]

theorem map_settled_tagPieces :
    (tagPieces name attributes text isEmpty inner tail).map Piece.settled =
      tagPieces name attributes (settling.text text) isEmpty (inner.map Piece.settled)
        (settling.text tail) := by
  have emptyIff : settling.text text = "" ↔ text = "" := by
    rw [← String.toList_inj, ← String.toList_inj]
    simp [settling, normalizeLineEnds_eq_nil_iff]
  unfold tagPieces
  simp only [emptyIff]
  split
  · simp [Piece.settled, settling]
  · simp [Piece.settled, settling]

end Pieces

section Trees

variable (root : Element)

theorem sound_nodePieces {node : Node} (isSound : node.Meets sound) :
    ∀ piece ∈ nodePieces (prefixesOf root) node, piece.Sound := by
  induction node with
  | element name attributes text children tail ih =>
      obtain ⟨⟨nameSound, _, attributesSound⟩, textSound, childrenSound, tailSound⟩ :=
        meets_element.mp isSound
      rw [nodePieces]
      refine sound_tagPieces (nameSound.written root) ?_ textSound tailSound ?_
      · intro written member
        obtain ⟨entry, known, rfl⟩ := List.mem_map.mp member
        exact (attributesSound entry known).1.written root
      · rw [nodesPieces_eq_flatMap]
        intro piece member
        obtain ⟨child, known, inChild⟩ := List.mem_flatMap.mp member
        exact ih child known (childrenSound child known) piece inChild
  | comment content tail =>
      obtain ⟨isContent, tailSound⟩ := meets_comment.mp isSound
      intro piece member
      rw [nodePieces] at member
      obtain rfl := List.mem_singleton.mp member
      exact ⟨isContent, tailSound⟩

theorem isLegible_writtenAttribute (entry : Name × AttributeValue) :
    (writtenAttribute (prefixesOf root) entry).isLegible = true ↔
      entry.1.IsLegible ∧ entry.2.chars.all isXmlChar = true := by
  rw [WrittenAttribute.isLegible, Bool.and_eq_true, writtenAttribute, isLegible_writtenName]

theorem isLegible_writtenTag (name : Name) (attributes : Attributes) :
    ((writtenName (prefixesOf root) name).isLegible = true ∧
        ∀ entry ∈ attributes.map (writtenAttribute (prefixesOf root)),
          entry.isLegible = true) ↔
      plainNames.tag name attributes ∧ admittedValues.tag name attributes := by
  simp only [isLegible_writtenName, List.forall_mem_map, isLegible_writtenAttribute, plainNames,
    admittedValues, and_assoc, forall_and]

theorem isLegible_nodePieces (node : Node) :
    (nodePieces (prefixesOf root) node).all (·.markup.isLegible) = true ↔
      node.Meets plainNames ∧ node.Meets admittedValues := by
  induction node with
  | element name attributes text children tail ih =>
      have inner : (nodesPieces (prefixesOf root) children).all (·.markup.isLegible) = true ↔
          (∀ child ∈ children, child.Meets plainNames) ∧
            ∀ child ∈ children, child.Meets admittedValues := by
        rw [nodesPieces_eq_flatMap, List.all_flatMap, List.all_eq_true, ← forall₂_and]
        exact forall₂_congr ih
      rw [nodePieces, isLegible_tagPieces, ← and_assoc, isLegible_writtenTag, inner]
      · simp only [meets_element, plainNames, admittedValues]
        tauto
      · intro isEmpty
        rw [List.isEmpty_iff.mp isEmpty]
        rfl
  | comment content tail =>
      simp [nodePieces, Markup.isLegible, plainNames, admittedValues]

theorem map_settled_nodePieces (prefixes : Keyed String String) (node : Node) :
    (nodePieces prefixes node).map Piece.settled = nodePieces prefixes (node.change settling) := by
  induction node with
  | element name attributes text children tail ih =>
      have inner : (nodesPieces prefixes children).map Piece.settled =
          nodesPieces prefixes (children.map (Node.change settling)) := by
        rw [nodesPieces_eq_flatMap, nodesPieces_eq_flatMap, List.map_flatMap, List.flatMap_map]
        exact List.flatMap_congr ih
      rw [nodePieces, map_settled_tagPieces, inner, change_element, nodePieces,
        settling_attributes, List.isEmpty_map]
  | comment content tail => simp [nodePieces, Piece.settled, settling]

end Trees

end IdeModules.Xml
