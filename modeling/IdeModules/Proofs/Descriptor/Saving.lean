import IdeModules.Proofs.Descriptor.Frame
import IdeModules.Proofs.Xml.Acceptance

/-!
# Saved descriptors are read back

The document of a descriptor is that of a tree whose attribute values are texts:
a development kit that is no text is written as the text that shows it, unless
that text has to be escaped.  So the document is read back as the written tree,
if it is read at all.
-/

namespace IdeModules

open Xml

/-! ## Written forms -/

/-- The rules of trees that have a written form. -/
def Xml.writable : TreeRules where
  tag _ attributes := ∀ entry ∈ attributes, entry.2 ≠ .unwritable
  text _ := True
  comment _ := True

theorem Xml.attributesWritable_iff (attributes : Attributes) :
    attributesWritable attributes = true ↔ ∀ entry ∈ attributes, entry.2 ≠ .unwritable := by
  simp [attributesWritable]

theorem Xml.nodesWritable_eq_all (nodes : List Node) :
    nodesWritable nodes = nodes.all nodeWritable := by
  induction nodes with
  | nil => rfl
  | cons node rest ih => rw [nodesWritable, ih, List.all_cons]

theorem Xml.nodeWritable_iff (node : Node) : nodeWritable node = true ↔ node.Meets writable := by
  induction node with
  | element name attributes text children tail ih =>
      rw [nodeWritable, Bool.and_eq_true, attributesWritable_iff, nodesWritable_eq_all,
        List.all_eq_true, meets_element, forall₂_congr ih]
      simp [writable]
  | comment content tail => simp [nodeWritable, writable]

theorem Xml.Element.isWritable_iff (root : Element) :
    root.isWritable = true ↔ root.Meets writable := by
  rw [Element.isWritable, Bool.and_eq_true, attributesWritable_iff, nodesWritable_eq_all,
    List.all_eq_true, Element.meets_iff, forall₂_congr fun node _ => nodeWritable_iff node]
  simp [writable]

/-- Rules that texts have no part in hold of an indented tree as of the tree. -/
theorem Xml.Element.meets_indent_iff {rules : TreeRules} (noText : ∀ content, rules.text content)
    {root : Element} : root.indent.Meets rules ↔ root.Meets rules := by
  have unchanged : ∀ other : Element, (other.change withoutTexts).Meets rules ↔
      other.Meets rules := fun other => Element.meets_change_text_iff noText
  rw [← unchanged root.indent, Element.change_indent_withoutTexts, unchanged]

theorem Xml.sound_indent {root : Element} (isSound : root.Meets sound) :
    root.indent.Meets sound := by
  apply isSound.indent
  intro depth
  simp only [sound, lineIndent, String.toList_ofList, List.all_cons, List.all_replicate]
  split <;> decide

/-! ## Values as texts -/

/-- A value that is written as it stands, as the text that is written. -/
def Xml.AttributeValue.asText : AttributeValue → AttributeValue
  | .text content => .text content
  | .verbatim content => .text content
  | .unwritable => .unwritable

theorem Xml.asText_comp_asText :
    AttributeValue.asText ∘ AttributeValue.asText = AttributeValue.asText := by
  funext value
  cases value <;> rfl

/-- The rules of trees whose values are printed as the texts that they show. -/
def Xml.plainValues : TreeRules where
  tag _ attributes := ∀ entry ∈ attributes, printedValue entry.2.asText = printedValue entry.2
  text _ := True
  comment _ := True

section Printing

variable {prefixes : Keyed String String}

theorem Xml.printedAttributes_asText {attributes : Attributes}
    (plain : ∀ entry ∈ attributes, printedValue entry.2.asText = printedValue entry.2) :
    ((PartChange.ofValues AttributeValue.asText).attributes attributes).flatMap
        (printedAttribute prefixes) =
      attributes.flatMap (printedAttribute prefixes) := by
  rw [PartChange.attributes, List.flatMap_map]
  refine List.flatMap_congr ?_
  intro entry member
  have same : printedValue ((PartChange.ofValues AttributeValue.asText).value entry.2) =
      printedValue entry.2 := plain entry member
  rw [printedAttribute, printedAttribute, same]

theorem Xml.printNodes_eq_flatMap (nodes : List Node) :
    printNodes prefixes nodes = nodes.flatMap (printNode prefixes) := by
  induction nodes with
  | nil => rfl
  | cons node rest ih => rw [printNodes, ih, List.flatMap_cons]

theorem Xml.printNode_asText {node : Node} (plain : node.Meets plainValues) :
    printNode prefixes (node.change (.ofValues AttributeValue.asText)) =
      printNode prefixes node := by
  induction node with
  | element name attributes text children tail ih =>
      obtain ⟨valuesPlain, _, childrenPlain, _⟩ := meets_element.mp plain
      have inner : printNodes prefixes
          (children.map (Node.change (.ofValues AttributeValue.asText))) =
            printNodes prefixes children := by
        rw [printNodes_eq_flatMap, printNodes_eq_flatMap, List.flatMap_map]
        exact List.flatMap_congr fun child member =>
          ih child member (childrenPlain child member)
      rw [change_element, printNode, printNode, inner, printedAttributes_asText valuesPlain,
        List.isEmpty_map]
      rfl
  | comment content tail =>
      rw [change_comment]
      rfl

theorem Xml.document_asText {root : Element} (plain : root.Meets plainValues) :
    document (root.change (.ofValues AttributeValue.asText)) = document root := by
  obtain ⟨valuesPlain, _, childrenPlain⟩ := Element.meets_iff.mp plain
  have inner : printNodes (prefixesOf root)
      (root.children.map (Node.change (.ofValues AttributeValue.asText))) =
        printNodes (prefixesOf root) root.children := by
    rw [printNodes_eq_flatMap, printNodes_eq_flatMap, List.flatMap_map]
    exact List.flatMap_congr fun child member => printNode_asText (childrenPlain child member)
  have printed : printRoot (root.change (.ofValues AttributeValue.asText)) = printRoot root := by
    rw [printRoot, printRoot, prefixesOf_change]
    simp only [Element.change, changeNodes_eq_map, inner, printedAttributes_asText valuesPlain,
      List.isEmpty_map]
    rfl
  rw [document, document, printed]

end Printing

/-! ## The name of a development kit -/

/-- The name of a development kit as the text that it is written as. -/
def jdkText (name : Json.Value) : Json.Value :=
  if name.isEmpty then .null
  else
    match jdkAttribute name with
    | .text content => .str content
    | .verbatim content => .str content
    | .unwritable => .null

/-- Whether a name that is written as it stands has nothing to escape. -/
def IsPlainlyWritten (name : Json.Value) : Prop :=
  ∀ content, jdkAttribute name = .verbatim content → escapedAttribute content = content.toList

theorem bracketed_ne_empty (opening : Char) (inner : String) :
    String.singleton opening ++ inner ≠ "" := by
  intro empty
  simpa using congrArg String.toList empty

theorem verbatim_ne_empty {name : Json.Value} {content : String}
    (isVerbatim : jdkAttribute name = .verbatim content) : content ≠ "" := by
  unfold jdkAttribute at isVerbatim
  split at isVerbatim
  · simp at isVerbatim
  · split at isVerbatim
    · simp at isVerbatim
    · rw [← AttributeValue.verbatim.inj isVerbatim, Json.Value.display, Json.Value.shown,
        String.append_assoc]
      · exact bracketed_ne_empty '[' _
      · simp
  · split at isVerbatim
    · simp at isVerbatim
    · rw [← AttributeValue.verbatim.inj isVerbatim, Json.Value.display, Json.Value.shown,
        String.append_assoc]
      · exact bracketed_ne_empty '\x7b' _
      · simp
  · simp at isVerbatim

theorem eq_str_of_jdkAttribute {name : Json.Value} {content : String}
    (isText : jdkAttribute name = .text content) : name = .str content := by
  unfold jdkAttribute at isText
  split at isText
  · exact congrArg Json.Value.str (AttributeValue.text.inj isText)
  · split at isText <;> simp at isText
  · split at isText <;> simp at isText
  · simp at isText

namespace Descriptor

/-- A descriptor with the name of its development kit as a text. -/
def asText (descriptor : Descriptor) : Descriptor :=
  { descriptor with jdkName := jdkText descriptor.jdkName }

variable (descriptor : Descriptor)

/-- The element of the development kit with its values as texts. -/
theorem change_jdkElement
    (isWritten : descriptor.jdkName.isEmpty = true ∨
      jdkAttribute descriptor.jdkName ≠ .unwritable) :
    descriptor.jdkElement.change (.ofValues AttributeValue.asText) =
      descriptor.asText.jdkElement := by
  by_cases named : descriptor.jdkName.isEmpty = true
  · have inherited : descriptor.asText.jdkName.isEmpty = true := by
      rw [asText, jdkText, if_pos named]
      rfl
    rw [jdkElement, if_pos named, jdkElement, if_pos inherited]
    rfl
  · have changed : ∀ content : String, content ≠ "" →
        jdkText descriptor.jdkName = .str content →
        (jdkAttribute descriptor.jdkName).asText = .text content →
        descriptor.jdkElement.change (.ofValues AttributeValue.asText) =
          descriptor.asText.jdkElement := by
      intro content nonempty isText sameValue
      rw [asText, isText, descriptor.jdkElement_of_str nonempty, jdkElement, if_neg named]
      simp only [Element.change, PartChange.attributes, PartChange.ofValues, List.map_cons,
        List.map_nil, sameValue]
      rfl
    cases written : jdkAttribute descriptor.jdkName with
    | text content =>
        have isStr := eq_str_of_jdkAttribute written
        refine changed content ?_ (by rw [jdkText, if_neg named, written]) (by rw [written]; rfl)
        rintro rfl
        exact named (isStr ▸ rfl)
    | verbatim content =>
        exact changed content (verbatim_ne_empty written) (by rw [jdkText, if_neg named, written])
          (by rw [written]; rfl)
    | unwritable => exact absurd written (isWritten.resolve_left named)

theorem hasOnly_asText : descriptor.asText.HasOnly fun _ => true := by
  have anyText : ∀ text : String, IdeModules.HasOnly (fun _ => true) text := by
    intro text
    simp [IdeModules.HasOnly]
  constructor
  · intro root _
    exact ⟨anyText _, fun _ _ => anyText _, fun _ _ => anyText _⟩
  · exact fun url _ => anyText url
  · exact fun url _ => anyText url
  · show (jdkText descriptor.jdkName).isEmpty = true ∨ ∃ name,
      jdkText descriptor.jdkName = .str name ∧ IdeModules.HasOnly (fun _ => true) name
    unfold jdkText
    split
    · exact .inl rfl
    · split
      · exact .inr ⟨_, rfl, anyText _⟩
      · exact .inr ⟨_, rfl, anyText _⟩
      · exact .inl rfl
  · exact fun level _ => anyText level
  · intro library _
    cases library with
    | files scope classes javadoc sources =>
        exact ⟨anyText _, fun _ _ => anyText _, fun _ _ => anyText _, fun _ _ => anyText _⟩
    | unresolved scope group name version =>
        exact ⟨anyText _, anyText _, anyText _, fun _ _ => anyText _⟩
    | otherModule scope name => exact ⟨anyText _, anyText _⟩

/-! ## Written trees as texts -/

section Change

variable {change : PartChange} {name : Json.Value}

theorem map_managedNodes
    (same : ({ descriptor with jdkName := name } : Descriptor).jdkElement.change change =
      descriptor.jdkElement.change change) (existing : Option Node) :
    (({ descriptor with jdkName := name } : Descriptor).managedNodes existing).map
        (Node.change change) =
      (descriptor.managedNodes existing).map (Node.change change) := by
  unfold managedNodes orderElements
  simp only [List.map_append, List.map_cons, change_ofElement, same]
  rfl

theorem change_writeNode
    (same : ({ descriptor with jdkName := name } : Descriptor).jdkElement.change change =
      descriptor.jdkElement.change change) (node : Node) :
    (({ descriptor with jdkName := name } : Descriptor).writeNode node).change change =
      (descriptor.writeNode node).change change := by
  unfold writeNode
  split
  · rename_i component _
    rw [change_ofElement, change_ofElement, writeComponent_eq, writeComponent_eq]
    simp only [Element.change, changeNodes_eq_map, markedChildren, List.map_append,
      descriptor.map_managedNodes same]
    rfl
  · rfl

theorem change_writeTo
    (same : ({ descriptor with jdkName := name } : Descriptor).jdkElement.change change =
      descriptor.jdkElement.change change) (root : Element) :
    (({ descriptor with jdkName := name } : Descriptor).writeTo root).change change =
      (descriptor.writeTo root).change change := by
  have children := map_replaceFirst (isComponent rootManager) (descriptor.change_writeNode same)
    (withRootManager root).children
  simp only [writeTo, Element.change, changeNodes_eq_map, children]

end Change

section Text

variable {descriptor : Descriptor} {root : Element}

theorem untouched_of_textual (isTextual : root.Meets textual) :
    root.change (.ofValues AttributeValue.asText) = root := by
  refine Element.change_untouched (isTextual.imp ?_ ?_ ?_)
  · intro name attributes isText entry member
    obtain ⟨content, isContent⟩ := (isText entry member).eq_text
    rw [isContent]
    rfl
  · exact fun _ _ => rfl
  · exact fun _ _ => trivial

theorem sound_writeTo_asText (isSound : root.Meets sound) :
    (descriptor.asText.writeTo root).Meets sound :=
  (keeps_sound (fun _ _ => rfl) descriptor.hasOnly_asText).writeTo isSound

theorem sound_indent_asText (isSound : root.Meets sound) :
    (descriptor.asText.writeTo root).indent.Meets sound :=
  sound_indent (sound_writeTo_asText isSound)

theorem indent_writeTo_asText
    (isWritten : descriptor.jdkName.isEmpty = true ∨
      jdkAttribute descriptor.jdkName ≠ .unwritable) (isSound : root.Meets sound) :
    (descriptor.writeTo root).indent.change (.ofValues AttributeValue.asText) =
      (descriptor.asText.writeTo root).indent := by
  have same : descriptor.asText.jdkElement.change (.ofValues AttributeValue.asText) =
      descriptor.jdkElement.change (.ofValues AttributeValue.asText) := by
    rw [← descriptor.change_jdkElement isWritten, Element.change_change]
    simp only [PartChange.ofValues, asText_comp_asText]
    rfl
  rw [Element.change_indent_ofValues, ← descriptor.change_writeTo same root]
  exact congrArg Element.indent
    (untouched_of_textual (textual_of_sound (sound_writeTo_asText isSound)))

/-! ## Documents of written trees -/

theorem plainValues_of_textual (isTextual : root.Meets textual) : root.Meets plainValues := by
  refine isTextual.imp ?_ (fun _ _ => trivial) fun _ _ => trivial
  intro name attributes isText entry member
  obtain ⟨content, isContent⟩ := (isText entry member).eq_text
  rw [isContent]
  rfl

theorem mem_madeElements_asText {element : Element}
    (member : element ∈ descriptor.madeElements) :
    element = descriptor.jdkElement ∨ element ∈ descriptor.asText.madeElements := by
  have outputs : descriptor.asText.outputElements = descriptor.outputElements := rfl
  have libraries : descriptor.asText.libraries = descriptor.libraries := rfl
  have folders : descriptor.asText.root = descriptor.root := rfl
  simp only [madeElements, orderElements, List.mem_append, List.mem_cons, outputs, libraries,
    folders] at member ⊢
  tauto

theorem plainValues_jdkElement (plain : IsPlainlyWritten descriptor.jdkName) :
    descriptor.jdkElement.Meets plainValues := by
  have jdk : printedValue (jdkAttribute descriptor.jdkName).asText =
      printedValue (jdkAttribute descriptor.jdkName) := by
    cases written : jdkAttribute descriptor.jdkName with
    | text content => rfl
    | verbatim content => exact plain content written
    | unwritable => rfl
  unfold jdkElement
  split
  · exact plainValues_of_textual (Element.meets_iff.mpr
      ⟨by simp [textual, Element.make, AttributeValue.IsText], trivial, by simp [Element.make]⟩)
  · refine Element.meets_iff.mpr ⟨?_, trivial, by simp [Element.make]⟩
    simp only [plainValues, List.forall_mem_cons]
    exact ⟨rfl, jdk, rfl, by simp⟩

theorem keeps_plainValues (plain : IsPlainlyWritten descriptor.jdkName) :
    descriptor.Keeps plainValues where
  noText := trivial
  made element member := by
    rcases mem_madeElements_asText member with rfl | isText
    · exact plainValues_jdkElement plain
    · exact plainValues_of_textual (textual_of_sound
        ((keeps_sound (fun _ _ => rfl) descriptor.hasOnly_asText).made element isText))
  set _ _ _ _ held := Keyed.forall_mem_put held rfl
  removed _ _ held := Keyed.forall_mem_erase held

theorem isWritten_of_writable (hasForm : (descriptor.writeTo root).indent.isWritable = true) :
    descriptor.jdkName.isEmpty = true ∨ jdkAttribute descriptor.jdkName ≠ .unwritable := by
  have written : (descriptor.writeTo root).Meets writable :=
    (Element.meets_indent_iff fun _ => trivial).mp ((Element.isWritable_iff _).mp hasForm)
  obtain ⟨node, found, isElement⟩ :=
    Option.bind_eq_some_iff.mp (descriptor.component?_writeTo root)
  have component := meets_of_element?
    ((Element.meets_iff.mp written).2.2 node (List.mem_of_find?_eq_some found)) isElement
  rw [writeComponent_eq] at component
  have isChild : Node.ofElement descriptor.jdkElement "" ∈
      descriptor.markedChildren (startingComponent root).children := by
    simp [markedChildren, managedNodes, orderElements]
  have jdk := (meets_ofElement.mp ((Element.meets_iff.mp component).2.2 _ isChild)).1
  by_cases named : descriptor.jdkName.isEmpty = true
  · exact .inl named
  · right
    rw [jdkElement, if_neg named] at jdk
    exact (Element.meets_iff.mp jdk).1 (Name.plain "jdkName", jdkAttribute descriptor.jdkName)
      (by simp)

theorem meets_writable_of_textual (isTextual : root.Meets textual) : root.Meets writable := by
  refine isTextual.imp ?_ (fun _ _ => trivial) fun _ _ => trivial
  intro name attributes isText entry member
  obtain ⟨content, isContent⟩ := (isText entry member).eq_text
  rw [isContent]
  simp

theorem keeps_writable
    (isWritten : descriptor.jdkName.isEmpty = true ∨
      jdkAttribute descriptor.jdkName ≠ .unwritable) :
    descriptor.Keeps writable where
  noText := trivial
  made element member := by
    rcases mem_madeElements_asText member with rfl | isText
    · unfold jdkElement
      split
      · exact meets_writable_of_textual (Element.meets_iff.mpr
          ⟨by simp [textual, Element.make, AttributeValue.IsText], trivial,
            by simp [Element.make]⟩)
      · rename_i named
        refine Element.meets_iff.mpr ⟨?_, trivial, by simp [Element.make]⟩
        simp only [writable, List.forall_mem_cons]
        exact ⟨by simp, isWritten.resolve_left named, by simp, by simp⟩
    · exact meets_writable_of_textual (textual_of_sound
        ((keeps_sound (fun _ _ => rfl) descriptor.hasOnly_asText).made element isText))
  set _ _ _ _ held := Keyed.forall_mem_put held (by simp)
  removed _ _ held := Keyed.forall_mem_erase held

theorem writable_of_isWritten
    (isWritten : descriptor.jdkName.isEmpty = true ∨
      jdkAttribute descriptor.jdkName ≠ .unwritable) (isSound : root.Meets sound) :
    (descriptor.writeTo root).indent.isWritable = true := by
  rw [Element.isWritable_iff]
  exact (Element.meets_indent_iff fun _ => trivial).mpr
    ((keeps_writable isWritten).writeTo (meets_writable_of_textual (textual_of_sound isSound)))

variable {content : String}

theorem serialize_eq_ok_iff :
    serialize root = .ok content ↔ root.isWritable = true ∧ document root = content := by
  rw [serialize]
  split
  · rename_i hasForm
    simp [hasForm]
  · rename_i hasNone
    simp [hasNone]

/-- The document of a written tree is that of the tree with its values as texts. -/
theorem eq_document_of_serialize (isSound : root.Meets sound)
    (plain : IsPlainlyWritten descriptor.jdkName)
    (serialized : serialize (descriptor.writeTo root).indent = .ok content) :
    content = document (descriptor.asText.writeTo root).indent := by
  obtain ⟨hasForm, isDocument⟩ := serialize_eq_ok_iff.mp serialized
  have writtenPlain : (descriptor.writeTo root).indent.Meets plainValues :=
    (Element.meets_indent_iff fun _ => trivial).mpr
      ((keeps_plainValues plain).writeTo (plainValues_of_textual (textual_of_sound isSound)))
  rw [← indent_writeTo_asText (isWritten_of_writable hasForm) isSound,
    document_asText writtenPlain, isDocument]

/-- A saved document that is read at all is read as the written tree. -/
theorem eq_of_read_serialized (isSound : root.Meets sound)
    (plain : IsPlainlyWritten descriptor.jdkName)
    (serialized : serialize (descriptor.writeTo root).indent = .ok content) {found : Element}
    (read : readDocument true content = .ok found) :
    found = (descriptor.asText.writeTo root).indent.change settling := by
  have writtenSound : (descriptor.asText.writeTo root).indent.Meets sound :=
    sound_indent_asText isSound
  rw [eq_document_of_serialize isSound plain serialized] at read
  obtain ⟨namesPlain, valuesAdmitted⟩ := legible_of_readDocument writtenSound read
  rw [readDocument_document writtenSound namesPlain valuesAdmitted] at read
  exact (Except.ok.inj read).symm

end Text

end Descriptor

end IdeModules
