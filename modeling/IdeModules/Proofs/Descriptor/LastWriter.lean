import IdeModules.Proofs.Descriptor.Overwriting
import IdeModules.Proofs.Descriptor.Rereading
import IdeModules.Proofs.Xml.Rearrangement

/-!
# The last descriptor that is written

A descriptor that is written over another one leaves nothing of that in the
document: only an attribute that the other one has removed or added may stand at
another place.  A descriptor that is written twice gives the same text.
-/

namespace IdeModules

open Xml

/-- The rules of trees that have a document: no tag has an attribute twice, and every value
has a written form. -/
def Xml.serializable : TreeRules where
  tag _ attributes := (Keyed.keys attributes).Nodup ∧ ∀ entry ∈ attributes, entry.2 ≠ .unwritable
  text _ := True
  comment _ := True

theorem Xml.Element.Meets.writable {root : Element} (meets : root.Meets serializable) :
    root.Meets writable := by
  refine meets.imp ?_ ?_ ?_
  · exact fun _ _ tag => tag.2
  · exact fun _ _ => trivial
  · exact fun _ _ => trivial

namespace Descriptor

variable (descriptor : Descriptor)

/-! ## Attributes -/

theorem nodup_markedAttributes {entries : Attributes} (nodup : (Keyed.keys entries).Nodup) :
    (Keyed.keys (descriptor.markedAttributes entries)).Nodup := by
  unfold markedAttributes
  cases descriptor.languageLevel with
  | none => exact Keyed.nodup_keys_erase (Keyed.nodup_keys_put nodup)
  | some level => exact Keyed.nodup_keys_put (Keyed.nodup_keys_put nodup)

/-- Writing leaves the attributes of namespaces as they are. -/
theorem filter_markedAttributes (entries : Attributes) :
    (descriptor.markedAttributes entries).filter (fun entry => entry.1.space.isSome) =
      entries.filter fun entry => entry.1.space.isSome := by
  have put (name : String) (value : AttributeValue) (entries : Attributes) :
      (Keyed.put (Name.plain name) value entries).filter (fun entry => entry.1.space.isSome) =
        entries.filter fun entry => entry.1.space.isSome :=
    @Keyed.filter_put _ _ _ _ (fun key => key.space.isSome) rfl value entries
  have erase (name : String) (entries : Attributes) :
      (Keyed.erase (Name.plain name) entries).filter (fun entry => entry.1.space.isSome) =
        entries.filter fun entry => entry.1.space.isSome :=
    @Keyed.filter_erase _ _ _ _ (fun key => key.space.isSome) rfl entries
  unfold markedAttributes
  cases descriptor.languageLevel with
  | none => rw [erase, put]
  | some level => simp only [put]

/-- Attributes that are written over are those that are written at once, in some order. -/
theorem rearranged_markedAttributes (earlier : Descriptor) {entries : Attributes}
    (nodup : (Keyed.keys entries).Nodup) :
    Rearranged (descriptor.markedAttributes (earlier.markedAttributes entries))
      (descriptor.markedAttributes entries) := by
  have same : SameValues (descriptor.markedAttributes (earlier.markedAttributes entries))
      (descriptor.markedAttributes entries) := by
    intro name
    simp only [get?_markedAttributes]
    split
    · rfl
    · split <;> rfl
  constructor
  · exact same.perm (descriptor.nodup_markedAttributes (earlier.nodup_markedAttributes nodup))
      (descriptor.nodup_markedAttributes nodup)
  · rw [filter_markedAttributes, filter_markedAttributes, filter_markedAttributes]

/-! ## Trees -/

theorem meets_withRootManager {root : Element} (meets : root.Meets serializable) :
    (withRootManager root).Meets serializable := by
  obtain ⟨tagMeets, _, childrenMeet⟩ := Element.meets_iff.mp meets
  unfold withRootManager
  split
  · exact meets
  · refine Element.meets_iff.mpr ⟨tagMeets, trivial, List.forall_mem_cons.mpr ⟨?_, childrenMeet⟩⟩
    simp [Element.make, Element.meets_iff, serializable, Keyed.keys]

section Earlier

variable {earlier : Descriptor}
  (covered : descriptor.root.isSome = true → earlier.root.isSome = true)

include covered

theorem rearranged_writeComponent (component : Element)
    (nodup : (Keyed.keys component.attributes).Nodup) :
    (descriptor.writeComponent (earlier.writeComponent component)).Rearranged
      (descriptor.writeComponent component) := by
  simp only [writeComponent_eq, descriptor.markedChildren_markedChildren covered]
  exact ⟨rfl, descriptor.rearranged_markedAttributes earlier nodup, rfl,
    forall₂_rearranged_refl _⟩

theorem rearranged_writeNode {node : Node} (meets : node.Meets serializable) :
    (descriptor.writeNode (earlier.writeNode node)).Rearranged (descriptor.writeNode node) := by
  cases node with
  | element name attributes text children tail =>
      have component := descriptor.rearranged_writeComponent covered
        (Element.mk name attributes text children) (meets_element.mp meets).1.1
      exact component.toNode tail
  | comment content tail => exact .comment

/-- A descriptor that is written over another one leaves nothing of that but the order of
attributes. -/
theorem rearranged_writeTo {root : Element} (meets : root.Meets serializable) :
    (descriptor.writeTo (earlier.writeTo root)).Rearranged (descriptor.writeTo root) := by
  have has : (earlier.writeTo root).children.any (isComponent rootManager) = true := by
    rw [writeTo, any_replaceFirst earlier.isComponent_written, any_withRootManager]
  have prepared := Element.meets_iff.mp (meets_withRootManager meets)
  have same : List.Forall₂ (fun left right => left = right ∧ left.Meets serializable)
      (withRootManager root).children (withRootManager root).children :=
    List.forall₂_same.mpr fun node member => ⟨rfl, prepared.2.2 node member⟩
  rw [writeTo, withRootManager_of_any has]
  simp only [writeTo, replaceFirst_replaceFirst earlier.isComponent_written]
  refine ⟨rfl, .refl _, rfl, forall₂_replaceFirst ?_ ?_ ?_ same⟩
  · rintro left _ ⟨rfl, _⟩
    rfl
  · rintro left _ ⟨rfl, nodeMeets⟩ _
    exact descriptor.rearranged_writeNode covered nodeMeets
  · rintro left _ ⟨rfl, _⟩
    exact .refl left

end Earlier

/-! ## Documents -/

/-- Whether the development kit of a descriptor is a text or missing. -/
def HasTextKit (descriptor : Descriptor) : Prop :=
  descriptor.jdkName = .null ∨ ∃ name, descriptor.jdkName = .str name

def onTree (descriptor : Descriptor) (root : Element) : Descriptor :=
  { descriptor with tree := some root }

variable {descriptor}

theorem HasTextKit.isWritten (isText : descriptor.HasTextKit) :
    descriptor.jdkName.isEmpty = true ∨ jdkAttribute descriptor.jdkName ≠ .unwritable := by
  rcases isText with isNull | ⟨name, isName⟩
  · rw [isNull]
    exact .inl rfl
  · rw [isName, jdkAttribute]
    apply Or.inr
    intro isUnwritable
    cases isUnwritable

/-- A written and indented tree has a document. -/
theorem writable_written (isText : descriptor.HasTextKit) {root : Element}
    (meets : root.Meets writable) : (descriptor.writeTo root).indent.Meets writable :=
  (Element.meets_indent_iff fun _ => trivial).mpr
    ((keeps_writable isText.isWritten).writeTo meets)

theorem write_onTree (isText : descriptor.HasTextKit) {root : Element}
    (meets : root.Meets writable) :
    (descriptor.onTree root).write =
      (descriptor.onTree (descriptor.writeTo root).indent,
        .ok (document (descriptor.writeTo root).indent)) := by
  have written : (descriptor.writeTo root).indent.isWritable = true :=
    (Element.isWritable_iff _).mpr (writable_written isText meets)
  show (descriptor.onTree (descriptor.writeTo root).indent,
    serialize (descriptor.writeTo root).indent) = _
  rw [serialize, if_pos written]

end Descriptor

/-- The last descriptor wins: written over an earlier one, it gives the document that it would
have given in the tree before, with the same prefixes, up to the order of attributes.  The
earlier one must have a content root if the later one has one.  A descriptor that is written
again gives the same text, with or without a content root. -/
theorem last_writer_wins {root : Element} (meets : root.Meets serializable)
    {descriptor : Descriptor} (isText : descriptor.HasTextKit) :
    (∀ earlier : Descriptor, earlier.HasTextKit →
      (descriptor.root.isSome = true → earlier.root.isSome = true) →
      ∃ between after direct,
        (earlier.onTree root).write = (earlier.onTree between, .ok (document between)) ∧
        (descriptor.onTree between).write.2 = .ok (document after) ∧
        (descriptor.onTree root).write.2 = .ok (document direct) ∧
        after.Rearranged direct ∧ prefixesOf after = prefixesOf direct) ∧
    ∃ text, (descriptor.onTree root).write.2 = .ok text ∧
      (descriptor.onTree root).write.1.write.2 = .ok text := by
  have writable := meets.writable
  have direct := Descriptor.write_onTree isText writable
  constructor
  · intro earlier earlierText covered
    have betweenWritable := Descriptor.writable_written earlierText writable
    have after := Descriptor.write_onTree isText betweenWritable
    rw [descriptor.indent_writeTo_indent] at after
    have rearranged := (descriptor.rearranged_writeTo covered meets).indented
    exact ⟨_, _, _, Descriptor.write_onTree earlierText writable, congrArg Prod.snd after,
      congrArg Prod.snd direct, rearranged, rearranged.prefixesOf_eq⟩
  · have again := Descriptor.write_onTree isText (Descriptor.writable_written isText writable)
    rw [descriptor.indent_writeTo_indent_writeTo] at again
    refine ⟨_, congrArg Prod.snd direct, ?_⟩
    rw [direct]
    exact congrArg Prod.snd again

/-- A descriptor that names no language level is written over one that does. -/
theorem dependent_descriptor_wins :
    ∃ between after direct,
      (({ dependentDescriptor (.str "17") none with languageLevel := some "JDK_17" }).onTree
        foreignRoot).write.2 = .ok (document between) ∧
      ((dependentDescriptor .null none).onTree between).write.2 = .ok (document after) ∧
      ((dependentDescriptor .null none).onTree foreignRoot).write.2 = .ok (document direct) ∧
      after.Rearranged direct ∧ prefixesOf after = prefixesOf direct := by
  have meets : foreignRoot.Meets serializable := by
    simp [foreignRoot, Element.make, Element.withChildren, Node.ofElement, Element.meets_iff,
      serializable, Keyed.keys]
  have isText : (dependentDescriptor .null none).HasTextKit := .inl rfl
  obtain ⟨wins, _⟩ := last_writer_wins meets isText
  obtain ⟨between, after, direct, first, second, alone, rearranged, prefixes⟩ :=
    wins { dependentDescriptor (.str "17") none with languageLevel := some "JDK_17" }
      (.inr ⟨"17", rfl⟩) fun _ => rfl
  exact ⟨between, after, direct, congrArg Prod.snd first, second, alone, rearranged, prefixes⟩

end IdeModules
