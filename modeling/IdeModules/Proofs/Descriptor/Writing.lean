import IdeModules.Proofs.Descriptor.Made
import IdeModules.Proofs.Xml.Replacing

/-!
# Trees that descriptors write

Writing a descriptor into a tree keeps every property of the tree that its made
elements have and that setting an attribute of the root manager and of the content
element respects.
-/

namespace IdeModules

open Xml

namespace Descriptor

/-- The attributes that writing sets on elements that are kept. -/
def setValues (descriptor : Descriptor) : List (String × String) :=
  ("inherit-compiler-output", truthText descriptor.inheritsOutput) ::
    ((descriptor.languageLevel.map ("LANGUAGE_LEVEL", ·)).toList ++
      (descriptor.root.map fun root => ("url", root.url)).toList)

/-- The elements that writing makes anew, or starts from where a tree has none. -/
def madeElements (descriptor : Descriptor) : List Element :=
  descriptor.outputElements ++ [Element.make "exclude-output" []] ++ descriptor.orderElements ++
    (descriptor.root.map ContentRoot.folders).getD [] ++
    [Element.make "content" [], Element.make "component" [("name", rootManager)]]

/-- What rules must respect to hold of all trees that a descriptor writes. -/
structure Keeps (descriptor : Descriptor) (rules : TreeRules) : Prop where
  noText : rules.text ""
  made : ∀ element ∈ descriptor.madeElements, element.Meets rules
  set : ∀ entry ∈ descriptor.setValues, ∀ name attributes, rules.tag name attributes →
    rules.tag name (Keyed.put (Name.plain entry.1) (.text entry.2) attributes)
  removed : ∀ name attributes, rules.tag name attributes →
    rules.tag name (Keyed.erase (Name.plain "LANGUAGE_LEVEL") attributes)

section Keeps

variable {descriptor : Descriptor} {rules : TreeRules}

theorem Keeps.made_node (keeps : descriptor.Keeps rules) {element : Element}
    (member : element ∈ descriptor.madeElements) : (Node.ofElement element "").Meets rules :=
  meets_ofElement.mpr ⟨keeps.made element member, keeps.noText⟩

theorem Keeps.setAttribute (keeps : descriptor.Keeps rules) {element : Element}
    (meets : element.Meets rules) {name value : String}
    (isSet : (name, value) ∈ descriptor.setValues) :
    (element.setAttribute (Name.plain name) value).Meets rules := by
  obtain ⟨tagMeets, textMeets, childrenMeet⟩ := Element.meets_iff.mp meets
  exact Element.meets_iff.mpr ⟨keeps.set _ isSet _ _ tagMeets, textMeets, childrenMeet⟩

theorem meets_of_element? {node : Node} {element : Element} (meets : node.Meets rules)
    (isElement : node.element? = some element) : element.Meets rules := by
  cases node with
  | element name attributes text children tail =>
      obtain rfl := Option.some.inj isElement
      obtain ⟨tagMeets, textMeets, childrenMeet, _⟩ := meets_element.mp meets
      exact Element.meets_iff.mpr ⟨tagMeets, textMeets, childrenMeet⟩
  | comment content tail => simp [Node.element?] at isElement

theorem Keeps.contentNode (keeps : descriptor.Keeps rules) {root : ContentRoot}
    (isRoot : descriptor.root = some root) {existing : Option Node}
    (meets : ∀ node, existing = some node → node.Meets rules) :
    (contentNode existing root).Meets rules := by
  have folders : ∀ folder ∈ root.folders, folder ∈ descriptor.madeElements := by
    intro folder member
    simp [madeElements, isRoot, member]
  have old : ((existing.bind Node.element?).getD (Element.make "content" [])).Meets rules := by
    cases existing with
    | none => exact keeps.made _ (by simp [madeElements])
    | some node =>
        cases isElement : node.element? with
        | none => simpa [isElement] using keeps.made _ (by simp [madeElements])
        | some element =>
            simpa [isElement] using meets_of_element? (meets node rfl) isElement
  have isSet : ("url", root.url) ∈ descriptor.setValues := by simp [setValues, isRoot]
  obtain ⟨tagMeets, _, childrenMeet⟩ := Element.meets_iff.mp (keeps.setAttribute old isSet)
  refine meets_ofElement.mpr ⟨Element.meets_iff.mpr ⟨tagMeets, keeps.noText, ?_⟩, ?_⟩
  · rw [List.forall_mem_append, List.forall_mem_map]
    exact ⟨fun folder member => keeps.made_node (folders folder member),
      fun child member => childrenMeet child (List.mem_filter.mp member).1⟩
  · cases existing with
    | none => exact keeps.noText
    | some node => exact (meets node rfl).tail

theorem Keeps.managedNodes (keeps : descriptor.Keeps rules) {existing : Option Node}
    (meets : ∀ node, existing = some node → node.Meets rules) :
    ∀ node ∈ descriptor.managedNodes existing, node.Meets rules := by
  have plain : ∀ elements : List Element, (∀ element ∈ elements,
      element ∈ descriptor.madeElements) →
      ∀ node ∈ elements.map (Node.ofElement · ""), node.Meets rules := by
    intro elements made
    rw [List.forall_mem_map]
    exact fun element member => keeps.made_node (made element member)
  rw [Descriptor.managedNodes, List.forall_mem_append, List.forall_mem_append]
  refine ⟨⟨plain _ ?_, ?_⟩, plain _ ?_⟩
  · intro element member
    simp only [List.mem_append] at member
    simp only [madeElements, List.mem_append]
    tauto
  · intro node member
    obtain ⟨root, isRoot, rfl⟩ := Option.map_eq_some_iff.mp (Option.mem_toList.mp member)
    exact keeps.contentNode isRoot meets
  · intro element member
    simp only [madeElements, List.mem_append]
    tauto

theorem Keeps.writeComponent (keeps : descriptor.Keeps rules) {component : Element}
    (meets : component.Meets rules) : (descriptor.writeComponent component).Meets rules := by
  have isSet : ("inherit-compiler-output", truthText descriptor.inheritsOutput) ∈
      descriptor.setValues := by simp [setValues]
  have inherits := keeps.setAttribute meets isSet
  have marked : (withLanguageLevel descriptor.languageLevel
      (component.setAttribute (Name.plain "inherit-compiler-output")
        (truthText descriptor.inheritsOutput))).Meets rules := by
    cases level : descriptor.languageLevel with
    | none =>
        obtain ⟨tagMeets, textMeets, childrenMeet⟩ := Element.meets_iff.mp inherits
        exact Element.meets_iff.mpr ⟨keeps.removed _ _ tagMeets, textMeets, childrenMeet⟩
    | some name =>
        have levelSet : ("LANGUAGE_LEVEL", name) ∈ descriptor.setValues := by
          simp [setValues, level]
        exact keeps.setAttribute inherits levelSet
  obtain ⟨_, _, childrenMeet⟩ := Element.meets_iff.mp meets
  obtain ⟨tagMeets, textMeets, _⟩ := Element.meets_iff.mp marked
  refine Element.meets_iff.mpr ⟨tagMeets, textMeets, List.forall_mem_append.mpr ⟨?_, ?_⟩⟩
  · exact fun child member => childrenMeet child (List.mem_filter.mp member).1
  · exact keeps.managedNodes fun node found => childrenMeet node (List.mem_of_find?_eq_some found)

theorem Keeps.writeNode (keeps : descriptor.Keeps rules) {node : Node}
    (meets : node.Meets rules) : (descriptor.writeNode node).Meets rules := by
  unfold Descriptor.writeNode
  split
  · rename_i component isElement
    exact meets_ofElement.mpr
      ⟨keeps.writeComponent (meets_of_element? meets isElement), meets.tail⟩
  · exact meets

end Keeps

variable {descriptor : Descriptor} {rules : TreeRules}

theorem Keeps.withRootManager (keeps : descriptor.Keeps rules) {root : Element}
    (meets : root.Meets rules) : (withRootManager root).Meets rules := by
  unfold IdeModules.Descriptor.withRootManager
  split
  · exact meets
  · obtain ⟨tagMeets, textMeets, childrenMeet⟩ := Element.meets_iff.mp meets
    refine Element.meets_iff.mpr ⟨tagMeets, textMeets, ?_⟩
    rw [List.forall_mem_cons]
    exact ⟨keeps.made_node (by simp [madeElements]), childrenMeet⟩

/-- A tree keeps rules when a descriptor that keeps them is written into it. -/
theorem Keeps.writeTo (keeps : descriptor.Keeps rules) {root : Element}
    (meets : root.Meets rules) : (descriptor.writeTo root).Meets rules := by
  obtain ⟨tagMeets, textMeets, childrenMeet⟩ := Element.meets_iff.mp (keeps.withRootManager meets)
  exact Element.meets_iff.mpr ⟨tagMeets, textMeets, forall_mem_replaceFirst childrenMeet
    fun node member => keeps.writeNode (childrenMeet node member)⟩

end Descriptor

/-! ## Rules that descriptors keep -/

theorem Keyed.forall_mem_put {motive : κ × α → Prop} [DecidableEq κ] {key : κ} {value : α}
    {entries : Keyed κ α} (held : ∀ entry ∈ entries, motive entry) (new : motive (key, value)) :
    ∀ entry ∈ Keyed.put key value entries, motive entry := by
  intro entry member
  rcases Keyed.mem_put member with rfl | known
  · exact new
  · exact held entry known

theorem Keyed.forall_mem_erase {motive : κ × α → Prop} [DecidableEq κ] {key : κ}
    {entries : Keyed κ α} (held : ∀ entry ∈ entries, motive entry) :
    ∀ entry ∈ Keyed.erase key entries, motive entry :=
  fun entry member => held entry (List.mem_filter.mp member).1

theorem Keyed.nodup_keys_erase [DecidableEq κ] {key : κ} {entries : Keyed κ α}
    (nodup : (Keyed.keys entries).Nodup) : (Keyed.keys (Keyed.erase key entries)).Nodup :=
  nodup.sublist ((List.filter_sublist).map _)

/-- The rules that no text has a carriage return in it. -/
def withoutReturns : TreeRules where
  tag _ _ := True
  text content := '\r' ∉ content.toList
  comment _ := True

namespace Descriptor

variable {descriptor : Descriptor} {allowed : Char → Bool}

theorem isAttributeWord_setValues :
    ∀ entry ∈ descriptor.setValues, isAttributeWord entry.1 = true := by
  rw [setValues, List.forall_mem_cons, List.forall_mem_append]
  refine ⟨(by decide : isAttributeWord "inherit-compiler-output" = true), ?_, ?_⟩
  · intro entry member
    obtain ⟨level, _, rfl⟩ := Option.map_eq_some_iff.mp (Option.mem_toList.mp member)
    exact (by decide : isAttributeWord "LANGUAGE_LEVEL" = true)
  · intro entry member
    obtain ⟨root, _, rfl⟩ := Option.map_eq_some_iff.mp (Option.mem_toList.mp member)
    exact (by decide : isAttributeWord "url" = true)

theorem isNamePart_setValues {entry : String × String} (member : entry ∈ descriptor.setValues) :
    isNamePart false entry.1.toList = true :=
  (Bool.and_eq_true_iff.mp (isAttributeWord_setValues entry member)).1

theorem hasOnly_setValues (ascii : ∀ c, isPrintableAscii c = true → allowed c = true)
    (only : descriptor.HasOnly allowed) :
    ∀ entry ∈ descriptor.setValues, IdeModules.HasOnly allowed entry.2 := by
  rw [setValues, List.forall_mem_cons, List.forall_mem_append]
  refine ⟨hasOnly_truthText ascii _, ?_, ?_⟩
  · intro entry member
    obtain ⟨level, isLevel, rfl⟩ := Option.map_eq_some_iff.mp (Option.mem_toList.mp member)
    exact only.languageLevel level isLevel
  · intro entry member
    obtain ⟨root, isRoot, rfl⟩ := Option.map_eq_some_iff.mp (Option.mem_toList.mp member)
    exact (only.root root isRoot).url

theorem made_madeElements (ascii : ∀ c, isPrintableAscii c = true → allowed c = true)
    (only : descriptor.HasOnly allowed) :
    ∀ element ∈ descriptor.madeElements, element.Meets (made allowed) := by
  have noFolders : ∀ folder ∈ (descriptor.root.map ContentRoot.folders).getD [],
      folder.Meets (made allowed) := by
    cases isRoot : descriptor.root with
    | none => simp
    | some root => exact made_folders ascii (only.root root isRoot)
  simp only [madeElements, List.forall_mem_append, List.forall_mem_cons]
  refine ⟨⟨⟨⟨made_outputElements only, ?_⟩, made_orderElements ascii only⟩, noFolders⟩, ?_⟩
  · exact ⟨made_make [] (by decide) rfl (by simp), by simp⟩
  · refine ⟨made_make [] (by decide) rfl (by simp), ?_, by simp⟩
    exact made_make ["name"] (by decide) rfl
      (by simpa using hasOnly_of_ascii ascii (by decide : rootManager.toList.all _ = true))

section Rules

variable (ascii : ∀ c, isPrintableAscii c = true → allowed c = true)
  (only : descriptor.HasOnly allowed)

include ascii only

theorem keeps_sound : descriptor.Keeps sound where
  noText := rfl
  made element member :=
    (meets_ofElement.mp (sound_of_made (made_ofElement
      (made_madeElements ascii only element member)))).1
  set := by
    rintro entry member name attributes ⟨nameSound, nodup, attributesSound⟩
    have isWord := isAttributeWord_setValues entry member
    simp only [isAttributeWord, Bool.and_eq_true, bne_iff_ne] at isWord
    refine ⟨nameSound, Keyed.nodup_keys_put nodup, Keyed.forall_mem_put attributesSound ?_⟩
    exact ⟨sound_plain isWord.1, fun same => isWord.2 (plain_injective same), trivial⟩
  removed := by
    rintro name attributes ⟨nameSound, nodup, attributesSound⟩
    exact ⟨nameSound, Keyed.nodup_keys_erase nodup, Keyed.forall_mem_erase attributesSound⟩

theorem keeps_plainNames : descriptor.Keeps plainNames where
  noText := trivial
  made element member :=
    (meets_ofElement.mp (plainNames_of_made (made_ofElement
      (made_madeElements ascii only element member)))).1
  set := by
    rintro entry member name attributes ⟨namePlain, attributesPlain⟩
    exact ⟨namePlain, Keyed.forall_mem_put attributesPlain (isNamePart_setValues member)⟩
  removed := by
    rintro name attributes ⟨namePlain, attributesPlain⟩
    exact ⟨namePlain, Keyed.forall_mem_erase attributesPlain⟩

theorem keeps_withoutReturns : descriptor.Keeps withoutReturns where
  noText := (by decide : '\r' ∉ "".toList)
  made element member := by
    refine (made_madeElements ascii only element member).imp ?_ ?_ ?_
    · exact fun _ _ _ => trivial
    · rintro _ rfl
      exact (by decide : '\r' ∉ "".toList)
    · exact fun _ _ => trivial
  set _ _ _ _ _ := trivial
  removed _ _ _ := trivial

end Rules

theorem isXmlChar_of_ascii (c : Char) (printable : isPrintableAscii c = true) :
    isXmlChar c = true := by
  simp only [isPrintableAscii, Bool.and_eq_true, decide_eq_true_eq] at printable
  rw [isXmlChar, if_neg (by omega), Bool.and_eq_true, bne_iff_ne, bne_iff_ne]
  omega

theorem keeps_admittedValues (only : descriptor.HasOnly isXmlChar) :
    descriptor.Keeps admittedValues := by
  refine ⟨trivial, ?_, ?_, ?_⟩
  · intro element member
    exact (meets_ofElement.mp (admittedValues_of_made (made_ofElement
      (made_madeElements isXmlChar_of_ascii only element member)))).1
  · intro entry member name attributes admitted
    exact Keyed.forall_mem_put admitted (hasOnly_setValues isXmlChar_of_ascii only entry member)
  · intro name attributes admitted
    exact Keyed.forall_mem_erase admitted

end Descriptor

end IdeModules
