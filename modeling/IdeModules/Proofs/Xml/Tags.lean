import IdeModules.Proofs.Xml.Escaping

/-!
# Start tags as they are written

A start tag is written as its name, its attributes and a closing.  Reading it
gives the name and the attributes back if all of them are legible and all
values hold only characters that a document may hold, and fails otherwise.
-/

namespace IdeModules.Xml

namespace WrittenAttribute

def chars (entry : WrittenAttribute) : List Char :=
  ' ' :: (entry.name.chars ++ '=' :: '"' :: (escapedValueChars entry.value ++ ['"']))

/-- Whether an attribute is read back. -/
def isLegible (entry : WrittenAttribute) : Bool :=
  entry.name.isLegible && entry.value.all isXmlChar

end WrittenAttribute

def tagClosing (isClosed : Bool) : List Char :=
  if isClosed then " />".toList else ['>']

/-! ## White space -/

theorem skipXmlSpace_of_not_space {c : Char} (notSpace : isXmlSpace c = false)
    (rest : List Char) : skipXmlSpace (c :: rest) = c :: rest := by
  simp [skipXmlSpace, notSpace]

theorem skipXmlSpace_blank (rest : List Char) :
    skipXmlSpace (' ' :: rest) = skipXmlSpace rest := by
  simp [skipXmlSpace, isXmlSpace]

theorem not_isXmlSpace_of_isNameChar {c : Char} (inName : isNameChar true c = true) :
    isXmlSpace c = false := by
  have notSeparator := not_separator_of_isNameChar inName
  simp only [separators, List.mem_cons, List.not_mem_nil, or_false, not_or] at notSeparator
  simp [isXmlSpace, notSeparator]

/-! ## Names -/

theorem isNameChar_of_isNamePart_head {signs : Bool} {c : Char} {cs : List Char}
    (part : isNamePart signs (c :: cs) = true) : isNameChar true c = true :=
  isNameChar_true (isNameChar_of_mem part (by simp))

theorem WrittenName.Sound.chars_eq_cons {name : WrittenName} (sound : name.Sound) :
    ∃ c more, name.chars = c :: more ∧ isNameChar true c = true := by
  obtain ⟨qualifier, localPart⟩ := name
  obtain ⟨qualifierLegible, localSound⟩ := sound
  cases qualifier with
  | none =>
      cases localPart with
      | nil => simp [isNamePart] at localSound
      | cons c cs => exact ⟨c, cs, rfl, isNameChar_of_isNamePart_head localSound⟩
  | some qualifier =>
      have legible := qualifierLegible qualifier rfl
      cases qualifier with
      | nil => simp [isNamePart] at legible
      | cons c cs =>
          exact ⟨c, cs ++ ':' :: localPart, rfl, isNameChar_of_isNamePart_head legible⟩

/-- Every character of a sound name is the colon or belongs to a name. -/
theorem WrittenName.Sound.of_mem_chars {name : WrittenName} (sound : name.Sound) {c : Char}
    (member : c ∈ name.chars) : c = ':' ∨ isNameChar true c = true := by
  obtain ⟨qualifier, localPart⟩ := name
  obtain ⟨qualifierLegible, localSound⟩ := sound
  cases qualifier with
  | none => exact .inr (isNameChar_of_mem localSound member)
  | some qualifier =>
      rcases List.mem_append.mp member with inQualifier | behind
      · exact .inr (isNameChar_true (isNameChar_of_mem (qualifierLegible qualifier rfl)
          inQualifier))
      · rcases List.mem_cons.mp behind with colon | inLocal
        · exact .inl colon
        · exact .inr (isNameChar_of_mem localSound inLocal)

/-! ## Attributes -/

/-- Reading goes on behind an attribute that is legible, and ends at any other. -/
theorem takeAttributes_attribute {entry : WrittenAttribute} (sound : entry.name.Sound)
    (steps : Nat) (rest : List Char) :
    takeAttributes plainDialect (steps + 1) (entry.chars ++ rest) =
      if entry.isLegible then
        (takeAttributes plainDialect steps rest).map fun found => (entry :: found.1, found.2)
      else none := by
  obtain ⟨name, value⟩ := entry
  obtain ⟨c, more, split, inName⟩ := sound.chars_eq_cons
  have notSeparator := not_separator_of_isNameChar inName
  have behind : (WrittenAttribute.chars ⟨name, value⟩ ++ rest) =
      ' ' :: (name.chars ++ '=' :: '"' :: (escapedValueChars value ++ '"' :: rest)) := by
    simp [WrittenAttribute.chars]
  have inner : skipXmlSpace (WrittenAttribute.chars ⟨name, value⟩ ++ rest) =
      name.chars ++ '=' :: '"' :: (escapedValueChars value ++ '"' :: rest) := by
    rw [behind, skipXmlSpace_blank, split, List.cons_append,
      skipXmlSpace_of_not_space (not_isXmlSpace_of_isNameChar inName)]
  rw [takeAttributes, inner]
  split
  · rename_i closing
    obtain ⟨rfl, _⟩ := List.cons.inj ((split ▸ closing : c :: (more ++ _) = _))
    exact absurd (by decide) notSeparator
  · rename_i closing
    obtain ⟨rfl, _⟩ := List.cons.inj ((split ▸ closing : c :: (more ++ _) = _))
    exact absurd (by decide) notSeparator
  · rw [if_neg (by rw [behind]; simp)]
    by_cases legible : name.isLegible = true
    · rw [takeName_legible legible (by decide) (by decide)]
      simp only [skipXmlSpace_of_not_space (c := '=') (by decide),
        skipXmlSpace_of_not_space (c := '"') (by decide), takeQuoted_escapedValueChars,
        expandValue_escapedValueChars, WrittenAttribute.isLegible, legible, Bool.true_and]
      by_cases admitted : value.all isXmlChar = true
      · simp only [admitted, if_true]
        cases takeAttributes plainDialect steps rest <;> rfl
      · simp [admitted]
    · have illegible : name.isLegible = false := by simpa using legible
      simp only [WrittenAttribute.isLegible, illegible, Bool.false_and]
      cases taken : takeName plainDialect
          (name.chars ++ '=' :: '"' :: (escapedValueChars value ++ '"' :: rest)) with
      | none => rfl
      | some found =>
          obtain ⟨d, others, atSign, dInName⟩ := takeName_illegible sound illegible taken
          obtain ⟨first, after⟩ := found
          obtain rfl : after = d :: others := atSign
          have unskipped := skipXmlSpace_of_not_space
            (not_isXmlSpace_of_isNameChar dInName) others
          have notEquals : d ≠ '=' := fun same =>
            not_separator_of_isNameChar dInName (by rw [same]; decide)
          simp [unskipped, notEquals]

theorem takeAttributes_closing (steps : Nat) (isClosed : Bool) (rest : List Char) :
    takeAttributes plainDialect (steps + 1) (tagClosing isClosed ++ rest) =
      some ([], isClosed, rest) := by
  cases isClosed <;> rfl

theorem takeAttributes_chars {attributes : List WrittenAttribute}
    (sound : ∀ entry ∈ attributes, entry.name.Sound) (isClosed : Bool)
    (rest : List Char) {steps : Nat} (enough : attributes.length < steps) :
    takeAttributes plainDialect steps
        (attributes.flatMap WrittenAttribute.chars ++ (tagClosing isClosed ++ rest)) =
      if attributes.all WrittenAttribute.isLegible then some (attributes, isClosed, rest)
      else none := by
  induction attributes generalizing steps with
  | nil =>
      obtain ⟨fewer, rfl⟩ := Nat.exists_eq_add_of_lt enough
      exact takeAttributes_closing _ isClosed rest
  | cons entry attributes ih =>
      cases steps with
      | zero => simp at enough
      | succ steps =>
          have others := ih
            (fun other member => sound other (List.mem_cons_of_mem _ member))
            (by simpa using enough)
          rw [List.flatMap_cons, List.append_assoc,
            takeAttributes_attribute (sound entry (by simp)), others]
          by_cases legible : entry.isLegible = true
          · by_cases othersLegible : attributes.all WrittenAttribute.isLegible = true <;>
              simp [legible, othersLegible]
          · simp [legible]

/-! ## Tags -/

/-- What stands behind a name in a start tag ends the name. -/
theorem tag_rest_eq_cons (attributes : List WrittenAttribute) (isClosed : Bool)
    (rest : List Char) :
    ∃ c more, attributes.flatMap WrittenAttribute.chars ++ (tagClosing isClosed ++ rest) =
      c :: more ∧ c ∈ separators ∧ c ≠ ':' := by
  cases attributes with
  | nil => cases isClosed <;> exact ⟨_, _, rfl, by decide, by decide⟩
  | cons entry attributes => exact ⟨' ', _, rfl, by decide, by decide⟩

theorem takeStart_chars {name : WrittenName} {attributes : List WrittenAttribute}
    (nameSound : name.Sound) (sound : ∀ entry ∈ attributes, entry.name.Sound)
    (isClosed : Bool) (rest : List Char) :
    takeStart plainDialect (name.chars ++
        (attributes.flatMap WrittenAttribute.chars ++ (tagClosing isClosed ++ rest))) =
      if name.isLegible && attributes.all WrittenAttribute.isLegible then
        some (.start name attributes isClosed, rest)
      else none := by
  have enough : attributes.length <
      (attributes.flatMap WrittenAttribute.chars ++ (tagClosing isClosed ++ rest)).length + 1 := by
    have counted : attributes.length ≤ (attributes.flatMap WrittenAttribute.chars).length := by
      clear sound
      induction attributes with
      | nil => simp
      | cons entry attributes ih =>
          simp only [List.flatMap_cons, List.length_append, List.length_cons,
            WrittenAttribute.chars]
          omega
    simp only [List.length_append]
    omega
  unfold takeStart
  by_cases legible : name.isLegible = true
  · obtain ⟨c, more, split, separates, notColon⟩ := tag_rest_eq_cons attributes isClosed rest
    have taken := takeName_legible legible separates notColon more
    rw [← split] at taken
    rw [taken]
    simp only [takeAttributes_chars sound isClosed rest enough, legible, Bool.true_and]
    by_cases allLegible : attributes.all WrittenAttribute.isLegible = true <;>
      simp [allLegible]
  · have illegible : name.isLegible = false := by simpa using legible
    simp only [illegible, Bool.false_and]
    split
    · rfl
    · rename_i first after taken
      obtain ⟨d, others, atSign, dInName⟩ := takeName_illegible nameSound illegible taken
      obtain rfl : after = d :: others := atSign
      have notSeparator := not_separator_of_isNameChar dInName
      simp only [separators, List.mem_cons, List.not_mem_nil, or_false, not_or] at notSeparator
      rw [takeAttributes, skipXmlSpace_of_not_space (not_isXmlSpace_of_isNameChar dInName)]
      simp [notSeparator]

end IdeModules.Xml
