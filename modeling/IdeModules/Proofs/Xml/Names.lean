import IdeModules.Xml.Token
import Mathlib.Data.List.TakeWhile

/-!
# Names as they are written

A document in single bytes admits three more letters in its names than other
documents do.  A name is *legible* where those letters are not admitted, and
*sound* where they are.  Reading a written name gives it back exactly when it
is legible; otherwise reading stops before one of the three letters.
-/

namespace IdeModules.Xml

/-- The dialect of the documents that are printed. -/
def plainDialect : Dialect := ⟨false, false⟩

/-- Whether characters are a name without a colon. -/
def isNamePart (signs : Bool) : List Char → Bool
  | [] => false
  | c :: rest => isNameStart signs c && rest.all (isNameChar signs)

/-- Whether both parts of a written name are read in every document. -/
def WrittenName.isLegible (name : WrittenName) : Bool :=
  name.qualifier.all (isNamePart false) && isNamePart false name.localPart

/-- The qualifier of a written name is legible, and its local part is a name in some document. -/
def WrittenName.Sound (name : WrittenName) : Prop :=
  (∀ qualifier, name.qualifier = some qualifier → isNamePart false qualifier = true) ∧
    isNamePart true name.localPart = true

/-! ## Characters of names -/

theorem isNameStart_true {signs : Bool} {c : Char} (start : isNameStart signs c = true) :
    isNameStart true c = true := by
  cases signs with
  | true => exact start
  | false =>
      by_cases ascii : c.toNat < 0x80
      · simpa [isNameStart, ascii] using start
      · simp only [isNameStart, ascii, if_false, Bool.or_eq_true] at start ⊢
        exact .inl (by simpa using start)

theorem isNameChar_true {signs : Bool} {c : Char} (inName : isNameChar signs c = true) :
    isNameChar true c = true := by
  cases signs with
  | true => exact inName
  | false =>
      by_cases ascii : c.toNat < 0x80
      · simpa [isNameChar, ascii] using inName
      · simp only [isNameChar, ascii, if_false, Bool.or_eq_true] at inName ⊢
        exact .inl (by simpa using inName)

theorem isNameChar_of_isNameStart {signs : Bool} {c : Char}
    (start : isNameStart signs c = true) : isNameChar signs c = true := by
  by_cases ascii : c.toNat < 0x80
  · simp only [isNameStart, ascii, if_true, Bool.or_eq_true] at start
    simp only [isNameChar, ascii, if_true, Bool.or_eq_true, Char.isAlphanum]
    rcases start with letter | underscore
    · exact .inl (.inl (.inl (.inl letter)))
    · exact .inl (.inl (.inr underscore))
  · simp only [isNameStart, ascii, if_false, Bool.or_eq_true] at start
    simp only [isNameChar, ascii, if_false, Bool.or_eq_true]
    rcases start with letter | sign
    · exact .inl (.inl letter)
    · exact .inr sign

/-- The characters that end a name, or that no name holds for another reason. -/
def separators : List Char :=
  [' ', '\t', '\n', '\r', '>', '/', '=', ':', '<', '&', '"', '?', '!']

theorem not_isNameChar_of_separator {signs : Bool} {c : Char} (separates : c ∈ separators) :
    isNameChar signs c = false := by
  -- `all` runs over the list; the bounded `∀` could be decided by running over every character.
  have absent : separators.all (fun other => !isNameChar true other) = true := by decide
  cases inName : isNameChar signs c with
  | false => rfl
  | true =>
      have present := isNameChar_true inName
      have missing := List.all_eq_true.mp absent c separates
      rw [present] at missing
      exact absurd missing (by decide)

theorem not_separator_of_isNameChar {signs : Bool} {c : Char}
    (inName : isNameChar signs c = true) : c ∉ separators := by
  intro separates
  rw [not_isNameChar_of_separator separates] at inName
  exact absurd inName (by decide)

theorem isNamePart_true {signs : Bool} {cs : List Char} (part : isNamePart signs cs = true) :
    isNamePart true cs = true := by
  cases cs with
  | nil => simp [isNamePart] at part
  | cons c rest =>
      simp only [isNamePart, Bool.and_eq_true, List.all_eq_true] at part ⊢
      exact ⟨isNameStart_true part.1, fun d member => isNameChar_true (part.2 d member)⟩

theorem isNameChar_of_mem {signs : Bool} {cs : List Char} (part : isNamePart signs cs = true)
    {c : Char} (member : c ∈ cs) : isNameChar signs c = true := by
  cases cs with
  | nil => simp at member
  | cons d rest =>
      simp only [isNamePart, Bool.and_eq_true, List.all_eq_true] at part
      rcases List.mem_cons.mp member with rfl | inRest
      · exact isNameChar_of_isNameStart part.1
      · exact part.2 c inRest

/-! ## Reading a part of a name -/

/-- A character that ends what may be a part of a name stands first. -/
def StopsName (signs : Bool) (rest : List Char) : Prop :=
  ∀ c, rest.head? = some c → isNameChar signs c = false

theorem stopsName_of_separator (signs : Bool) {c : Char} (separates : c ∈ separators)
    (rest : List Char) : StopsName signs (c :: rest) := by
  intro d head
  obtain rfl : c = d := by simpa using head
  exact not_isNameChar_of_separator separates

theorem takePlainName_append (dialect : Dialect) {cs rest : List Char}
    (part : isNamePart dialect.signLetters cs = true)
    (stops : StopsName dialect.signLetters rest) :
    takePlainName dialect (cs ++ rest) = some (cs, rest) := by
  cases cs with
  | nil => simp [isNamePart] at part
  | cons c cs =>
      simp only [isNamePart, Bool.and_eq_true, List.all_eq_true] at part
      have none : rest.takeWhile (isNameChar dialect.signLetters) = [] ∧
          rest.dropWhile (isNameChar dialect.signLetters) = rest := by
        cases rest with
        | nil => exact ⟨rfl, rfl⟩
        | cons d rest => simp [stops d rfl]
      simp [takePlainName, part.1, List.takeWhile_append_of_pos part.2,
        List.dropWhile_append_of_pos part.2, none]

theorem takePlainName_cons (dialect : Dialect) (c : Char) (cs : List Char) :
    takePlainName dialect (c :: cs) =
      if isNameStart dialect.signLetters c then
        some (c :: cs.takeWhile (isNameChar dialect.signLetters),
          cs.dropWhile (isNameChar dialect.signLetters))
      else none := rfl

theorem isNamePart_of_takePlainName {dialect : Dialect} {cs name rest : List Char}
    (taken : takePlainName dialect cs = some (name, rest)) :
    isNamePart dialect.signLetters name = true := by
  cases cs with
  | nil => simp [takePlainName] at taken
  | cons c cs =>
      by_cases start : isNameStart dialect.signLetters c = true
      · simp only [takePlainName_cons, start, if_true, Option.some.injEq, Prod.mk.injEq] at taken
        rw [← taken.1]
        simp only [isNamePart, start, Bool.true_and]
        exact List.all_takeWhile
      · simp [takePlainName_cons, start] at taken

/-- What is left starts with one of the letters that only some documents admit. -/
def StopsAtSign (rest : List Char) : Prop :=
  ∃ c more, rest = c :: more ∧ isNameChar true c = true

theorem takePlainName_illegible {cs rest : List Char} (sound : isNamePart true cs = true)
    (illegible : isNamePart false cs = false) {found : List Char × List Char}
    (taken : takePlainName plainDialect (cs ++ rest) = some found) : StopsAtSign found.2 := by
  cases cs with
  | nil => simp [isNamePart] at sound
  | cons c cs =>
      by_cases start : isNameStart false c = true
      · obtain ⟨bad, member, isBad⟩ : ∃ bad ∈ cs, ¬isNameChar false bad = true := by
          simpa [isNamePart, start] using illegible
        have startPlain : isNameStart plainDialect.signLetters c = true := start
        rw [List.cons_append, takePlainName_cons, if_pos startPlain] at taken
        obtain rfl := Option.some.inj taken
        cases dropped : cs.dropWhile (isNameChar false) with
        | nil => exact absurd (List.dropWhile_eq_nil_iff.mp dropped bad member) isBad
        | cons d more =>
            have inCs : d ∈ cs := by
              have suffix := List.dropWhile_suffix (isNameChar false) (l := cs)
              rw [dropped] at suffix
              exact suffix.subset (by simp)
            have split : (cs ++ rest).dropWhile (isNameChar false) = d :: (more ++ rest) := by
              rw [List.dropWhile_append, dropped]
              rfl
            exact ⟨d, more ++ rest, split, isNameChar_of_mem sound (by simp [inCs])⟩
      · have startPlain : ¬isNameStart plainDialect.signLetters c = true := start
        rw [List.cons_append, takePlainName_cons, if_neg startPlain] at taken
        exact absurd taken (by simp)

/-! ## Reading a name -/

theorem takeName_legible {name : WrittenName} (legible : name.isLegible = true) {c : Char}
    (separates : c ∈ separators) (notColon : c ≠ ':') (rest : List Char) :
    takeName plainDialect (name.chars ++ c :: rest) = some (name, c :: rest) := by
  obtain ⟨qualifier, localPart⟩ := name
  have stops := stopsName_of_separator false separates rest
  cases qualifier with
  | none =>
      have part : isNamePart false localPart = true := by
        simpa [WrittenName.isLegible] using legible
      have taken := takePlainName_append plainDialect part stops
      simp [WrittenName.chars, takeName, taken, notColon]
  | some qualifier =>
      simp only [WrittenName.isLegible, Option.all_some, Bool.and_eq_true] at legible
      have taken := takePlainName_append plainDialect legible.2 stops
      have colonStops := stopsName_of_separator false (c := ':') (by decide)
        (localPart ++ c :: rest)
      have first := takePlainName_append plainDialect legible.1 colonStops
      simp [WrittenName.chars, takeName, taken, first]

theorem takeName_illegible {name : WrittenName} (sound : name.Sound)
    (illegible : name.isLegible = false) {rest : List Char} {found : WrittenName × List Char}
    (taken : takeName plainDialect (name.chars ++ rest) = some found) :
    StopsAtSign found.2 := by
  obtain ⟨qualifier, localPart⟩ := name
  obtain ⟨qualifierLegible, localSound⟩ := sound
  have localIllegible : isNamePart false localPart = false := by
    cases qualifier with
    | none => simpa [WrittenName.isLegible] using illegible
    | some qualifier =>
        simpa [WrittenName.isLegible, qualifierLegible qualifier rfl] using illegible
  cases qualifier with
  | none =>
      unfold takeName at taken
      split at taken
      · simp at taken
      · rename_i first
        obtain ⟨c, more, split, inName⟩ := takePlainName_illegible localSound localIllegible first
        obtain ⟨rfl, _⟩ := List.cons.inj split
        exact absurd inName (by decide)
      · rename_i first
        obtain rfl := Option.some.inj taken
        exact takePlainName_illegible localSound localIllegible first
  | some qualifier =>
      have colonStops := stopsName_of_separator false (c := ':') (by decide)
        (localPart ++ rest)
      have first := takePlainName_append plainDialect
        (qualifierLegible qualifier rfl) colonStops
      have split : WrittenName.chars ⟨some qualifier, localPart⟩ ++ rest =
          qualifier ++ ':' :: (localPart ++ rest) := by simp [WrittenName.chars]
      rw [split, takeName, first] at taken
      obtain ⟨inner, innerTaken, rfl⟩ := Option.map_eq_some_iff.mp taken
      exact takePlainName_illegible localSound localIllegible innerTaken

end IdeModules.Xml
