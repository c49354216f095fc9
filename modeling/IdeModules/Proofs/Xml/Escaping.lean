import IdeModules.Proofs.Xml.Cutting
import IdeModules.Proofs.Xml.Names
import IdeModules.Xml.Printer

/-!
# Escaped characters

Expanding what was escaped gives the characters back, in text as in attribute
values, if a document may hold all of them; otherwise nothing is read.  The
escaped characters hold none of the characters that would end a value or a run
of text.
-/

namespace IdeModules.Xml

def escapedTextChars (cs : List Char) : List Char :=
  cs.flatMap escapedTextChar

def escapedValueChars (cs : List Char) : List Char :=
  cs.flatMap escapedAttributeChar

/-- White space as it counts in an attribute value. -/
def valueChar (c : Char) : Char :=
  if isXmlSpace c then ' ' else c

/-- The characters that are escaped somewhere, with the references that stand for them. -/
def escapes : List (Char × List Char) :=
  [('&', "amp".toList), ('<', "lt".toList), ('>', "gt".toList), ('"', "quot".toList),
    ('\r', "#13".toList), ('\n', "#10".toList), ('\t', "#09".toList)]

/-! ## Escaped characters, one by one -/

theorem escapedTextChar_cases (c : Char) :
    (c ∉ ['&', '<', '>'] ∧ escapedTextChar c = [c]) ∨
      ∃ body, (c, body) ∈ escapes ∧ escapedTextChar c = '&' :: (body ++ [';']) := by
  by_cases ampersand : c = '&'
  · subst ampersand
    exact .inr ⟨"amp".toList, by decide, rfl⟩
  by_cases less : c = '<'
  · subst less
    exact .inr ⟨"lt".toList, by decide, rfl⟩
  by_cases greater : c = '>'
  · subst greater
    exact .inr ⟨"gt".toList, by decide, rfl⟩
  · exact .inl (by simp [escapedTextChar, ampersand, less, greater])

theorem escapedAttributeChar_cases (c : Char) :
    (c ∉ escapes.map Prod.fst ∧ escapedAttributeChar c = [c]) ∨
      ∃ body, (c, body) ∈ escapes ∧ escapedAttributeChar c = '&' :: (body ++ [';']) := by
  by_cases quote : c = '"'
  · subst quote
    exact .inr ⟨"quot".toList, by decide, rfl⟩
  by_cases carriageReturn : c = '\r'
  · subst carriageReturn
    exact .inr ⟨"#13".toList, by decide, rfl⟩
  by_cases lineFeed : c = '\n'
  · subst lineFeed
    exact .inr ⟨"#10".toList, by decide, rfl⟩
  by_cases tab : c = '\t'
  · subst tab
    exact .inr ⟨"#09".toList, by decide, rfl⟩
  have asText : escapedAttributeChar c = escapedTextChar c := by
    simp [escapedAttributeChar, quote, carriageReturn, lineFeed, tab]
  rw [asText]
  rcases escapedTextChar_cases c with ⟨notMarkup, itself⟩ | escaped
  · refine .inl ⟨?_, itself⟩
    simpa [escapes, quote, carriageReturn, lineFeed, tab] using notMarkup
  · exact .inr escaped

/-- No reference of the table holds a character that ends text, a value or a line. -/
theorem escapes_ne {c d : Char} {body : List Char} (known : (c, body) ∈ escapes)
    (member : d ∈ '&' :: (body ++ [';'])) : d ≠ '<' ∧ d ≠ '>' ∧ d ≠ '"' ∧ d ≠ '\r' ∧ d ≠ '\n' := by
  have absent : ∀ entry ∈ escapes, ('&' :: (entry.2 ++ [';'])).all (fun other =>
      other ≠ '<' ∧ other ≠ '>' ∧ other ≠ '"' ∧ other ≠ '\r' ∧ other ≠ '\n') = true := by decide
  exact of_decide_eq_true (List.all_eq_true.mp (absent _ known) d member)

/-! ## Expanding -/

section Expanding

variable (dialect : Dialect) (maySkip : Bool) (change : Char → Char)

/-- What has been read since an ampersand and what still stands before the semicolon make up the
reference. -/
theorem expand_open {c : Char} (front : List Char) {back : List Char} (noEnd : ';' ∉ back)
    (stands : referred? dialect maySkip (front.reverse ++ back) = some [c]) (rest : List Char) :
    expand dialect maySkip change (some front) (back ++ ';' :: rest) =
      (expand dialect maySkip change none rest).map (c :: ·) := by
  induction back generalizing front with
  | nil =>
      simp only [List.append_nil] at stands
      simp [expand, stands]
  | cons d back ih =>
      simp only [List.mem_cons, not_or] at noEnd
      rw [List.cons_append, expand, if_neg (Ne.symm noEnd.1)]
      exact ih _ noEnd.2 (by simpa using stands)

theorem expand_escape {c : Char} {body : List Char} (known : (c, body) ∈ escapes)
    (rest : List Char) :
    expand dialect maySkip change none ('&' :: (body ++ ';' :: rest)) =
      (expand dialect maySkip change none rest).map (c :: ·) := by
  have noEnd : ∀ entry ∈ escapes, ';' ∉ entry.2 := by decide
  have stands : referred? dialect maySkip body = some [c] := by
    simp only [escapes, List.mem_cons, Prod.mk.injEq, List.not_mem_nil, or_false] at known
    rcases known with ⟨rfl, rfl⟩ | ⟨rfl, rfl⟩ | ⟨rfl, rfl⟩ | ⟨rfl, rfl⟩ | ⟨rfl, rfl⟩ |
      ⟨rfl, rfl⟩ | ⟨rfl, rfl⟩ <;> rfl
  rw [expand, if_pos rfl]
  exact expand_open dialect maySkip change [] (noEnd _ known) stands rest

theorem expand_escaped {c : Char} {escaped : List Char}
    (cases : (c ≠ '&' ∧ change c = c ∧ escaped = [c]) ∨
      ∃ body, (c, body) ∈ escapes ∧ escaped = '&' :: (body ++ [';']))
    (rest : List Char) :
    expand dialect maySkip change none (escaped ++ rest) =
      if isXmlChar c then (expand dialect maySkip change none rest).map (c :: ·) else none := by
  rcases cases with ⟨notMarkup, unchanged, rfl⟩ | ⟨body, known, rfl⟩
  · simp [expand, notMarkup, unchanged]
  · have admitted : ∀ entry ∈ escapes, isXmlChar entry.1 = true := by decide
    have split : '&' :: (body ++ [';']) ++ rest = '&' :: (body ++ ';' :: rest) := by simp
    rw [split, expand_escape dialect maySkip change known rest, if_pos (admitted _ known)]

theorem expand_flatMap {escapeChar : Char → List Char}
    (cases : ∀ c, (c ≠ '&' ∧ change c = c ∧ escapeChar c = [c]) ∨
      ∃ body, (c, body) ∈ escapes ∧ escapeChar c = '&' :: (body ++ [';']))
    (cs : List Char) :
    expand dialect maySkip change none (cs.flatMap escapeChar) =
      if cs.all isXmlChar then some cs else none := by
  induction cs with
  | nil => rfl
  | cons c cs ih =>
      rw [List.flatMap_cons, expand_escaped dialect maySkip change (cases c), ih]
      by_cases admitted : isXmlChar c = true
      · by_cases others : cs.all isXmlChar = true <;> simp [admitted, others]
      · simp [admitted]

theorem expand_escapedTextChars (cs : List Char) :
    expand dialect maySkip id none (escapedTextChars cs) =
      if cs.all isXmlChar then some cs else none := by
  apply expand_flatMap dialect maySkip id
  intro c
  rcases escapedTextChar_cases c with ⟨notMarkup, itself⟩ | escaped
  · exact .inl ⟨fun same => notMarkup (by simp [same]), rfl, itself⟩
  · exact .inr escaped

theorem expand_escapedValueChars (cs : List Char) :
    expand dialect maySkip valueChar none (escapedValueChars cs) =
      if cs.all isXmlChar then some cs else none := by
  apply expand_flatMap dialect maySkip valueChar
  intro c
  rcases escapedAttributeChar_cases c with ⟨plain, itself⟩ | escaped
  · refine .inl ⟨fun same => plain (by simp [escapes, same]), ?_, itself⟩
    simp only [escapes, List.map_cons, List.map_nil, List.mem_cons, List.not_mem_nil, or_false,
      not_or] at plain
    by_cases blank : c = ' ' <;> simp [valueChar, isXmlSpace, blank, plain]
  · exact .inr escaped

end Expanding

/-! ## Characters that escaping removes -/

theorem escapedTextChars_ne {cs : List Char} {d : Char} (member : d ∈ escapedTextChars cs) :
    d ≠ '<' ∧ d ≠ '>' := by
  obtain ⟨c, _, inChar⟩ := List.mem_flatMap.mp member
  rcases escapedTextChar_cases c with ⟨notMarkup, itself⟩ | ⟨body, known, escaped⟩
  · obtain rfl : d = c := by simpa [itself] using inChar
    exact ⟨fun same => notMarkup (by simp [same]), fun same => notMarkup (by simp [same])⟩
  · obtain ⟨less, greater, _⟩ := escapes_ne known (escaped ▸ inChar)
    exact ⟨less, greater⟩

theorem escapedValueChars_ne {cs : List Char} {d : Char} (member : d ∈ escapedValueChars cs) :
    d ≠ '<' ∧ d ≠ '>' ∧ d ≠ '"' ∧ d ≠ '\r' ∧ d ≠ '\n' := by
  obtain ⟨c, _, inChar⟩ := List.mem_flatMap.mp member
  rcases escapedAttributeChar_cases c with ⟨plain, itself⟩ | ⟨body, known, escaped⟩
  · obtain rfl : d = c := by simpa [itself] using inChar
    simp only [escapes, List.map_cons, List.map_nil, List.mem_cons, List.not_mem_nil, or_false,
      not_or] at plain
    exact ⟨plain.2.1, plain.2.2.1, plain.2.2.2.1, plain.2.2.2.2.1, plain.2.2.2.2.2.1⟩
  · exact escapes_ne known (escaped ▸ inChar)

theorem escapedTextChars_eq_nil_iff {cs : List Char} : escapedTextChars cs = [] ↔ cs = [] := by
  cases cs with
  | nil => simp [escapedTextChars]
  | cons c cs =>
      have nonempty : escapedTextChar c ≠ [] := by
        rcases escapedTextChar_cases c with ⟨_, itself⟩ | ⟨body, _, escaped⟩
        · simp [itself]
        · simp [escaped]
      simp [escapedTextChars, nonempty]

/-! ## Values -/

theorem takeQuoted_escapedValueChars (cs rest : List Char) :
    takeQuoted ('"' :: (escapedValueChars cs ++ '"' :: rest)) =
      some (escapedValueChars cs, rest) := by
  have absent : '"' ∉ escapedValueChars cs :=
    fun member => (escapedValueChars_ne member).2.2.1 rfl
  exact cutAt_single absent rest

theorem expandValue_escapedValueChars (cs : List Char) :
    expandValue plainDialect (escapedValueChars cs) =
      if cs.all isXmlChar then some cs else none := by
  have noMarkup : (escapedValueChars cs).contains '<' = false := by
    simpa using fun member => (escapedValueChars_ne member).1 rfl
  rw [expandValue, noMarkup]
  exact expand_escapedValueChars plainDialect false cs

end IdeModules.Xml
