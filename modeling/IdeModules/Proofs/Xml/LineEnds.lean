import IdeModules.Proofs.Xml.Pieces

/-!
# Line ends of a printed document

A document is read with every line end as a line feed.  Markup holds no
carriage return, since attributes escape it, so only the text between markup
changes: normalizing a printed document normalizes the text of every piece.
-/

namespace IdeModules.Xml

/-! ## Characters -/

theorem not_mem_normalizeLineEnds (cs : List Char) : '\r' ∉ normalizeLineEnds cs := by
  induction cs using normalizeLineEnds.induct with
  | case1 => simp [normalizeLineEnds]
  | case2 rest ih =>
      simpa [normalizeLineEnds] using ih
  | case3 c rest notPair ih =>
      rw [normalizeLineEnds]
      · by_cases carriageReturn : c = '\r'
        · simpa [carriageReturn] using ih
        · simpa [carriageReturn, Ne.symm carriageReturn] using ih
      · exact notPair

theorem mem_normalizeLineEnds {cs : List Char} {c : Char} (member : c ∈ normalizeLineEnds cs) :
    c ∈ cs ∨ c = '\n' := by
  induction cs using normalizeLineEnds.induct with
  | case1 => exact .inl member
  | case2 rest ih =>
      rw [normalizeLineEnds, List.mem_cons] at member
      rcases member with lineFeed | inRest
      · exact .inr lineFeed
      · exact (ih inRest).imp (fun known => by simp [known]) id
  | case3 d rest notPair ih =>
      rw [normalizeLineEnds.eq_3 _ _ notPair, List.mem_cons] at member
      rcases member with same | inRest
      · by_cases carriageReturn : d = '\r'
        · exact .inr (by rw [same, if_pos carriageReturn])
        · exact .inl (by rw [same, if_neg carriageReturn]; exact List.mem_cons_self)
      · exact (ih inRest).imp (fun known => by simp [known]) id

theorem normalizeLineEnds_of_not_mem {cs : List Char} (absent : '\r' ∉ cs) :
    normalizeLineEnds cs = cs := by
  induction cs with
  | nil => rfl
  | cons c rest ih =>
      simp only [List.mem_cons, not_or] at absent
      obtain ⟨different, absentBehind⟩ := absent
      rw [normalizeLineEnds, if_neg (Ne.symm different), ih absentBehind]
      exact fun other same => absurd same (Ne.symm different)

theorem normalizeLineEnds_idem (cs : List Char) :
    normalizeLineEnds (normalizeLineEnds cs) = normalizeLineEnds cs :=
  normalizeLineEnds_of_not_mem (not_mem_normalizeLineEnds cs)

theorem normalizeLineEnds_cons (c : Char) (rest : List Char) :
    ∃ others, normalizeLineEnds (c :: rest) = (if c = '\r' then '\n' else c) :: others := by
  generalize split : c :: rest = cs
  cases cs using normalizeLineEnds.fun_cases with
  | case1 => simp at split
  | case2 behind =>
      rw [(List.cons.inj split).1, normalizeLineEnds]
      exact ⟨_, rfl⟩
  | case3 first behind notPair =>
      rw [(List.cons.inj split).1, normalizeLineEnds.eq_3 _ _ notPair]
      exact ⟨_, rfl⟩

/-- Line ends are read apart from what follows, unless one of them goes on there. -/
theorem normalizeLineEnds_append {front back : List Char}
    (apart : front.getLast? = some '\r' → back.head? ≠ some '\n') :
    normalizeLineEnds (front ++ back) = normalizeLineEnds front ++ normalizeLineEnds back := by
  induction front using normalizeLineEnds.induct with
  | case1 => rfl
  | case2 rest ih =>
      have apartBehind : rest.getLast? = some '\r' → back.head? ≠ some '\n' :=
        fun last => apart (by simp [List.getLast?_cons, last])
      simp [normalizeLineEnds, ih apartBehind]
  | case3 c rest notPair ih =>
      have apartBehind : rest.getLast? = some '\r' → back.head? ≠ some '\n' :=
        fun last => apart (by simp [List.getLast?_cons, last])
      rw [List.cons_append, normalizeLineEnds, normalizeLineEnds, ih apartBehind,
        List.cons_append]
      · exact notPair
      · intro other carriageReturn same
        cases rest with
        | nil =>
            have head : back.head? = some '\n' := by simp [show back = '\n' :: other from same]
            exact apart (by simp [carriageReturn]) head
        | cons d more =>
            obtain ⟨rfl, _⟩ := List.cons.inj same
            exact notPair more carriageReturn rfl

theorem normalizeLineEnds_append_of_not_mem {front : List Char} (absent : '\r' ∉ front)
    (back : List Char) :
    normalizeLineEnds (front ++ back) = front ++ normalizeLineEnds back := by
  rw [normalizeLineEnds_append, normalizeLineEnds_of_not_mem absent]
  exact fun last => absurd (List.mem_of_getLast? last) absent

/-! ## Text -/

theorem normalizeLineEnds_eq_nil_iff {cs : List Char} : normalizeLineEnds cs = [] ↔ cs = [] := by
  cases cs using normalizeLineEnds.fun_cases with
  | case1 => simp [normalizeLineEnds]
  | case2 rest => simp [normalizeLineEnds]
  | case3 c rest notPair => simp [normalizeLineEnds.eq_3 _ _ notPair]

theorem not_mem_escapedTextChar {c : Char} (different : c ≠ '\r') : '\r' ∉ escapedTextChar c := by
  intro member
  rcases escapedTextChar_cases c with ⟨_, itself⟩ | ⟨body, known, escaped⟩
  · exact different (List.mem_singleton.mp (itself ▸ member)).symm
  · exact (escapes_ne known (escaped ▸ member)).2.2.2.1 rfl

theorem head?_escapedTextChars_ne {cs : List Char} (different : cs.head? ≠ some '\n') :
    (escapedTextChars cs).head? ≠ some '\n' := by
  cases cs with
  | nil => simp [escapedTextChars]
  | cons c more =>
      have split : escapedTextChars (c :: more) =
          escapedTextChar c ++ escapedTextChars more := rfl
      rcases escapedTextChar_cases c with ⟨_, itself⟩ | ⟨body, _, escaped⟩
      · rw [split, itself]
        exact different
      · rw [split, escaped]
        simp

theorem normalizeLineEnds_escapedTextChars (cs : List Char) :
    normalizeLineEnds (escapedTextChars cs) = escapedTextChars (normalizeLineEnds cs) := by
  induction cs using normalizeLineEnds.induct with
  | case1 => rfl
  | case2 rest ih =>
      have split : escapedTextChars ('\r' :: '\n' :: rest) =
          '\r' :: '\n' :: escapedTextChars rest := rfl
      rw [split, normalizeLineEnds, ih]
      rfl
  | case3 c rest notPair ih =>
      have split : escapedTextChars (c :: rest) =
          escapedTextChar c ++ escapedTextChars rest := rfl
      rw [normalizeLineEnds.eq_3 _ _ notPair, split]
      by_cases carriageReturn : c = '\r'
      · subst carriageReturn
        have notLineFeed : rest.head? ≠ some '\n' := by
          intro head
          obtain ⟨more, rfl⟩ := List.head?_eq_some_iff.mp head
          exact notPair more rfl rfl
        rw [normalizeLineEnds_append fun _ => head?_escapedTextChars_ne notLineFeed,
          ih]
        rfl
      · rw [normalizeLineEnds_append_of_not_mem (not_mem_escapedTextChar carriageReturn),
          ih, if_neg carriageReturn]
        rfl

/-! ## Markup -/

theorem not_mem_tagClosing (isClosed : Bool) : '\r' ∉ tagClosing isClosed := by
  cases isClosed <;> decide

theorem WrittenName.Sound.not_mem_carriageReturn {name : WrittenName} (sound : name.Sound) :
    '\r' ∉ name.chars :=
  sound.not_mem_chars (by decide) (by decide)

theorem not_mem_attributeChars {entry : WrittenAttribute} (sound : entry.name.Sound) :
    '\r' ∉ entry.chars := by
  have inName := sound.not_mem_carriageReturn
  have inValue : '\r' ∉ escapedValueChars entry.value :=
    fun member => (escapedValueChars_ne member).2.2.2.1 rfl
  simp [WrittenAttribute.chars, inName, inValue]

theorem Markup.Sound.not_mem_carriageReturn {markup : Markup} (sound : markup.Sound) :
    '\r' ∉ markup.chars := by
  cases markup with
  | start name attributes isClosed =>
      have inName := sound.1.not_mem_carriageReturn
      have inAttributes : '\r' ∉ attributes.flatMap WrittenAttribute.chars := by
        intro member
        obtain ⟨entry, known, inEntry⟩ := List.mem_flatMap.mp member
        exact not_mem_attributeChars (sound.2 entry known) inEntry
      simp [Markup.chars, inName, inAttributes, not_mem_tagClosing]
  | finish name =>
      have inName := WrittenName.Sound.not_mem_carriageReturn sound
      simp [Markup.chars, inName]
  | comment content => simp [Markup.chars, sound.2.2]

/-! ## Pieces -/

/-- A piece as it is read: the line ends of its text are line feeds. -/
def Piece.settled (piece : Piece) : Piece :=
  ⟨piece.markup, normalizeLineEnds piece.text⟩

theorem StartsMarkup.head?_ne {cs : List Char} (starts : StartsMarkup cs) :
    cs.head? ≠ some '\n' := by
  rcases starts with rfl | ⟨more, rfl⟩ <;> simp

theorem normalizeLineEnds_piece {piece : Piece} (sound : piece.markup.Sound) {rest : List Char}
    (starts : StartsMarkup rest) :
    normalizeLineEnds (piece.chars ++ rest) = piece.settled.chars ++ normalizeLineEnds rest := by
  rw [Piece.chars, List.append_assoc,
    normalizeLineEnds_append_of_not_mem sound.not_mem_carriageReturn,
    normalizeLineEnds_append fun _ => starts.head?_ne, normalizeLineEnds_escapedTextChars,
    Piece.chars, List.append_assoc]
  rfl

/-- Reading a printed document settles the text of each of its pieces. -/
theorem normalizeLineEnds_pieces {pieces : List Piece}
    (sound : ∀ piece ∈ pieces, piece.markup.Sound) :
    normalizeLineEnds (pieces.flatMap Piece.chars) =
      (pieces.map Piece.settled).flatMap Piece.chars := by
  induction pieces with
  | nil => rfl
  | cons piece rest ih =>
      rw [List.flatMap_cons, normalizeLineEnds_piece (sound piece (by simp))
        (startsMarkup_pieces rest),
        ih fun other member => sound other (List.mem_cons_of_mem _ member)]
      rfl

end IdeModules.Xml
