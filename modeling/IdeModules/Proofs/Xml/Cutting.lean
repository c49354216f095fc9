import IdeModules.Xml.Token

/-!
# Marks in characters

A mark cuts characters where it occurs first.  Where it occurs first depends
only on what stands before the end of that occurrence.
-/

namespace IdeModules.Xml

theorem eq_append_of_cutAt {mark cs front rest : List Char}
    (cut : cutAt mark cs = some (front, rest)) : cs = front ++ (mark ++ rest) := by
  induction cs generalizing front with
  | nil => simp [cutAt] at cut
  | cons c cs ih =>
      rw [cutAt] at cut
      cases stripped : stripWord mark (c :: cs) with
      | some after =>
          simp only [stripped, Option.some.injEq, Prod.mk.injEq] at cut
          obtain ⟨rfl, rfl⟩ := cut
          simpa using eq_append_of_stripWord stripped
      | none =>
          simp only [stripped, Option.map_eq_some_iff, Prod.mk.injEq] at cut
          obtain ⟨⟨inner, after⟩, found, rfl, rfl⟩ := cut
          simp [ih found]

/-- What follows the first occurrence of a mark does not matter for its place. -/
theorem cutAt_append_of_cutAt {mark cs front rest : List Char} (nonempty : mark ≠ [])
    (cut : cutAt mark cs = some (front, rest)) (other : List Char) :
    cutAt mark (front ++ (mark ++ other)) = some (front, other) := by
  induction cs generalizing front with
  | nil => simp [cutAt] at cut
  | cons c cs ih =>
      rw [cutAt] at cut
      cases stripped : stripWord mark (c :: cs) with
      | some after =>
          simp only [stripped, Option.some.injEq, Prod.mk.injEq] at cut
          obtain ⟨rfl, rfl⟩ := cut
          obtain ⟨m, word, rfl⟩ := List.exists_cons_of_ne_nil nonempty
          have here := stripWord_append (m :: word) other
          simp only [List.nil_append, List.cons_append] at here ⊢
          simp [cutAt, here]
      | none =>
          simp only [stripped, Option.map_eq_some_iff, Prod.mk.injEq] at cut
          obtain ⟨⟨inner, after⟩, found, rfl, rfl⟩ := cut
          have long : mark.length ≤ (c :: inner ++ mark).length := by simp; omega
          have split := eq_append_of_cutAt found
          have absent : stripWord mark (c :: inner ++ mark) = none := by
            rw [split, ← List.cons_append, ← List.append_assoc,
              stripWord_append_right long] at stripped
            simpa using stripped
          have absentHere : stripWord mark (c :: (inner ++ (mark ++ other))) = none := by
            rw [← List.cons_append, ← List.append_assoc, stripWord_append_right long, absent]
            rfl
          rw [List.cons_append, cutAt, absentHere, ih found]
          rfl

theorem cutAt_eq_none_of_not_mem {mark cs : List Char} {c : Char} (inMark : c ∈ mark)
    (absent : c ∉ cs) : cutAt mark cs = none := by
  cases cut : cutAt mark cs with
  | none => rfl
  | some found =>
      have split := eq_append_of_cutAt cut
      exact absurd (by rw [split]; simp [inMark]) absent

theorem cutAt_single {quote : Char} {front : List Char} (absent : quote ∉ front)
    (rest : List Char) : cutAt [quote] (front ++ quote :: rest) = some (front, rest) := by
  induction front with
  | nil => simp [cutAt, stripWord]
  | cons c front ih =>
      simp only [List.mem_cons, not_or] at absent
      obtain ⟨different, absentBehind⟩ := absent
      simp [cutAt, stripWord, different, ih absentBehind]

end IdeModules.Xml
