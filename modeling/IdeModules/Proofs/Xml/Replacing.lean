import IdeModules.Xml.Node
import Mathlib.Data.List.Forall2

/-!
# Replacing the first member

A test cuts a list in front of the first member that passes it, if there is one.
`replaceFirst` touches this member only, so what is asked of its result is read off
the cut.
-/

namespace IdeModules.Xml

section Replacing

variable {test : α → Bool} {change other : α → α}

/-- Either no member passes a test, or one does behind members that do not. -/
theorem absent_or_exists_first (test : α → Bool) (items : List α) :
    (∀ item ∈ items, ¬test item = true) ∨
      ∃ front first back, items = front ++ first :: back ∧
        (∀ item ∈ front, ¬test item = true) ∧ test first = true := by
  cases found : items.find? test with
  | none => exact .inl (List.find?_eq_none.mp found)
  | some first =>
      obtain ⟨passes, front, back, cut, absent⟩ := List.find?_eq_some_iff_append.mp found
      exact .inr ⟨front, first, back, cut, by simpa using absent, passes⟩

theorem replaceFirst_append {front : List α} (absent : ∀ item ∈ front, ¬test item = true)
    (back : List α) :
    replaceFirst test change (front ++ back) = front ++ replaceFirst test change back := by
  induction front with
  | nil => rfl
  | cons item rest ih =>
      rw [List.forall_mem_cons] at absent
      rw [List.cons_append, replaceFirst, if_neg absent.1, ih absent.2,
        List.cons_append]

theorem replaceFirst_of_absent {items : List α} (absent : ∀ item ∈ items, ¬test item = true) :
    replaceFirst test change items = items := by
  have appended : replaceFirst test change (items ++ []) = items ++ [] :=
    replaceFirst_append absent []
  simpa using appended

theorem replaceFirst_at_first {front : List α} (absent : ∀ item ∈ front, ¬test item = true)
    {first : α} (passes : test first = true) (back : List α) :
    replaceFirst test change (front ++ first :: back) = front ++ change first :: back := by
  rw [replaceFirst_append absent, replaceFirst, if_pos passes]

@[simp] theorem length_replaceFirst (items : List α) :
    (replaceFirst test change items).length = items.length := by
  rcases absent_or_exists_first test items with absent | ⟨front, first, back, rfl, absent, isFirst⟩
  · rw [replaceFirst_of_absent absent]
  · simp [replaceFirst_at_first absent isFirst]

theorem replaceFirst_ne_nil {items : List α} (nonempty : items ≠ []) :
    replaceFirst test change items ≠ [] := by
  rw [← List.length_pos_iff] at nonempty ⊢
  rwa [length_replaceFirst]

theorem forall_mem_replaceFirst {motive : α → Prop} {items : List α}
    (holds : ∀ item ∈ items, motive item) (changed : ∀ item ∈ items, motive (change item)) :
    ∀ item ∈ replaceFirst test change items, motive item := by
  rcases absent_or_exists_first test items with absent | ⟨front, first, back, rfl, absent, isFirst⟩
  · rwa [replaceFirst_of_absent absent]
  · rw [replaceFirst_at_first absent isFirst]
    simp only [List.forall_mem_append, List.forall_mem_cons] at holds changed ⊢
    exact ⟨holds.1, changed.2.1, holds.2.2⟩

theorem replaceFirst_congr (same : ∀ item, test item = true → change item = other item)
    (items : List α) : replaceFirst test change items = replaceFirst test other items := by
  rcases absent_or_exists_first test items with absent | ⟨front, first, back, rfl, absent, isFirst⟩
  · rw [replaceFirst_of_absent absent, replaceFirst_of_absent absent]
  · rw [replaceFirst_at_first absent isFirst, replaceFirst_at_first absent isFirst,
      same first isFirst]

theorem map_replaceFirst (test : α → Bool) {view : α → β}
    (same : ∀ item, view (change item) = view (other item)) (items : List α) :
    (replaceFirst test change items).map view = (replaceFirst test other items).map view := by
  rcases absent_or_exists_first test items with absent | ⟨front, first, back, rfl, absent, isFirst⟩
  · rw [replaceFirst_of_absent absent, replaceFirst_of_absent absent]
  · rw [replaceFirst_at_first absent isFirst, replaceFirst_at_first absent isFirst,
      List.map_append, List.map_append, List.map_cons, List.map_cons, same first]

theorem forall₂_replaceFirst {relation after : α → α → Prop}
    (same : ∀ left right, relation left right → test left = test right)
    (changed : ∀ left right, relation left right → test right = true →
      after (change left) (other right))
    (kept : ∀ left right, relation left right → after left right) {lefts rights : List α}
    (related : List.Forall₂ relation lefts rights) :
    List.Forall₂ after (replaceFirst test change lefts) (replaceFirst test other rights) := by
  induction related with
  | nil => exact .nil
  | cons first others ih =>
      rename_i left right leftRest rightRest
      rw [replaceFirst, replaceFirst, same left right first]
      split
      · rename_i isFirst
        exact .cons (changed left right first isFirst) (others.imp kept)
      · exact .cons (kept left right first) ih

/-! ## Changes that the test does not see -/

variable (passes : ∀ item, test item = true → test (change item) = true)

include passes

/-- Of two replacements in turn the second one starts from what the first one made. -/
theorem replaceFirst_replaceFirst (next : α → α) (items : List α) :
    replaceFirst test next (replaceFirst test change items) =
      replaceFirst test (next ∘ change) items := by
  rcases absent_or_exists_first test items with absent | ⟨front, first, back, rfl, absent, isFirst⟩
  · rw [replaceFirst_of_absent absent, replaceFirst_of_absent absent,
      replaceFirst_of_absent absent]
  · rw [replaceFirst_at_first absent isFirst, replaceFirst_at_first absent isFirst,
      replaceFirst_at_first absent (passes first isFirst)]
    rfl

theorem any_replaceFirst (items : List α) :
    (replaceFirst test change items).any test = items.any test := by
  rcases absent_or_exists_first test items with absent | ⟨front, first, back, rfl, absent, isFirst⟩
  · rw [replaceFirst_of_absent absent]
  · rw [replaceFirst_at_first absent isFirst, List.any_append, List.any_append, List.any_cons,
      List.any_cons, passes first isFirst, isFirst]

theorem find?_replaceFirst (items : List α) :
    (replaceFirst test change items).find? test = (items.find? test).map change := by
  rcases absent_or_exists_first test items with absent | ⟨front, first, back, rfl, absent, isFirst⟩
  · rw [replaceFirst_of_absent absent, List.find?_eq_none.mpr absent]
    rfl
  · rw [replaceFirst_at_first absent isFirst, List.find?_append, List.find?_append,
      List.find?_eq_none.mpr absent, List.find?_cons_of_pos (passes first isFirst),
      List.find?_cons_of_pos isFirst]
    rfl

theorem eraseP_replaceFirst (items : List α) :
    (replaceFirst test change items).eraseP test = items.eraseP test := by
  rcases absent_or_exists_first test items with absent | ⟨front, first, back, rfl, absent, isFirst⟩
  · rw [replaceFirst_of_absent absent]
  · rw [replaceFirst_at_first absent isFirst, List.eraseP_append_right _ absent,
      List.eraseP_append_right _ absent, List.eraseP_cons_of_pos (passes first isFirst),
      List.eraseP_cons_of_pos isFirst]

theorem findIdx_replaceFirst (items : List α) :
    (replaceFirst test change items).findIdx test = items.findIdx test := by
  rcases absent_or_exists_first test items with absent | ⟨front, first, back, rfl, absent, isFirst⟩
  · rw [replaceFirst_of_absent absent]
  · rw [replaceFirst_at_first absent isFirst, List.findIdx_append, List.findIdx_append,
      List.findIdx_cons, List.findIdx_cons, passes first isFirst, isFirst]

end Replacing

end IdeModules.Xml
