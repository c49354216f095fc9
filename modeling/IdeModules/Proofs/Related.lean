import Mathlib.Data.List.Forall2

/-!
# Related lists

Lists that are related member by member have the same length, and what one of them
has at a place is related to what the other one has there.
-/

namespace IdeModules

section Related

variable {relation : α → β → Prop} {lefts : List α} {rights : List β}

theorem isEmpty_of_forall₂ (related : List.Forall₂ relation lefts rights) :
    lefts.isEmpty = rights.isEmpty := by
  cases related <;> rfl

theorem exists_mem_of_forall₂ (related : List.Forall₂ relation lefts rights) :
    ∀ right ∈ rights, ∃ left ∈ lefts, relation left right := by
  induction related with
  | nil => simp
  | cons first _ ih =>
      rw [List.forall_mem_cons]
      refine ⟨⟨_, List.mem_cons_self, first⟩, ?_⟩
      intro right member
      obtain ⟨left, known, holds⟩ := ih right member
      exact ⟨left, List.mem_cons_of_mem _ known, holds⟩

/-- The first members that pass tests are related if the tests agree on related members. -/
theorem forall₂_find? {test : α → Bool} {other : β → Bool}
    (same : ∀ left right, relation left right → test left = other right)
    (related : List.Forall₂ relation lefts rights) :
    Option.Rel relation (lefts.find? test) (rights.find? other) := by
  induction related with
  | nil => exact .none
  | cons first others ih =>
      rename_i left right leftRest rightRest
      rw [List.find?_cons, List.find?_cons, same left right first]
      split
      · exact .some first
      · exact ih

theorem forall₂_trans {next : β → γ → Prop} {whole : α → γ → Prop} {others : List γ}
    (each : ∀ left middle right, relation left middle → next middle right → whole left right)
    (before : List.Forall₂ relation lefts rights) (after : List.Forall₂ next rights others) :
    List.Forall₂ whole lefts others := by
  induction before generalizing others with
  | nil =>
      cases after
      exact .nil
  | cons head _ ih =>
      cases after with
      | cons second rest => exact .cons (each _ _ _ head second) (ih rest)

end Related

end IdeModules
