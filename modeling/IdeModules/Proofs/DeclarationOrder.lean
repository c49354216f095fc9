import IdeModules.Proofs.Classification

/-!
# The order of declarations

The entries of a configuration are sorted by the place of their declaration.
Sorting keeps the order of entries of one place, so that it depends only on
what stands at each place: two lists that agree place by place are sorted alike.
-/

namespace IdeModules

/-! ## Sorting by rank -/

section Rank

variable {α : Type} {rank : α → Nat} {left right items : List α}

/-- Items in the order of their ranks; items of one rank keep their order. -/
def sortByRank (rank : α → Nat) (items : List α) : List α :=
  items.mergeSort fun first second => rank first ≤ rank second

theorem perm_sortByRank (rank : α → Nat) (items : List α) : (sortByRank rank items).Perm items :=
  items.mergeSort_perm _

theorem sorted_sortByRank (rank : α → Nat) (items : List α) :
    (sortByRank rank items).Pairwise fun first second => rank first ≤ rank second := by
  have sorted : (sortByRank rank items).Pairwise fun first second =>
      decide (rank first ≤ rank second) = true :=
    List.pairwise_mergeSort (by simpa using fun _ _ _ => Nat.le_trans)
      (by simpa using fun _ _ => Nat.le_total _ _) items
  exact sorted.imp of_decide_eq_true

/-- The items of one rank stay as they are. -/
theorem filter_sortByRank (rank : α → Nat) (items : List α) (place : Nat) :
    (sortByRank rank items).filter (rank · = place) = items.filter (rank · = place) := by
  have onePlace : (items.filter (rank · = place)).Pairwise fun first second =>
      decide (rank first ≤ rank second) = true := by
    apply List.pairwise_of_forall_mem_list
    intro first isFirst second isSecond
    have firstPlace := of_decide_eq_true (List.mem_filter.mp isFirst).2
    have secondPlace := of_decide_eq_true (List.mem_filter.mp isSecond).2
    simp [firstPlace, secondPlace]
  have kept : (items.filter (rank · = place)).Sublist (sortByRank rank items) :=
    List.sublist_mergeSort (by simpa using fun _ _ _ => Nat.le_trans)
      (by simpa using fun _ _ => Nat.le_total _ _) onePlace List.filter_sublist
  have keptThere := kept.filter fun item => decide (rank item = place)
  rw [List.filter_filter] at keptThere
  simp only [Bool.and_self] at keptThere
  exact (keptThere.eq_of_length
    ((perm_sortByRank rank items).filter _).length_eq.symm).symm

/-- A member of a list that agrees rank by rank with another one is a member of that, since it
has a rank. -/
theorem mem_of_filter
    (same : ∀ place, left.filter (rank · = place) = right.filter (rank · = place)) {item : α}
    (member : item ∈ left) : item ∈ right := by
  have there : item ∈ left.filter (rank · = rank item) :=
    List.mem_filter.mpr ⟨member, by simp⟩
  exact (List.mem_filter.mp (same (rank item) ▸ there)).1

theorem rank_le_of_sorted {head : α} {tail : List α}
    (sorted : (head :: tail).Pairwise fun first second => rank first ≤ rank second) {item : α}
    (member : item ∈ head :: tail) : rank head ≤ rank item := by
  rcases List.mem_cons.mp member with rfl | inTail
  · exact Nat.le_refl _
  · exact (List.pairwise_cons.mp sorted).1 item inTail

/-- Sorted lists that agree rank by rank are equal. -/
theorem eq_of_sorted_of_filter
    (leftSorted : left.Pairwise fun first second => rank first ≤ rank second)
    (rightSorted : right.Pairwise fun first second => rank first ≤ rank second)
    (same : ∀ place, left.filter (rank · = place) = right.filter (rank · = place)) :
    left = right := by
  have converse : ∀ place, right.filter (rank · = place) = left.filter (rank · = place) :=
    fun place => (same place).symm
  induction left generalizing right with
  | nil =>
      cases right with
      | nil => rfl
      | cons head tail => exact absurd (mem_of_filter converse List.mem_cons_self) (by simp)
  | cons item rest ih =>
      cases right with
      | nil => exact absurd (mem_of_filter same List.mem_cons_self) (by simp)
      | cons head tail =>
          -- Both heads have the lowest rank, and each list is the first one of that rank.
          have sameRank : rank item = rank head := by
            apply Nat.le_antisymm
            · exact rank_le_of_sorted leftSorted (mem_of_filter converse List.mem_cons_self)
            · exact rank_le_of_sorted rightSorted (mem_of_filter same List.mem_cons_self)
          have heads := same (rank head)
          rw [List.filter_cons_of_pos (by simpa using sameRank),
            List.filter_cons_of_pos (by simp)] at heads
          obtain ⟨rfl, _⟩ := List.cons.inj heads
          have tails : ∀ place,
              rest.filter (rank · = place) = tail.filter (rank · = place) := by
            intro place
            have there := same place
            by_cases isPlace : rank item = place
            · rw [List.filter_cons_of_pos (by simpa using isPlace),
                List.filter_cons_of_pos (by simpa using isPlace)] at there
              exact (List.cons.inj there).2
            · rwa [List.filter_cons_of_neg (by simpa using isPlace),
                List.filter_cons_of_neg (by simpa using isPlace)] at there
          rw [ih leftSorted.of_cons rightSorted.of_cons tails fun place =>
            (tails place).symm]

theorem sortByRank_congr
    (same : ∀ place, left.filter (rank · = place) = right.filter (rank · = place)) :
    sortByRank rank left = sortByRank rank right := by
  refine eq_of_sorted_of_filter (sorted_sortByRank rank left) (sorted_sortByRank rank right) ?_
  intro place
  rw [filter_sortByRank, filter_sortByRank, same]

end Rank

/-! ## Places of entries -/

def placeOf (declared : List Json.Key) (entry : Entry) : Nat :=
  (entry.declaredBy.key?.map (rankOf declared)).getD 0

def areKeyed (entries : List Entry) : Bool :=
  entries.all fun entry => entry.declaredBy.key?.isSome

theorem rankEntries_eq (declared : List Json.Key) (entries : List Entry) :
    rankEntries declared entries =
      if areKeyed entries then .ok (entries.map fun entry => (placeOf declared entry, entry))
      else .error .wrongKind := by
  induction entries with
  | nil => rfl
  | cons entry rest ih =>
      rw [rankEntries, ih, keyOf]
      cases found : entry.declaredBy.key? with
      | none => simp [areKeyed, found, bind, Except.bind]
      | some key =>
          have place : placeOf declared entry = rankOf declared key := by simp [placeOf, found]
          by_cases keyed : areKeyed rest = true
          · have all : areKeyed (entry :: rest) = true := by
              simpa [areKeyed, found] using keyed
            simp [keyed, all, place, bind, Except.bind, pure, Except.pure]
          · have notAll : ¬areKeyed (entry :: rest) = true := by
              simpa [areKeyed, found] using keyed
            simp [keyed, notAll, bind, Except.bind]

theorem declarationOrder_eq {configuration : Configuration} {declared : List Json.Key}
    (keys : keysOf configuration.declared = .ok declared) :
    configuration.declarationOrder =
      if areKeyed configuration.entries then
        .ok (sortByRank (placeOf declared) configuration.entries)
      else .error .wrongKind := by
  have sorted : ((configuration.entries.map fun entry =>
      (placeOf declared entry, entry)).mergeSort fun left right => left.1 ≤ right.1).map Prod.snd =
      sortByRank (placeOf declared) configuration.entries := by
    rw [sortByRank, ← List.map_mergeSort (r := fun first second =>
      decide (placeOf declared first ≤ placeOf declared second)) (fun _ _ _ _ => rfl),
      List.map_map]
    exact List.map_id _
  have opened : configuration.declarationOrder =
      (rankEntries declared configuration.entries).map fun ranked =>
        (ranked.mergeSort fun left right => left.1 ≤ right.1).map Prod.snd := by
    rw [Configuration.declarationOrder, keys]
    show (rankEntries declared configuration.entries).bind _ = _
    cases rankEntries declared configuration.entries <;> rfl
  rw [opened, rankEntries_eq]
  by_cases keyed : areKeyed configuration.entries = true
  · rw [if_pos keyed, if_pos keyed, ← sorted]
    rfl
  · rw [if_neg keyed, if_neg keyed]
    rfl

theorem perm_declarationOrder {configuration : Configuration} {ordered : List Entry}
    (made : configuration.declarationOrder = .ok ordered) :
    ordered.Perm configuration.entries := by
  obtain ⟨declared, keys, _⟩ := except_bind_ok made
  rw [declarationOrder_eq keys] at made
  split at made
  · exact Except.ok.inj made ▸ perm_sortByRank _ _
  · simp at made

/-- Entries that stand in the order of their declarations keep their places. -/
theorem declarationOrder_of_ordered {configuration : Configuration} {declared : List Json.Key}
    (keys : keysOf configuration.declared = .ok declared)
    (keyed : areKeyed configuration.entries = true)
    (ordered : configuration.entries.Pairwise fun first second =>
      placeOf declared first ≤ placeOf declared second) :
    configuration.declarationOrder = .ok configuration.entries := by
  rw [declarationOrder_eq keys, if_pos keyed, sortByRank,
    List.mergeSort_of_pairwise (ordered.imp fun isLe => by simpa using isLe)]

/-- Entries are ordered if no declaration has parts. -/
theorem exists_declarationOrder {configuration : Configuration}
    (declaredKeyed : ∀ value ∈ configuration.declared, value.key?.isSome = true)
    (entriesKeyed : ∀ entry ∈ configuration.entries, entry.declaredBy.key?.isSome = true) :
    ∃ ordered, configuration.declarationOrder = .ok ordered := by
  obtain ⟨declared, keys⟩ := keysOf_total declaredKeyed
  have all : areKeyed configuration.entries = true := List.all_eq_true.mpr entriesKeyed
  exact ⟨_, by rw [declarationOrder_eq keys, if_pos all]⟩

end IdeModules
