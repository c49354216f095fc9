import IdeModules.Layout
import IdeModules.Proofs.Json.Worth
import Mathlib.Data.List.Nodup

/-!
# First places

A list without repetitions that is made of another one keeps each of its members at the first
place.  Members are told apart by equality, and the tasks of a layout by what they are worth: of
several values of one worth only the first one is kept.
-/

namespace IdeModules

/-! ## Equal members -/

section Equal

variable {α : Type} [DecidableEq α]

/-- Whether a list holds the wanted members of another one, in the order of their first places. -/
structure FirstPlaces (wanted : α → Prop) (listed chosen : List α) : Prop where
  mem_iff : ∀ item, item ∈ chosen ↔ item ∈ listed ∧ wanted item
  order : chosen.Pairwise fun first second => listed.idxOf first < listed.idxOf second

theorem pairwise_distinct (items : List α) :
    (distinct items).Pairwise fun first second => items.idxOf first < items.idxOf second := by
  induction items with
  | nil => exact .nil
  | cons head tail ih =>
      rw [distinct]
      apply List.pairwise_cons.mpr
      constructor
      · intro item member
        have different : item ≠ head := by simpa using (List.mem_filter.mp member).2
        rw [List.idxOf_cons_self, List.idxOf_cons_ne _ (Ne.symm different)]
        exact Nat.succ_pos _
      · apply (ih.filter _).imp_of_mem
        intro first second isFirst isSecond before
        have firstDiffers : first ≠ head := by simpa using (List.mem_filter.mp isFirst).2
        have secondDiffers : second ≠ head := by simpa using (List.mem_filter.mp isSecond).2
        rw [List.idxOf_cons_ne _ (Ne.symm firstDiffers),
          List.idxOf_cons_ne _ (Ne.symm secondDiffers)]
        exact Nat.succ_lt_succ before

/-- The distinct members that pass a test are at their first places. -/
theorem firstPlaces_distinct_filter (wanted : α → Prop) [DecidablePred wanted] (listed : List α) :
    FirstPlaces wanted listed (distinct (listed.filter (wanted ·))) where
  mem_iff item := by rw [mem_distinct, List.mem_filter, decide_eq_true_eq]
  order := by
    rw [← filter_distinct]
    exact (pairwise_distinct listed).filter _

theorem firstPlaces_distinct (listed : List α) :
    FirstPlaces (fun _ => True) listed (distinct listed) where
  mem_iff item := by rw [mem_distinct, and_true]
  order := pairwise_distinct listed

namespace FirstPlaces

variable {wanted : α → Prop} {listed chosen : List α}

theorem nodup (places : FirstPlaces wanted listed chosen) : chosen.Nodup :=
  places.order.imp fun {first second} before same => by
    rw [same] at before
    exact Nat.lt_irrefl _ before

theorem count_eq_one (places : FirstPlaces wanted listed chosen) {item : α} (member : item ∈ listed)
    (isWanted : wanted item) : chosen.count item = 1 :=
  List.count_eq_one_of_mem places.nodup ((places.mem_iff item).mpr ⟨member, isWanted⟩)

end FirstPlaces

end Equal

/-! ## Values of one worth -/

section Worth

open Json (Value)
open Json.Value

/-- Whether a list holds the first one of the values of each worth in another list, in order. -/
structure FirstOfWorth (listed chosen : List Value) : Prop where
  order : chosen.Sublist listed
  first : ∀ value ∈ chosen, listed.find? (value.same ·) = some value
  once : ∀ value ∈ listed, chosen.countP (value.same ·) = 1

variable {listed chosen : List Value} {value : Value}

theorem isAmong_iff : value.isAmong chosen = true ↔ ∃ held ∈ chosen, value.same held = true := by
  rw [isAmong, List.any_eq_true]

/-- A further value is kept if none before it is worth the same. -/
theorem FirstOfWorth.pushNewValue (firsts : FirstOfWorth listed chosen)
    (unique : ∀ known ∈ listed ++ [value], known.HasUniqueNames) :
    FirstOfWorth (listed ++ [value]) (pushNewValue chosen value) := by
  obtain ⟨listedUnique, valueUnique⟩ := List.forall_mem_append.mp unique
  have valueUnique := List.forall_mem_singleton.mp valueUnique
  have chosenUnique : ∀ held ∈ chosen, held.HasUniqueNames := fun held member =>
    listedUnique held (firsts.order.subset member)
  have first : ∀ held ∈ chosen, (listed ++ [value]).find? (held.same ·) = some held := by
    intro held member
    rw [List.find?_append, firsts.first held member, Option.some_or]
  unfold IdeModules.pushNewValue
  split
  · rename_i isAmong
    obtain ⟨held, isHeld, worth⟩ := isAmong_iff.mp isAmong
    refine ⟨firsts.order.trans (List.sublist_append_left _ _), first,
      List.forall_mem_append.mpr ⟨firsts.once, List.forall_mem_singleton.mpr ?_⟩⟩
    have worthBack := same_symm valueUnique (chosenUnique held isHeld) worth
    rw [← firsts.once held (firsts.order.subset isHeld)]
    apply List.countP_congr
    intro other _
    exact ⟨same_trans (chosenUnique held isHeld) worthBack, same_trans valueUnique worth⟩
  · rename_i notAmong
    -- What is listed has a chosen value of its worth, so nothing listed is worth the new value.
    have noneWorth : ∀ known ∈ listed, ¬value.same known = true := by
      intro known member worth
      have isThere : 0 < chosen.countP (known.same ·) := by
        rw [firsts.once known member]
        exact Nat.one_pos
      obtain ⟨held, isHeld, worthHeld⟩ := List.countP_pos_iff.mp isThere
      exact notAmong (isAmong_iff.mpr ⟨held, isHeld, same_trans valueUnique worth worthHeld⟩)
    have isItself := same_refl valueUnique
    refine ⟨firsts.order.append (List.Sublist.refl _),
      List.forall_mem_append.mpr ⟨first, List.forall_mem_singleton.mpr ?_⟩,
      List.forall_mem_append.mpr ⟨?_, List.forall_mem_singleton.mpr ?_⟩⟩
    · rw [List.find?_append, List.find?_eq_none.mpr noneWorth, Option.none_or,
        List.find?_cons_of_pos isItself]
    · intro known member
      have notWorth : ¬known.same value = true := by
        intro worth
        exact noneWorth known member (same_symm (listedUnique known member) valueUnique worth)
      rw [List.countP_append, firsts.once known member, List.countP_singleton, if_neg notWorth]
    · have nothing : chosen.countP (value.same ·) = 0 :=
        List.countP_eq_zero.mpr fun held isHeld => noneWorth held (firsts.order.subset isHeld)
      rw [List.countP_append, nothing, List.countP_singleton, if_pos isItself]

/-- Values that are pushed in turn leave the first one of each worth. -/
theorem firstOfWorth_foldl {values : List Value} (unique : ∀ value ∈ values, value.HasUniqueNames) :
    FirstOfWorth values (values.foldl pushNewValue []) := by
  have pushed (before held rest : List Value) (firsts : FirstOfWorth before held)
      (unique : ∀ value ∈ before ++ rest, value.HasUniqueNames) :
      FirstOfWorth (before ++ rest) (rest.foldl IdeModules.pushNewValue held) := by
    induction rest generalizing before held with
    | nil =>
        rw [List.append_nil]
        exact firsts
    | cons value others ih =>
        rw [List.append_cons] at unique ⊢
        refine ih _ _ (firsts.pushNewValue ?_) unique
        exact fun known member => unique known (List.mem_append_left _ member)
  have nothing : FirstOfWorth [] [] :=
    ⟨List.Sublist.refl _, List.forall_mem_nil _, List.forall_mem_nil _⟩
  exact pushed [] [] values nothing unique

end Worth

end IdeModules
