import IdeModules.Json.Value
import Mathlib.Data.List.Forall2
import Mathlib.Data.List.Perm.Subperm

/-!
# Values of one worth

Values without parts are worth the same if they have one key, arrays if their items are, one by
one, and objects if their members are, in any order.  Where the members of every object have
different names, this is an equivalence: of two objects with equally many members, each of which
the other one has as well, neither has a name that the other one lacks.
-/

namespace IdeModules.Json.Value

/-- Whether the members of every object in a value have different names. -/
inductive HasUniqueNames : Value → Prop where
  | scalar {value : Value} (keyed : value.key?.isSome = true) : HasUniqueNames value
  | arr {items : List Value} (each : ∀ item ∈ items, HasUniqueNames item) :
      HasUniqueNames (.arr items)
  | obj {members : List (String × Value)} (nodup : (members.map Prod.fst).Nodup)
      (each : ∀ member ∈ members, HasUniqueNames member.2) : HasUniqueNames (.obj members)

theorem HasUniqueNames.of_arr {items : List Value} (unique : HasUniqueNames (.arr items)) :
    ∀ item ∈ items, item.HasUniqueNames := by
  cases unique with
  | scalar keyed => exact absurd keyed Bool.false_ne_true
  | arr each => exact each

theorem HasUniqueNames.of_obj {members : List (String × Value)}
    (unique : HasUniqueNames (.obj members)) :
    (members.map Prod.fst).Nodup ∧ ∀ member ∈ members, member.2.HasUniqueNames := by
  cases unique with
  | scalar keyed => exact absurd keyed Bool.false_ne_true
  | obj nodup each => exact ⟨nodup, each⟩

/-! ## Worth by parts -/

theorem key?_eq_of_same {left right : Value} (same : left.same right = true) :
    left.key? = right.key? := by
  unfold Value.same at same
  split at same
  · rfl
  · rfl
  · split at same
    · rename_i leftKey rightKey
      rw [leftKey, rightKey, of_decide_eq_true same]
    · exact absurd same (by simp)

theorem same_iff_of_key? {left right : Value} {key : Key} (known : right.key? = some key) :
    left.same right = true ↔ left.key? = some key := by
  constructor
  · exact fun same => (key?_eq_of_same same).trans known
  · intro found
    unfold Value.same
    split
    · simp [key?] at known
    · simp [key?] at known
    · simp [found, known]

theorem same_arr_iff {lefts rights : List Value} :
    (Value.arr lefts).same (.arr rights) = true ↔ lefts.length = rights.length ∧
      ∀ place (inLeft : place < lefts.length) (inRight : place < rights.length),
        lefts[place].same rights[place] = true := by
  have byItems : sameItems lefts rights = true ↔
      List.Forall₂ (fun left right => left.same right = true) lefts rights := by
    induction lefts generalizing rights with
    | nil => cases rights <;> simp [sameItems]
    | cons left lefts ih =>
        cases rights with
        | nil => simp [sameItems]
        | cons right rights =>
            rw [sameItems, Bool.and_eq_true, ih, List.forall₂_cons]
  rw [same, byItems, List.forall₂_iff_get]
  rfl

theorem mem_of_lookup {name : String} {value : Value} {members : List (String × Value)}
    (found : lookup name members = some value) : (name, value) ∈ members := by
  induction members with
  | nil => exact nomatch found
  | cons member rest ih =>
      rw [lookup] at found
      split at found
      · rename_i later isLater
        obtain rfl := Option.some.inj found
        exact List.mem_cons_of_mem _ (ih isLater)
      · split at found
        · rename_i same
          obtain rfl := Option.some.inj found
          rw [← same]
          exact List.mem_cons_self
        · exact nomatch found

theorem lookup_of_mem {name : String} {value : Value} {members : List (String × Value)}
    (nodup : (members.map Prod.fst).Nodup) (member : (name, value) ∈ members) :
    lookup name members = some value := by
  induction members with
  | nil => exact absurd member List.not_mem_nil
  | cons first rest ih =>
      obtain ⟨fresh, restNodup⟩ := List.nodup_cons.mp nodup
      rw [lookup]
      rcases List.mem_cons.mp member with rfl | inRest
      · cases found : lookup name rest with
        | none => exact if_pos rfl
        | some later => exact absurd (List.mem_map_of_mem (mem_of_lookup found)) fresh
      · rw [ih restNodup inRest]

theorem sameMembers_iff {lefts rights : List (String × Value)} :
    sameMembers lefts rights = true ↔ ∀ member ∈ lefts, ∃ other,
      lookup member.1 rights = some other ∧ member.2.same other = true := by
  induction lefts with
  | nil => simp [sameMembers]
  | cons member rest ih =>
      rw [sameMembers, Bool.and_eq_true, ih, List.forall_mem_cons]
      refine and_congr_left' ?_
      cases lookup member.1 rights <;> simp

theorem same_obj_iff {lefts rights : List (String × Value)} :
    (Value.obj lefts).same (.obj rights) = true ↔ lefts.length = rights.length ∧
      ∀ member ∈ lefts, ∃ other,
        lookup member.1 rights = some other ∧ member.2.same other = true := by
  rw [same, Bool.and_eq_true, beq_iff_eq, sameMembers_iff]

/-! ## An equivalence -/

theorem same_refl {value : Value} (unique : value.HasUniqueNames) : value.same value = true := by
  induction unique with
  | scalar keyed =>
      obtain ⟨key, isKey⟩ := Option.isSome_iff_exists.mp keyed
      exact (same_iff_of_key? isKey).mpr isKey
  | arr each ih =>
      exact same_arr_iff.mpr ⟨rfl, fun _ inList _ => ih _ (List.getElem_mem inList)⟩
  | obj nodup each ih =>
      exact same_obj_iff.mpr ⟨rfl, fun member isMember =>
        ⟨member.2, lookup_of_mem nodup isMember, ih member isMember⟩⟩

/-- Objects with equally many members have the same names if one has those of the other. -/
theorem mem_names_of_same {lefts rights : List (String × Value)}
    (nodup : (lefts.map Prod.fst).Nodup) (sameLength : lefts.length = rights.length)
    (has : ∀ member ∈ lefts, ∃ other,
      lookup member.1 rights = some other ∧ member.2.same other = true) :
    ∀ name ∈ rights.map Prod.fst, name ∈ lefts.map Prod.fst := by
  have within : lefts.map Prod.fst ⊆ rights.map Prod.fst := by
    intro name isName
    obtain ⟨member, isMember, rfl⟩ := List.mem_map.mp isName
    obtain ⟨other, found, _⟩ := has member isMember
    exact List.mem_map.mpr ⟨_, mem_of_lookup found, rfl⟩
  have lengths : (rights.map Prod.fst).length ≤ (lefts.map Prod.fst).length := by
    simp [sameLength]
  have perm := (List.subperm_of_subset nodup within).perm_of_length_le lengths
  exact fun name isName => perm.mem_iff.mpr isName

theorem same_symm {left right : Value} (leftUnique : left.HasUniqueNames)
    (rightUnique : right.HasUniqueNames) (worth : left.same right = true) :
    right.same left = true := by
  induction leftUnique generalizing right with
  | scalar keyed =>
      obtain ⟨key, isKey⟩ := Option.isSome_iff_exists.mp keyed
      exact (same_iff_of_key? isKey).mpr ((key?_eq_of_same worth).symm.trans isKey)
  | arr each ih =>
      cases right with
      | arr rights =>
          have rightEach := rightUnique.of_arr
          obtain ⟨sameLength, worth⟩ := same_arr_iff.mp worth
          refine same_arr_iff.mpr ⟨sameLength.symm, ?_⟩
          intro place inRight inLeft
          exact ih _ (List.getElem_mem inLeft) (rightEach _ (List.getElem_mem inRight))
            (worth place inLeft inRight)
      | _ => exact nomatch worth
  | obj nodup each ih =>
      cases right with
      | obj rights =>
          obtain ⟨rightNodup, rightEach⟩ := rightUnique.of_obj
          obtain ⟨sameLength, has⟩ := same_obj_iff.mp worth
          refine same_obj_iff.mpr ⟨sameLength.symm, ?_⟩
          intro member isMember
          have isName := mem_names_of_same nodup sameLength has member.1
            (List.mem_map_of_mem isMember)
          obtain ⟨own, isOwn, sameName⟩ := List.mem_map.mp isName
          obtain ⟨other, found, worth⟩ := has own isOwn
          rw [sameName, lookup_of_mem rightNodup isMember] at found
          obtain rfl := Option.some.inj found
          rw [← sameName]
          exact ⟨own.2, lookup_of_mem nodup isOwn,
            ih own isOwn (rightEach member isMember) worth⟩
      | _ => exact nomatch worth

theorem same_trans {left middle right : Value} (unique : left.HasUniqueNames)
    (first : left.same middle = true) (second : middle.same right = true) :
    left.same right = true := by
  induction unique generalizing middle right with
  | scalar keyed =>
      obtain ⟨key, isKey⟩ := Option.isSome_iff_exists.mp keyed
      have middleKey := (key?_eq_of_same first).symm.trans isKey
      have rightKey := (key?_eq_of_same second).symm.trans middleKey
      exact (same_iff_of_key? rightKey).mpr isKey
  | arr each ih =>
      cases middle with
      | arr middles =>
          cases right with
          | arr rights =>
              obtain ⟨firstLength, first⟩ := same_arr_iff.mp first
              obtain ⟨secondLength, second⟩ := same_arr_iff.mp second
              refine same_arr_iff.mpr ⟨firstLength.trans secondLength, ?_⟩
              intro place inLeft inRight
              have inMiddle : place < middles.length := firstLength ▸ inLeft
              exact ih _ (List.getElem_mem inLeft) (first place inLeft inMiddle)
                (second place inMiddle inRight)
          | _ => exact nomatch second
      | _ => exact nomatch first
  | obj nodup each ih =>
      cases middle with
      | obj middles =>
          cases right with
          | obj rights =>
              obtain ⟨firstLength, firstHas⟩ := same_obj_iff.mp first
              obtain ⟨secondLength, secondHas⟩ := same_obj_iff.mp second
              refine same_obj_iff.mpr ⟨firstLength.trans secondLength, ?_⟩
              intro member isMember
              obtain ⟨between, isBetween, toBetween⟩ := firstHas member isMember
              obtain ⟨other, isOther, toOther⟩ := secondHas _ (mem_of_lookup isBetween)
              exact ⟨other, isOther, ih member isMember toBetween toOther⟩
          | _ => exact nomatch second
      | _ => exact nomatch first

end IdeModules.Json.Value
