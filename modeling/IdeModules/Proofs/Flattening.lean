import IdeModules.Proofs.DeclarationOrder
import Mathlib.Data.List.Forall2
import Mathlib.Logic.Relation

/-!
# Flattened configurations

A walk over the configurations that one extends ends before its steps do: each
step takes a name off the list of those still to visit, and a name adds those
that it extends only once.  So the walk comes to every known name that the first
one extends, directly or through others.
-/

namespace IdeModules

/-! ## Keyed lists side by side -/

/-- Keyed lists with the same keys in the same order and related values. -/
def Keyed.Related {κ α β : Type} (relation : α → β → Prop) (left : Keyed κ α)
    (right : Keyed κ β) : Prop :=
  List.Forall₂ (fun first second => first.1 = second.1 ∧ relation first.2 second.2) left right

theorem Keyed.Related.get? {κ α β : Type} [DecidableEq κ] {relation : α → β → Prop}
    {left : Keyed κ α} {right : Keyed κ β} (related : Keyed.Related relation left right)
    (key : κ) : Option.Rel relation (Keyed.get? key left) (Keyed.get? key right) := by
  induction related with
  | nil => exact .none
  | cons first others ih =>
      rename_i leftEntry rightEntry _ _
      obtain ⟨leftKey, leftValue⟩ := leftEntry
      obtain ⟨rightKey, rightValue⟩ := rightEntry
      obtain ⟨rfl, values⟩ := first
      rw [Keyed.get?, Keyed.get?]
      split
      · exact .some values
      · exact ih

theorem Keyed.Related.exists_right {κ α β : Type} [DecidableEq κ] {relation : α → β → Prop}
    {left : Keyed κ α} {right : Keyed κ β} (related : Keyed.Related relation left right)
    {key : κ} {value : α} (found : Keyed.get? key left = some value) :
    ∃ other, Keyed.get? key right = some other ∧ relation value other := by
  have both := related.get? key
  rw [found] at both
  generalize Keyed.get? key right = held at both ⊢
  cases both with
  | some values => exact ⟨_, rfl, values⟩

/-! ## Walks -/

section Walk

variable {parents : ParentNames}

/-- The number of names that are extended by those that have not been visited. -/
def openLinks (parents : ParentNames) (visited : List String) : Nat :=
  ((parents.filter fun entry => entry.1 ∉ visited).flatMap Prod.snd).length

theorem openLinks_cons (entry : String × List String) (rest : ParentNames)
    (visited : List String) :
    openLinks (entry :: rest) visited =
      (if entry.1 ∈ visited then 0 else entry.2.length) + openLinks rest visited := by
  by_cases known : entry.1 ∈ visited <;> simp [openLinks, known]

theorem openLinks_mono (name : String) (visited : List String) :
    openLinks parents (name :: visited) ≤ openLinks parents visited := by
  induction parents with
  | nil => exact Nat.le_refl _
  | cons entry rest ih =>
      rw [openLinks_cons, openLinks_cons]
      by_cases known : entry.1 ∈ visited
      · simpa [known] using ih
      · by_cases same : entry.1 = name <;> simp [known, same] <;> omega

/-- A name that is visited takes along the names that it extends. -/
theorem openLinks_visit {name : String} {next visited : List String}
    (found : Keyed.get? name parents = some next) (unvisited : name ∉ visited) :
    openLinks parents (name :: visited) + next.length ≤ openLinks parents visited := by
  induction parents with
  | nil => simp [Keyed.get?] at found
  | cons entry rest ih =>
      obtain ⟨known, held⟩ := entry
      rw [openLinks_cons, openLinks_cons]
      rw [Keyed.get?] at found
      split at found
      · rename_i same
        obtain rfl := Option.some.inj found
        have shorter : openLinks rest (name :: visited) ≤ openLinks rest visited :=
          openLinks_mono name visited
        simp [same, unvisited]
        omega
      · rename_i differ
        have shorter := ih found
        simp only [List.mem_cons, differ, false_or]
        omega

/-- Whether a list of names holds every known name that one of them extends. -/
def IsClosed (parents : ParentNames) (names : List String) : Prop :=
  ∀ name ∈ names, ∀ next, Keyed.get? name parents = some next →
    ∀ other ∈ next, (Keyed.get? other parents).isSome = true → other ∈ names

/-- A name that is visited before the rest of a walk counts as met by the walk. -/
theorem met_of_visit {name other : String} {visited walk : List String}
    (met : other ∈ name :: visited ∨ other ∈ walk) : other ∈ visited ∨ other ∈ name :: walk := by
  simp only [List.mem_cons] at met ⊢
  rw [or_left_comm, ← or_assoc]
  exact met

/-- With enough steps a walk comes to every known name that is still to visit, and to what the
names that it comes to extend, unless they have been visited before. -/
theorem walkFrom_complete {steps : Nat} {visited pending : List String}
    (enough : pending.length + openLinks parents visited ≤ steps) :
    (∀ name ∈ pending, (Keyed.get? name parents).isSome = true →
      name ∈ visited ∨ name ∈ walkFrom parents steps visited pending) ∧
    ∀ name ∈ walkFrom parents steps visited pending, ∀ next,
      Keyed.get? name parents = some next → ∀ other ∈ next,
        (Keyed.get? other parents).isSome = true →
          other ∈ visited ∨ other ∈ walkFrom parents steps visited pending := by
  -- A step takes one pending name; what a visit makes pending is no longer open, so that the sum
  -- falls with the steps that are left.
  induction steps generalizing visited pending with
  | zero =>
      have nothing : pending = [] := List.length_eq_zero_iff.mp (by omega)
      simp [nothing, walkFrom]
  | succ steps ih =>
      cases pending with
      | nil => simp [walkFrom]
      | cons name pending =>
          rw [List.length_cons] at enough
          rw [walkFrom]
          cases found : Keyed.get? name parents with
          | none =>
              obtain ⟨met, closed⟩ := ih
                (show pending.length + openLinks parents visited ≤ steps by omega)
              exact ⟨List.forall_mem_cons.mpr ⟨by simp [found], met⟩, closed⟩
          | some next =>
              by_cases known : name ∈ visited
              · obtain ⟨met, closed⟩ := ih
                  (show pending.length + openLinks parents visited ≤ steps by omega)
                simp only [known, if_true]
                exact ⟨List.forall_mem_cons.mpr ⟨fun _ => .inl known, met⟩, closed⟩
              · have visit := openLinks_visit found known
                have enoughLeft : (next ++ pending).length +
                    openLinks parents (name :: visited) ≤ steps := by
                  rw [List.length_append]
                  omega
                obtain ⟨met, closed⟩ := ih enoughLeft
                simp only [known, if_false]
                refine ⟨List.forall_mem_cons.mpr ⟨fun _ => .inr List.mem_cons_self, ?_⟩,
                  List.forall_mem_cons.mpr ⟨?_, ?_⟩⟩
                · exact fun other member isKnown =>
                    met_of_visit (met other (List.mem_append_right next member) isKnown)
                · intro links isNext other member isKnown
                  obtain rfl := Option.some.inj (found.symm.trans isNext)
                  exact met_of_visit (met other (List.mem_append_left pending member) isKnown)
                · exact fun middle member links isNext other isLink isKnown =>
                    met_of_visit (closed middle member links isNext other isLink isKnown)

theorem mem_reachedNames_self {name : String}
    (known : (Keyed.get? name parents).isSome = true) : name ∈ reachedNames parents name := by
  have enough : [name].length + openLinks parents [] ≤ walkBound parents := by
    simp [openLinks, walkBound]
  simpa [reachedNames] using (walkFrom_complete enough).1 name (by simp) known

theorem isClosed_reachedNames (parents : ParentNames) (name : String) :
    IsClosed parents (reachedNames parents name) := by
  have enough : [name].length + openLinks parents [] ≤ walkBound parents := by
    simp [openLinks, walkBound]
  simpa [reachedNames, IsClosed] using (walkFrom_complete enough).2

end Walk

/-! ## Extended configurations -/

/-- A configuration extends a known one. -/
def Extends (configurations : Configurations) (name other : String) : Prop :=
  ∃ configuration, Keyed.get? name configurations = some configuration ∧
    .str other ∈ configuration.extendsFrom ∧ (Keyed.get? other configurations).isSome = true

theorem keysOf_eq_ok {values : List Json.Value} {keys : List Json.Key}
    (known : keysOf values = .ok keys) :
    List.Forall₂ (fun value key => value.key? = some key) values keys := by
  induction values generalizing keys with
  | nil =>
      obtain rfl := Except.ok.inj known
      exact .nil
  | cons value rest ih =>
      obtain ⟨key, isKey, known⟩ := except_bind_ok known
      obtain ⟨others, areOthers, known⟩ := except_bind_ok known
      obtain rfl := Except.ok.inj known
      refine .cons ?_ (ih areOthers)
      unfold keyOf at isKey
      split at isKey
      · rename_i found
        exact Except.ok.inj isKey ▸ found
      · simp at isKey

theorem exists_key_of_mem {values : List Json.Value} {keys : List Json.Key}
    (paired : List.Forall₂ (fun value key => value.key? = some key) values keys)
    {value : Json.Value} (member : value ∈ values) :
    ∃ key ∈ keys, value.key? = some key := by
  induction paired with
  | nil => simp at member
  | cons first others ih =>
      rename_i head key _ _
      rcases List.mem_cons.mp member with rfl | later
      · exact ⟨key, List.mem_cons_self, first⟩
      · obtain ⟨other, isOther, known⟩ := ih later
        exact ⟨other, List.mem_cons_of_mem _ isOther, known⟩

theorem key?_eq_str_iff {value : Json.Value} {text : String} :
    value.key? = some (.str text) ↔ value = .str text := by
  cases value with
  | real number =>
      simp only [Json.Value.key?, Option.some.injEq, reduceCtorEq, iff_false]
      split <;> simp
  | _ => simp [Json.Value.key?]

theorem mem_namesIn_iff {keys : List Json.Key} {name : String} :
    name ∈ namesIn keys ↔ .str name ∈ keys := by
  rw [namesIn, List.mem_filterMap]
  constructor
  · rintro ⟨key, member, isName⟩
    split at isName
    · obtain rfl := Option.some.inj isName
      exact member
    · simp at isName
  · exact fun member => ⟨_, member, rfl⟩

/-- A text is among values if its key is among theirs. -/
theorem str_mem_iff {values : List Json.Value} {keys : List Json.Key}
    (paired : List.Forall₂ (fun value key => value.key? = some key) values keys)
    {text : String} : .str text ∈ keys ↔ .str text ∈ values := by
  induction paired with
  | nil => simp
  | cons first others ih =>
      rename_i value key _ _
      have same : .str text = key ↔ .str text = value := by
        rw [eq_comm, ← Option.some.injEq, ← first, key?_eq_str_iff, eq_comm]
      rw [List.mem_cons, List.mem_cons, ih, same]

theorem mem_parents_iff {configuration : Configuration} {names : List String}
    (made : configuration.parents = .ok names) {name : String} :
    name ∈ names ↔ .str name ∈ configuration.extendsFrom := by
  unfold Configuration.parents at made
  cases known : keysOf configuration.extendsFrom with
  | error failure => simp [known, Except.map] at made
  | ok keys =>
      rw [known] at made
      obtain rfl := Except.ok.inj made
      rw [mem_namesIn_iff, str_mem_iff (keysOf_eq_ok known)]

theorem related_parentNames {configurations : Configurations} {parents : ParentNames}
    (made : parentNames configurations = .ok parents) :
    Keyed.Related (fun configuration names => configuration.parents = .ok names) configurations
      parents := by
  induction configurations generalizing parents with
  | nil =>
      obtain rfl := Except.ok.inj made
      exact .nil
  | cons entry rest ih =>
      obtain ⟨names, areParents, made⟩ := except_bind_ok made
      obtain ⟨others, areOthers, made⟩ := except_bind_ok made
      obtain rfl := Except.ok.inj made
      exact .cons ⟨rfl, areParents⟩ (ih areOthers)

/-- A closed list of names holds whatever its names extend, directly or through others. -/
theorem IsClosed.mem_of_extends {configurations : Configurations} {parents : ParentNames}
    (made : parentNames configurations = .ok parents) {names : List String}
    (closed : IsClosed parents names) {name other : String} (member : name ∈ names)
    (leads : Relation.ReflTransGen (Extends configurations) name other) : other ∈ names := by
  have related := related_parentNames made
  induction leads with
  | refl => exact member
  | tail _ last ih =>
      rename_i middle target _
      obtain ⟨configuration, found, isExtended, isKnown⟩ := last
      obtain ⟨extended, isThere⟩ := Option.isSome_iff_exists.mp isKnown
      obtain ⟨next, isNext, areParents⟩ := related.exists_right found
      obtain ⟨others, areThere, _⟩ := related.exists_right isThere
      exact closed middle ih next isNext target
        ((mem_parents_iff areParents).mpr isExtended) (by rw [areThere]; rfl)

end IdeModules
