import IdeModules.Error
import IdeModules.Proofs.Related

/-!
# Ways to fail and to succeed

A reader goes through its steps until one of them fails.  It fails in some way only
if each of its steps fails only so, and what it gives is what its last step gives.
A list is read if each item of it is, and then what is read stands for it item by item.
-/

namespace IdeModules

/-- Whether a result is a success, or a failure of some kind. -/
def FailsOnly (kind : Error → Prop) (result : Except Error α) : Prop :=
  ∀ failure, result = .error failure → kind failure

namespace FailsOnly

variable {kind other : Error → Prop}

theorem ok (value : α) : FailsOnly kind (.ok value : Except Error α) :=
  fun _ => nofun

theorem pure (value : α) : FailsOnly kind (Pure.pure value : Except Error α) :=
  fun _ => nofun

theorem error {failure : Error} (isKind : kind failure) :
    FailsOnly kind (.error failure : Except Error α) := by
  intro other same
  exact Except.error.inj same ▸ isKind

theorem imp (weaker : ∀ failure, kind failure → other failure) {result : Except Error α}
    (fails : FailsOnly kind result) : FailsOnly other result :=
  fun failure isFailure => weaker failure (fails failure isFailure)

theorem map {result : Except Error α} (fails : FailsOnly kind result) (change : α → β) :
    FailsOnly kind (result.map change) := by
  cases result with
  | error failure => exact .error (fails failure rfl)
  | ok value => exact .ok _

theorem mapError {change : Error → Error} {result : Except Error α}
    (fails : FailsOnly (fun failure => kind (change failure)) result) :
    FailsOnly kind (result.mapError change) := by
  cases result with
  | error failure => exact .error (fails failure rfl)
  | ok value => exact .ok _

theorem bind {step : Except Error α} {next : α → Except Error β} (first : FailsOnly kind step)
    (others : ∀ value, FailsOnly kind (next value)) : FailsOnly kind (step >>= next) := by
  cases step with
  | error failure => exact .error (first failure rfl)
  | ok value => exact others value

theorem mapM {step : α → Except Error β} (each : ∀ item, FailsOnly kind (step item))
    (items : List α) : FailsOnly kind (items.mapM step) := by
  induction items with
  | nil => exact .ok _
  | cons item rest ih =>
      rw [List.mapM_cons]
      exact .bind (each item) fun _ => .bind ih fun _ => .ok _

theorem foldlM {step : α → β → Except Error α} (each : ∀ held item, FailsOnly kind (step held item))
    (start : α) (items : List β) : FailsOnly kind (items.foldlM step start) := by
  induction items generalizing start with
  | nil => exact .ok _
  | cons item rest ih =>
      rw [List.foldlM_cons]
      exact .bind (each start item) ih

/-- A result is a success or a failure of a kind if it fails only so. -/
theorem iff_ok_or_error {result : Except Error α} :
    FailsOnly kind result ↔ (∃ value, result = .ok value) ∨
      ∃ failure, result = .error failure ∧ kind failure := by
  cases result with
  | error failure =>
      constructor
      · exact fun fails => .inr ⟨failure, rfl, fails failure rfl⟩
      · rintro (⟨_, isOk⟩ | ⟨_, isFailure, isKind⟩)
        · exact nomatch isOk
        · exact Except.error.inj isFailure ▸ .error isKind
  | ok value => exact ⟨fun _ => .inl ⟨value, rfl⟩, fun _ => .ok value⟩

end FailsOnly

/-- Whether a result is a failure, or else a value of some kind. -/
def ReadsOnly {α : Type} (holds : α → Prop) (result : Except Error α) : Prop :=
  ∀ value, result = .ok value → holds value

namespace ReadsOnly

variable {α β : Type} {holds : α → Prop}

theorem pure {value : α} (isHeld : holds value) : ReadsOnly holds (Pure.pure value) := by
  intro other same
  exact Except.ok.inj same ▸ isHeld

theorem bind {step : Except Error β} {next : β → Except Error α}
    (others : ∀ value, step = .ok value → ReadsOnly holds (next value)) :
    ReadsOnly holds (step >>= next) := by
  intro result done
  obtain ⟨value, isValue, done⟩ := except_bind_ok done
  exact others value isValue result done

end ReadsOnly

/-! ## Lists -/

/-- What is read of items stands for them one by one. -/
theorem forall₂_of_mapM {α β : Type} {step : α → Except Error β} {items : List α} {values : List β}
    (done : items.mapM step = .ok values) :
    List.Forall₂ (fun item value => step item = .ok value) items values := by
  induction items generalizing values with
  | nil =>
      obtain rfl := Except.ok.inj done
      exact .nil
  | cons item rest ih =>
      simp only [List.mapM_cons, except_bind_eq_ok_iff] at done
      obtain ⟨value, isValue, others, areOthers, done⟩ := done
      obtain rfl := Except.ok.inj done
      exact .cons isValue (ih areOthers)

theorem exists_of_mem_mapM {α β : Type} {step : α → Except Error β} {items : List α}
    {values : List β} (done : items.mapM step = .ok values) {value : β} (member : value ∈ values) :
    ∃ item ∈ items, step item = .ok value :=
  exists_mem_of_forall₂ (forall₂_of_mapM done) value member

theorem exists_mapM_iff {α β : Type} {step : α → Except Error β} {items : List α} :
    (∃ found, items.mapM step = .ok found) ↔ ∀ item ∈ items, ∃ value, step item = .ok value := by
  induction items with
  | nil => exact ⟨nofun, fun _ => ⟨[], rfl⟩⟩
  | cons item rest ih =>
      rw [List.forall_mem_cons, ← ih, List.mapM_cons]
      simp only [except_bind_eq_ok_iff]
      constructor
      · rintro ⟨_, value, isValue, others, areOthers, _⟩
        exact ⟨⟨value, isValue⟩, others, areOthers⟩
      · rintro ⟨⟨value, isValue⟩, others, areOthers⟩
        exact ⟨value :: others, value, isValue, others, areOthers, rfl⟩

end IdeModules
