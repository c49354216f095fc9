import IdeModules.Disk
import IdeModules.Proofs.Run

/-!
# Steps that raise errors

A run of two steps ends with an error if the first one does, or if the second one does
where the first one has ended with a value.  What each of two steps keeps of the world,
both of them keep, however they end.
-/

namespace IdeModules

/-- A step that is taken in a world ends with an error, in another world. -/
def Raises (step : Run α) (world : World) (failure : Error) (after : World) : Prop :=
  step.run world = (.error failure, after)

section Steps

variable {α β γ : Type} {world after : World} {failure : Error}

theorem run_bind (step : Run α) (next : α → Run β) (world : World) :
    (step >>= next).run world =
      match step.run world with
      | (.ok value, middle) => (next value).run middle
      | (.error failure, middle) => (.error failure, middle) := by
  have whole : (step >>= next).run world =
      match step.run world with
      | (result, middle) => ExceptT.bindCont next result middle := rfl
  rw [whole]
  rcases step.run world with ⟨failure | value, middle⟩ <;> rfl

theorem raises_bind_iff {step : Run α} {next : α → Run β} :
    Raises (step >>= next) world failure after ↔
      Raises step world failure after ∨
        ∃ found middle, Gives step world found middle ∧
          Raises (next found) middle failure after := by
  rw [Raises, run_bind, Raises]
  constructor
  · intro raised
    split at raised
    · rename_i found middle given
      exact .inr ⟨found, middle, given, raised⟩
    · rename_i other middle failed
      obtain ⟨same, rfl⟩ := Prod.mk.inj raised
      obtain rfl := Except.error.inj same
      exact .inl failed
  · rintro (failed | ⟨found, middle, given, raised⟩)
    · rw [failed]
    · rw [given]
      exact raised

theorem not_raises_pure (value : α) : ¬Raises (pure value : Run α) world failure after :=
  fun raised => nomatch congrArg Prod.fst raised

theorem not_raises_get : ¬Raises (get : Run World) world failure after :=
  fun raised => nomatch congrArg Prod.fst raised

theorem raises_ofResult_iff {result : Except Error α} :
    Raises (Run.ofResult result) world failure after ↔
      result = .error failure ∧ after = world := by
  constructor
  · intro raised
    obtain ⟨same, unchanged⟩ := Prod.mk.inj raised
    exact ⟨same, unchanged.symm⟩
  · rintro ⟨rfl, rfl⟩
    rfl

theorem IsHarmless.not_raises {step : Run α} (harmless : IsHarmless step) :
    ¬Raises step world failure after := by
  intro raised
  obtain ⟨value, _, given, _⟩ := harmless world
  exact nomatch congrArg Prod.fst (raised.symm.trans given)

/-! ## Steps for the items of a list -/

theorem gives_mapM_cons_iff {step : α → Run β} {item : α} {rest : List α} {values : List β} :
    Gives ((item :: rest).mapM step) world values after ↔
      ∃ value others middle, values = value :: others ∧ Gives (step item) world value middle ∧
        Gives (rest.mapM step) middle others after := by
  rw [List.mapM_cons]
  simp only [gives_bind_iff, gives_pure_iff]
  constructor
  · rintro ⟨value, middle, given, others, _, restGiven, rfl, rfl⟩
    exact ⟨value, others, middle, rfl, given, restGiven⟩
  · rintro ⟨value, others, middle, rfl, given, restGiven⟩
    exact ⟨value, middle, given, others, after, restGiven, rfl, rfl⟩

theorem run_mapM_cons (step : α → Run β) (item : α) (rest : List α) (world : World) :
    ((item :: rest).mapM step).run world =
      match (step item).run world with
      | (.error failure, middle) => (.error failure, middle)
      | (.ok value, middle) =>
        (((rest.mapM step).run middle).1.map fun values => value :: values,
          ((rest.mapM step).run middle).2) := by
  rw [List.mapM_cons, run_bind]
  rcases (step item).run world with ⟨failure | value, middle⟩
  · rfl
  · simp only [run_bind]
    rcases (rest.mapM step).run middle with ⟨failure | values, after⟩ <;> rfl

theorem run_sideBySide_cons (step : α → Run β) (item : α) (rest : List α) (world : World) :
    (Run.sideBySide step (item :: rest)).run world =
      (((step item).run world).1 >>= fun value =>
          ((Run.sideBySide step rest).run ((step item).run world).2).1.map fun values =>
            value :: values,
        ((Run.sideBySide step rest).run ((step item).run world).2).2) := by
  have attempted {γ : Type} (first : Run γ) (here : World) :
      (Run.attempt first).run here = (.ok (first.run here).1, (first.run here).2) := rfl
  have looked {γ : Type} (result : Except Error γ) (here : World) :
      (Run.ofResult result).run here = (result, here) := rfl
  rw [Run.sideBySide]
  simp only [run_bind, attempted, looked]
  rcases (step item).run world with ⟨failure | value, middle⟩
  · rfl
  · rcases (Run.sideBySide step rest).run middle with ⟨failure | values, after⟩ <;> rfl

/-- Where steps for the items of a list end with an error, the ones before a place have given
values, and the one at the place ends with that error. -/
theorem exists_of_raises_mapM {step : α → Run β} {items : List α}
    (raised : Raises (items.mapM step) world failure after) :
    ∃ values middle item, items[values.length]? = some item ∧
      Gives ((items.take values.length).mapM step) world values middle ∧
      Raises (step item) middle failure after := by
  induction items generalizing world with
  | nil => exact absurd raised (not_raises_pure _)
  | cons item rest ih =>
      rw [List.mapM_cons] at raised
      rcases raises_bind_iff.mp raised with isHere | ⟨value, middle, given, later⟩
      · exact ⟨[], world, item, rfl, gives_pure_iff.mpr ⟨rfl, rfl⟩, isHere⟩
      rcases raises_bind_iff.mp later with inRest | ⟨_, _, _, ended⟩
      · obtain ⟨values, reached, other, isThere, restGiven, stops⟩ := ih inRest
        exact ⟨value :: values, reached, other, isThere,
          gives_mapM_cons_iff.mpr ⟨value, values, middle, rfl, given, restGiven⟩, stops⟩
      · exact absurd ended (not_raises_pure _)

/-- What a step tells of its item, steps for the items of a list tell of all of them. -/
theorem map_of_gives_mapM {step : α → Run β} {told : β → γ} {known : α → γ}
    (each : ∀ item world value after, Gives (step item) world value after →
      told value = known item)
    {items : List α} {values : List β} (given : Gives (items.mapM step) world values after) :
    values.map told = items.map known := by
  induction items generalizing world values with
  | nil =>
      obtain ⟨rfl, _⟩ := gives_pure_iff.mp given
      rfl
  | cons item rest ih =>
      obtain ⟨value, others, middle, rfl, first, restGiven⟩ := gives_mapM_cons_iff.mp given
      rw [List.map_cons, List.map_cons, each _ _ _ _ first, ih restGiven]

theorem gives_attempt_iff {step : Run α} {result : Except Error α} :
    Gives (Run.attempt step) world result after ↔ step.run world = (result, after) := by
  constructor
  · intro given
    obtain ⟨same, reached⟩ := Prod.mk.inj given
    exact Prod.ext (Except.ok.inj same) reached
  · intro stepped
    have whole : (Run.attempt step).run world =
        (.ok (step.run world).1, (step.run world).2) := rfl
    rw [Gives, whole, stepped]

/-- Steps that are taken whatever becomes of the others give values where steps that stop at the
first error do. -/
theorem gives_sideBySide_iff {step : α → Run β} {items : List α} {values : List β} :
    Gives (Run.sideBySide step items) world values after ↔
      Gives (items.mapM step) world values after := by
  induction items generalizing world values with
  | nil => exact Iff.rfl
  | cons item rest ih =>
      rw [gives_mapM_cons_iff, Run.sideBySide]
      simp only [gives_bind_iff, gives_attempt_iff, gives_ofResult_iff, gives_pure_iff]
      constructor
      · rintro ⟨_, middle, first, _, _, others, value, _, ⟨rfl, rfl⟩, values, _, ⟨rfl, rfl⟩,
          rfl, rfl⟩
        exact ⟨value, values, middle, rfl, first, ih.mp others⟩
      · rintro ⟨value, values, middle, rfl, first, restGiven⟩
        exact ⟨_, middle, first, _, after, ih.mpr restGiven, value, after,
          ⟨rfl, rfl⟩, values, after, ⟨rfl, rfl⟩, rfl, rfl⟩

/-! ## What steps keep -/

/-- A step keeps a view of the world, however it ends. -/
def Keeps (view : World → γ) (step : Run α) : Prop :=
  ∀ world, view (step.run world).2 = view world

variable {view : World → γ}

theorem Keeps.of_gives {step : Run α} {value : α} (keeps : Keeps view step)
    (given : Gives step world value after) : view after = view world := by
  have kept := keeps world
  rwa [given] at kept

theorem Keeps.of_raises {step : Run α} (keeps : Keeps view step)
    (raised : Raises step world failure after) : view after = view world := by
  have kept := keeps world
  rwa [raised] at kept

theorem keeps_pure (value : α) : Keeps view (pure value : Run α) :=
  fun _ => rfl

theorem keeps_ofResult (result : Except Error α) : Keeps view (Run.ofResult result) :=
  fun _ => rfl

theorem keeps_bind {step : Run α} {next : α → Run β} (first : Keeps view step)
    (rest : ∀ value, Keeps view (next value)) : Keeps view (step >>= next) := by
  intro world
  have kept := first world
  rw [run_bind]
  split
  · rename_i value middle given
    rw [given] at kept
    exact (rest value middle).trans kept
  · rename_i other middle failed
    rwa [failed] at kept

theorem keeps_attempt {step : Run α} (keeps : Keeps view step) :
    Keeps view (Run.attempt step) :=
  keeps

theorem keeps_forM {step : α → Run Unit} (each : ∀ item, Keeps view (step item))
    (items : List α) : Keeps view (items.forM step) := by
  induction items with
  | nil => exact keeps_pure _
  | cons item rest ih => exact keeps_bind (each item) fun _ => ih

theorem keeps_mapM {step : α → Run β} (each : ∀ item, Keeps view (step item))
    (items : List α) : Keeps view (items.mapM step) := by
  induction items with
  | nil => exact keeps_pure _
  | cons item rest ih =>
      rw [List.mapM_cons]
      exact keeps_bind (each item) fun _ => keeps_bind ih fun _ => keeps_pure _

theorem keeps_sideBySide {step : α → Run β} (each : ∀ item, Keeps view (step item))
    (items : List α) : Keeps view (Run.sideBySide step items) := by
  induction items with
  | nil => exact keeps_pure _
  | cons item rest ih =>
      exact keeps_bind (keeps_attempt (each item)) fun _ =>
        keeps_bind (keeps_attempt ih) fun _ =>
          keeps_bind (keeps_ofResult _) fun _ =>
            keeps_bind (keeps_ofResult _) fun _ => keeps_pure _

/-! ## Callbacks -/

/-- The value that callbacks make of a value, one after the other. -/
def passThrough (callbacks : List (Callback α)) (value : α) : Except Error α :=
  callbacks.foldlM (fun held callback => callback held) value

/-- Whether the callbacks before a place return, and the one at the place stops with an error. -/
def StopsAt (callbacks : List (Callback α)) (value : α) (index : Nat) (failure : Error) : Prop :=
  ∃ held callback, passThrough (callbacks.take index) value = .ok held ∧
    callbacks[index]? = some callback ∧ callback held = .error failure

theorem StopsAt.lt_length {callbacks : List (Callback α)} {value : α} {index : Nat}
    (stops : StopsAt callbacks value index failure) : index < callbacks.length := by
  obtain ⟨_, _, _, isThere, _⟩ := stops
  exact (List.getElem?_eq_some_iff.mp isThere).1

/-- Callbacks are started in order until one of them stops. -/
theorem runCallbacks_cases (callbacks : List (Callback α)) (value : α) :
    (∃ changed, passThrough callbacks value = .ok changed ∧
        runCallbacks callbacks value = (callbacks.length, .ok changed)) ∨
      ∃ index failure, StopsAt callbacks value index failure ∧
        passThrough callbacks value = .error failure ∧
        runCallbacks callbacks value = (index + 1, .error failure) := by
  induction callbacks generalizing value with
  | nil => exact .inl ⟨value, rfl, rfl⟩
  | cons callback rest ih =>
      have passed : passThrough (callback :: rest) value =
          callback value >>= passThrough rest := rfl
      rw [passed, runCallbacks]
      cases called : callback value with
      | error failure =>
          exact .inr ⟨0, failure, ⟨value, callback, rfl, rfl, called⟩, rfl, rfl⟩
      | ok changed =>
          rcases ih changed with
            ⟨last, isLast, ran⟩ | ⟨index, failure, ⟨held, stopping, before, isThere, stops⟩,
              isError, ran⟩
          · exact .inl ⟨last, isLast, by simp only [ran, List.length_cons]⟩
          · refine .inr ⟨index + 1, failure, ⟨held, stopping, ?_, isThere, stops⟩, isError,
              by simp only [ran]⟩
            have first : passThrough ((callback :: rest).take (index + 1)) value =
                callback value >>= passThrough (rest.take index) := rfl
            rw [first, called]
            exact before

variable {owner : String} {phase : HookPhase} {callbacks : List (Callback α)} {value : α}

theorem run_callBack (owner : String) (phase : HookPhase) (callbacks : List (Callback α))
    (value : α) (world : World) :
    (Run.callBack owner phase callbacks value).run world =
      ((runCallbacks callbacks value).2, { world with
        calls := world.calls ++
          (callsOf phase (runCallbacks callbacks value).1).map (owner, ·) }) :=
  rfl

theorem calls_of_gives_callBack {changed : α}
    (given : Gives (Run.callBack owner phase callbacks value) world changed after) :
    passThrough callbacks value = .ok changed ∧ after.files = world.files ∧
      after.calls = world.calls ++ (callsOf phase callbacks.length).map (owner, ·) := by
  rw [Gives, run_callBack] at given
  rcases runCallbacks_cases callbacks value with
    ⟨last, isLast, ran⟩ | ⟨index, failure, _, _, ran⟩
  · rw [ran] at given
    obtain ⟨same, rfl⟩ := Prod.mk.inj given
    exact ⟨isLast.trans same, rfl, rfl⟩
  · rw [ran] at given
    cases congrArg Prod.fst given

theorem calls_of_raises_callBack
    (raised : Raises (Run.callBack owner phase callbacks value) world failure after) :
    ∃ index, StopsAt callbacks value index failure ∧ after.files = world.files ∧
      after.calls = world.calls ++ (callsOf phase (index + 1)).map (owner, ·) := by
  rw [Raises, run_callBack] at raised
  rcases runCallbacks_cases callbacks value with
    ⟨last, _, ran⟩ | ⟨index, other, stops, _, ran⟩
  · rw [ran] at raised
    exact nomatch congrArg Prod.fst raised
  · rw [ran] at raised
    obtain ⟨same, rfl⟩ := Prod.mk.inj raised
    obtain rfl := Except.error.inj same
    exact ⟨index, stops, rfl, rfl⟩

end Steps

end IdeModules
