import IdeModules.Proofs.Disk
import IdeModules.Run

/-!
# Steps of runs

What a step of a run gives is told step by step: a run of two steps ends with a
value if the first one does and the second one does from there.
-/

namespace IdeModules

/-- A step that is taken in a world ends with a value, in another world. -/
def Gives (step : Run α) (world : World) (value : α) (after : World) : Prop :=
  step.run world = (.ok value, after)

section Steps

variable {α β : Type} {world after : World}

theorem gives_bind_iff {step : Run α} {next : α → Run β} {value : β} :
    Gives (step >>= next) world value after ↔
      ∃ found middle, Gives step world found middle ∧ Gives (next found) middle value after := by
  have whole : (step >>= next).run world =
      match step.run world with
      | (result, middle) => ExceptT.bindCont next result middle := rfl
  rcases stepped : step.run world with ⟨result, middle⟩
  rw [Gives, whole, stepped]
  constructor
  · intro done
    cases result with
    | ok found => exact ⟨found, middle, stepped, done⟩
    | error failure => exact absurd (congrArg Prod.fst done) nofun
  · rintro ⟨found, other, first, rest⟩
    obtain ⟨isFound, rfl⟩ := Prod.mk.inj (stepped.symm.trans first)
    rw [isFound]
    exact rest

theorem gives_pure_iff {given value : α} :
    Gives (pure given : Run α) world value after ↔ value = given ∧ after = world := by
  constructor
  · intro done
    obtain ⟨same, unchanged⟩ := Prod.mk.inj done
    exact ⟨(Except.ok.inj same).symm, unchanged.symm⟩
  · rintro ⟨rfl, rfl⟩
    rfl

theorem gives_get_iff {found : World} :
    Gives (get : Run World) world found after ↔ found = world ∧ after = world := by
  constructor
  · intro done
    obtain ⟨same, unchanged⟩ := Prod.mk.inj done
    exact ⟨(Except.ok.inj same).symm, unchanged.symm⟩
  · rintro ⟨rfl, rfl⟩
    rfl

theorem gives_modify_iff {change : World → World} {value : Unit} :
    Gives (modify change : Run Unit) world value after ↔ after = change world := by
  constructor
  · exact fun done => (Prod.mk.inj done).2.symm
  · rintro rfl
    rfl

theorem gives_ofResult_iff {result : Except Error α} {value : α} :
    Gives (Run.ofResult result) world value after ↔ result = .ok value ∧ after = world := by
  constructor
  · intro done
    obtain ⟨same, unchanged⟩ := Prod.mk.inj done
    exact ⟨same, unchanged.symm⟩
  · rintro ⟨rfl, rfl⟩
    rfl

/-- Without callbacks a value stays as it is. -/
theorem gives_callBack_nil_iff {owner : String} {phase : HookPhase} {given value : α} :
    Gives (Run.callBack owner phase [] given) world value after ↔
      value = given ∧ after = world := by
  have noted : Run.noteCalls owner (callsOf phase 0) = modify id := by
    have unchanged : (fun world : World => { world with
        calls := world.calls ++ (callsOf phase 0).map (owner, ·) }) = id := by
      funext world
      simp [callsOf]
    rw [Run.noteCalls, unchanged]
  have whole : Run.callBack owner phase [] given =
      Run.noteCalls owner (callsOf phase 0) >>= fun _ => Run.ofResult (.ok given) := rfl
  rw [whole, noted, gives_bind_iff]
  simp only [gives_modify_iff, gives_ofResult_iff, Except.ok.injEq]
  constructor
  · rintro ⟨_, middle, rfl, same, rfl⟩
    exact ⟨same.symm, rfl⟩
  · rintro ⟨rfl, rfl⟩
    exact ⟨(), after, rfl, rfl, rfl⟩

theorem replaceFileOn_plain (path : Path) (content : String) :
    Run.replaceFileOn (.plain false) path content = get >>= fun found => modify (fun world =>
      { world with files := (found.files.replace false path content).1 }) >>= fun _ =>
        Run.ofResult (found.files.replace false path content).2 := by
  have whole : Run.replaceFileOn (.plain false) path content = get >>= fun found =>
      modify (fun world =>
        { world with files := (found.files.replaceThrough (.plain false) path content).1 }) >>=
          fun _ => Run.ofResult (found.files.replaceThrough (.plain false) path content).2 := rfl
  simp only [whole, FileTree.replaceThrough_plain]

theorem gives_replaceFileOn_iff {path : Path} {content : String} {value : Unit} :
    Gives (Run.replaceFileOn (.plain false) path content) world value after ↔
      ∃ files, world.files.replace false path content = (files, .ok ()) ∧
        after = { world with files := files } := by
  rw [replaceFileOn_plain]
  simp only [gives_bind_iff, gives_get_iff, gives_modify_iff, gives_ofResult_iff]
  constructor
  · rintro ⟨_, _, ⟨rfl, rfl⟩, _, middle, rfl, succeeded, rfl⟩
    exact ⟨_, Prod.ext rfl succeeded, rfl⟩
  · rintro ⟨files, replaced, rfl⟩
    exact ⟨world, world, ⟨rfl, rfl⟩, (), _, rfl, by rw [replaced], by rw [replaced]⟩

/-! ## Steps that leave the files -/

/-- A step always ends with a value, and does not touch the files. -/
def IsHarmless (step : Run α) : Prop :=
  ∀ world, ∃ value after, Gives step world value after ∧ after.files = world.files

theorem IsHarmless.files_eq {step : Run α} (harmless : IsHarmless step) {value : α}
    (done : Gives step world value after) : after.files = world.files := by
  obtain ⟨other, reached, given, unchanged⟩ := harmless world
  have same : reached = after := congrArg Prod.snd (given.symm.trans done)
  rw [← same, unchanged]

theorem isHarmless_reportLine (line : String) : IsHarmless (Run.reportLine line) := by
  intro world
  exact ⟨(), _, gives_modify_iff.mpr rfl, rfl⟩

theorem isHarmless_runTask (task : Json.Value) : IsHarmless (Run.runTask task) := by
  intro world
  exact ⟨(), _, gives_modify_iff.mpr rfl, rfl⟩

theorem isHarmless_forM {items : List α} {step : α → Run Unit}
    (each : ∀ item ∈ items, IsHarmless (step item)) : IsHarmless (items.forM step) := by
  induction items with
  | nil =>
      intro world
      exact ⟨(), world, gives_pure_iff.mpr ⟨rfl, rfl⟩, rfl⟩
  | cons item rest ih =>
      intro world
      obtain ⟨_, middle, first, unchanged⟩ := each item List.mem_cons_self world
      obtain ⟨value, after, others, same⟩ :=
        ih (fun other member => each other (List.mem_cons_of_mem _ member)) middle
      refine ⟨value, after, gives_bind_iff.mpr ⟨_, middle, first, others⟩, ?_⟩
      rw [same, unchanged]

end Steps

end IdeModules
