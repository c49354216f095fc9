import IdeModules.Proofs.FeedOrder

/-!
# Declared and undeclared entries

Entries are ordered by the first places of their declarations, and those of one
declaration keep the order in which they are supplied.  An entry without a known
declaration takes the place whose number is that of the different declarations.
Where no declaration is repeated, this is behind all of them; behind repeated
ones a declaration may have the same place, or a later one.
-/

namespace IdeModules

variable {declared : List Json.Key} {supplied ordered : List Entry}

/-- The first place of the declaration of an entry, if it is among those declared. -/
def firstPlace? (declared : List Json.Key) (entry : Entry) : Option Nat :=
  entry.declaredBy.key?.bind fun key =>
    if key ∈ declared then some (declared.idxOf key) else none

/-- Whether no entry with a known declaration stands behind one without. -/
def DeclaredFirst (declared : List Json.Key) (ordered : List Entry) : Prop :=
  ordered.Pairwise fun first second =>
    firstPlace? declared first = none → firstPlace? declared second = none

instance : Decidable (DeclaredFirst declared ordered) :=
  inferInstanceAs (Decidable (ordered.Pairwise fun first second =>
    firstPlace? declared first = none → firstPlace? declared second = none))

/-- Whether entries are those supplied, in the order of their declarations.  The undeclared
ones stand behind as many places as there are different declarations. -/
structure FollowsDeclarations (declared : List Json.Key) (supplied ordered : List Entry) :
    Prop where
  perm : ordered.Perm supplied
  places : ordered.Pairwise fun first second =>
    ∀ place later, firstPlace? declared first = some place →
      firstPlace? declared second = some later → place ≤ later
  ofDeclaration : ∀ key, ordered.filter (fun entry => entry.declaredBy.key? = some key) =
    supplied.filter fun entry => entry.declaredBy.key? = some key
  undeclared : ordered.filter (fun entry => firstPlace? declared entry = none) =
    supplied.filter fun entry => firstPlace? declared entry = none
  behindUndeclared : ordered.Pairwise fun first second =>
    firstPlace? declared first = none → ∀ place, firstPlace? declared second = some place →
      (distinct declared).length ≤ place
  beforeUndeclared : ordered.Pairwise fun first second =>
    firstPlace? declared second = none → ∀ place, firstPlace? declared first = some place →
      place ≤ (distinct declared).length
  besideUndeclared :
    ordered.filter (fun entry => (firstPlace? declared entry).getD (distinct declared).length =
        (distinct declared).length) =
      supplied.filter fun entry => (firstPlace? declared entry).getD (distinct declared).length =
        (distinct declared).length

/-! ## Places -/

/-- The place of an entry is that of its declaration, or the one of all undeclared entries. -/
theorem placeOf_eq {entry : Entry} (keyed : entry.declaredBy.key?.isSome = true) :
    placeOf declared entry = (firstPlace? declared entry).getD (distinct declared).length := by
  obtain ⟨key, isKey⟩ := Option.isSome_iff_exists.mp keyed
  rw [placeOf, firstPlace?, isKey, Option.map_some, Option.getD_some, Option.bind_some, rankOf]
  split <;> rfl

/-- Where no declaration is repeated, all of them stand before the place of undeclared entries. -/
theorem firstPlace?_lt_of_nodup (nodup : declared.Nodup) {entry : Entry} {place : Nat}
    (isPlace : firstPlace? declared entry = some place) : place < (distinct declared).length := by
  obtain ⟨key, _, known⟩ := Option.bind_eq_some_iff.mp isPlace
  split at known
  · rename_i isDeclared
    rw [distinct_of_nodup nodup, ← Option.some.inj known]
    exact List.idxOf_lt_length_of_mem isDeclared
  · simp at known

theorem sortByRank_of_sorted {α : Type} {rank : α → Nat} {items : List α}
    (sorted : items.Pairwise fun first second => rank first ≤ rank second) :
    sortByRank rank items = items :=
  eq_of_sorted_of_filter (sorted_sortByRank rank items) sorted (filter_sortByRank rank items)

theorem filter_sortByRank_of_rank {α : Type} {rank : α → Nat} {items : List α} {keep : α → Bool}
    (place : Nat) (onePlace : ∀ item ∈ items, keep item = true → rank item = place) :
    (sortByRank rank items).filter keep = items.filter keep := by
  have within : ∀ list : List α, (∀ item ∈ list, item ∈ items) →
      list.filter keep = (list.filter (rank · = place)).filter keep := by
    intro list known
    rw [List.filter_filter]
    apply List.filter_congr
    intro item member
    cases kept : keep item with
    | false => rfl
    | true => simp [onePlace item (known item member) kept]
  rw [within (sortByRank rank items) fun item => (perm_sortByRank rank items).mem_iff.mp,
    filter_sortByRank, ← within items fun _ => id]

/-- Entries that are sorted by their places follow their declarations. -/
theorem followsDeclarations_sortByRank (declared : List Json.Key)
    (keyed : ∀ entry ∈ supplied, entry.declaredBy.key?.isSome = true) :
    FollowsDeclarations declared supplied (sortByRank (placeOf declared) supplied) := by
  have perm := perm_sortByRank (placeOf declared) supplied
  have places : ∀ entry ∈ sortByRank (placeOf declared) supplied, placeOf declared entry =
      (firstPlace? declared entry).getD (distinct declared).length := fun entry member =>
    placeOf_eq (keyed entry (perm.mem_iff.mp member))
  have sorted := (sorted_sortByRank (placeOf declared) supplied).imp_of_mem
    fun first second inOrder => by
      rwa [places _ first, places _ second] at inOrder
  constructor
  · exact perm
  · apply sorted.imp
    intro _ _ inOrder place later isPlace isLater
    rwa [isPlace, isLater] at inOrder
  · intro key
    apply filter_sortByRank_of_rank (rankOf declared key)
    intro entry _ ofKey
    rw [placeOf, of_decide_eq_true ofKey]
    rfl
  · apply filter_sortByRank_of_rank (distinct declared).length
    intro entry member isUndeclared
    rw [placeOf_eq (keyed entry member), of_decide_eq_true isUndeclared]
    rfl
  · apply sorted.imp
    intro _ _ inOrder isUndeclared place isPlace
    rwa [isUndeclared, isPlace] at inOrder
  · apply sorted.imp
    intro _ _ inOrder isUndeclared place isPlace
    rwa [isUndeclared, isPlace] at inOrder
  · apply filter_sortByRank_of_rank (distinct declared).length
    intro entry member isBeside
    rw [placeOf_eq (keyed entry member)]
    exact of_decide_eq_true isBeside

/-- Declarations that stand before the place of undeclared entries come first. -/
theorem FollowsDeclarations.declaredFirst (follows : FollowsDeclarations declared supplied ordered)
    (early : ∀ entry ∈ supplied, ∀ place, firstPlace? declared entry = some place →
      place < (distinct declared).length) : DeclaredFirst declared ordered := by
  apply follows.behindUndeclared.imp_of_mem
  intro _ _ _ second behind isUndeclared
  apply Option.eq_none_iff_forall_ne_some.mpr
  intro place isPlace
  have late := behind isUndeclared place isPlace
  have notLate := early _ (follows.perm.mem_iff.mp second) place isPlace
  exact Nat.not_lt.mpr late notLate

/-! ## The entries of a configuration -/

/-- The entries of a configuration follow their declarations.  Those without a known one come
last if no declaration of an entry stands behind as many places as there are different
declarations; so they do if no declaration is repeated. -/
theorem entries_follow_declarations {configuration : Configuration}
    (declaredKeyed : ∀ value ∈ configuration.declared, value.key?.isSome = true)
    (entriesKeyed : ∀ entry ∈ configuration.entries, entry.declaredBy.key?.isSome = true) :
    ∃ declared ordered, keysOf configuration.declared = .ok declared ∧
      configuration.declarationOrder = .ok ordered ∧
      FollowsDeclarations declared configuration.entries ordered ∧
      ((∀ entry ∈ configuration.entries, ∀ place, firstPlace? declared entry = some place →
        place < (distinct declared).length) → DeclaredFirst declared ordered) ∧
      (declared.Nodup → DeclaredFirst declared ordered) := by
  obtain ⟨declared, keys⟩ := keysOf_total declaredKeyed
  have allKeyed : areKeyed configuration.entries = true := List.all_eq_true.mpr entriesKeyed
  have follows := followsDeclarations_sortByRank declared entriesKeyed
  refine ⟨declared, _, keys, by rw [declarationOrder_eq keys, if_pos allKeyed], follows,
    follows.declaredFirst, fun nodup => follows.declaredFirst ?_⟩
  exact fun _ _ _ => firstPlace?_lt_of_nodup nodup

/-! ## Repeated declarations -/

/-- A configuration with an artifact without declaration, and another one that it extends and
that declares an artifact. -/
def layeredConfigurations (own inherited : List String) : Configurations :=
  [("test", { Configuration.empty "test" with
      extendsFrom := [.str "main"], declared := own.map .str,
      artifacts := [plainArtifact "/loose.jar"] }),
    ("main", { Configuration.empty "main" with
      declared := inherited.map .str,
      artifacts := [ModuleSettings.suppliedArtifact "/b.jar" "b"] })]

/-- What the first one of these configurations is flattened to. -/
def layeredConfiguration (own inherited : List String) : Configuration :=
  { Configuration.empty "test" with
    extendsFrom := [.str "main"], declared := (own ++ inherited).map .str,
    artifacts := [plainArtifact "/loose.jar", ModuleSettings.suppliedArtifact "/b.jar" "b"] }

theorem flatten_layered (own inherited : List String) : ∃ flat,
    flatten (layeredConfigurations own inherited) = .ok flat ∧
      Keyed.get? "test" flat = some (layeredConfiguration own inherited) := by
  have reached : reachedNames [("test", ["main"]), ("main", [])] "test" = ["test", "main"] := by
    decide
  refine ⟨_, rfl, ?_⟩
  simp [layeredConfigurations, layeredConfiguration, Keyed.get?, reached, Configuration.gather,
    namesIn, Configuration.empty]

/-- A declaration that is repeated by an extended configuration does no harm to one at an early
place. -/
theorem layered_entries_follow_declarations : ∃ flat configuration ordered,
    flatten (layeredConfigurations ["b"] ["a", "b"]) = .ok flat ∧
      Keyed.get? "test" flat = some configuration ∧
      configuration.declarationOrder = .ok ordered ∧
      FollowsDeclarations [.str "b", .str "a", .str "b"] configuration.entries ordered ∧
      DeclaredFirst [.str "b", .str "a", .str "b"] ordered := by
  obtain ⟨flat, flattened, found⟩ := flatten_layered ["b"] ["a", "b"]
  have declaredKeyed : ∀ value ∈ (layeredConfiguration ["b"] ["a", "b"]).declared,
      value.key?.isSome = true := by decide
  have entriesKeyed : ∀ entry ∈ (layeredConfiguration ["b"] ["a", "b"]).entries,
      entry.declaredBy.key?.isSome = true := by decide
  obtain ⟨declared, ordered, keys, made, follows, first, _⟩ :=
    entries_follow_declarations declaredKeyed entriesKeyed
  obtain rfl : [.str "b", .str "a", .str "b"] = declared := Except.ok.inj keys
  refine ⟨flat, _, ordered, flattened, found, made, follows, first ?_⟩
  decide

/-- Where a declaration is repeated, one behind it takes the place of undeclared entries: an
artifact without declaration that is supplied first stands before the declared one. -/
theorem repeated_declaration_delays_declared : ∃ flat configuration ordered,
    flatten (layeredConfigurations ["a"] ["a", "b"]) = .ok flat ∧
      Keyed.get? "test" flat = some configuration ∧
      keysOf configuration.declared = .ok [.str "a", .str "a", .str "b"] ∧
      configuration.declarationOrder = .ok ordered ∧
      ordered = [.artifact (plainArtifact "/loose.jar"),
        .artifact (ModuleSettings.suppliedArtifact "/b.jar" "b")] ∧
      ¬DeclaredFirst [.str "a", .str "a", .str "b"] ordered := by
  obtain ⟨flat, flattened, found⟩ := flatten_layered ["a"] ["a", "b"]
  have keys : keysOf (layeredConfiguration ["a"] ["a", "b"]).declared =
      .ok [.str "a", .str "a", .str "b"] := rfl
  have sorted : sortByRank (placeOf [.str "a", .str "a", .str "b"])
      (layeredConfiguration ["a"] ["a", "b"]).entries = _ := sortByRank_of_sorted (by decide)
  refine ⟨flat, _, _, flattened, found, keys, ?_, rfl, by decide⟩
  rw [declarationOrder_eq keys, if_pos (by decide), sorted]
  rfl

end IdeModules
