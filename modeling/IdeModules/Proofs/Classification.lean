import IdeModules.Scope

/-!
# Which scope holds an identity

Classification is specified by three rules.  A scope holds what it reaches and
no earlier scope reaches; `TEST` also holds what `RUNTIME` holds by that rule
and tests, but not the module itself, are compiled with; and `RUNTIME` and
`TEST` hold what the shared scope reaches.  The walk over the scopes carries
the identities that are claimed already, which are those that some scope
before reaches.
-/

namespace IdeModules

/-- Some entry of a known configuration among the names has the identity. -/
def HasEntry (configurations : Configurations) (names : List String) (identity : String) :
    Prop :=
  ∃ name ∈ names, ∃ configuration, Keyed.get? name configurations = some configuration ∧
    ∃ entry ∈ configuration.entries, entry.identity = identity

/-- The rules of a scope reach an identity. -/
def Reaches (scopes : Scopes) (configurations : Configurations) (scope identity : String) :
    Prop :=
  ∃ rules, Keyed.get? scope scopes.entries = some rules ∧
    HasEntry configurations rules.plus identity ∧ ¬HasEntry configurations rules.minus identity

/-- A scope is the first one of an order that reaches an identity. -/
def ReachesFirst (scopes : Scopes) (configurations : Configurations) (order : List String)
    (scope identity : String) : Prop :=
  ∃ earlier later, order = earlier ++ scope :: later ∧
    Reaches scopes configurations scope identity ∧
    ∀ other ∈ earlier, ¬Reaches scopes configurations other identity

/-- Tests, but not the module itself, are compiled with an identity that `RUNTIME` is the first
scope to reach. -/
def AddedToTests (scopes : Scopes) (configurations : Configurations) (order : List String)
    (scope identity : String) : Prop :=
  scope = "TEST" ∧ ReachesFirst scopes configurations order "RUNTIME" identity ∧
    HasEntry configurations ["testCompile"] identity ∧
    ¬HasEntry configurations ["compile"] identity

/-- The shared scope reaches an identity, which goes to `RUNTIME` and `TEST`. -/
def SharedWith (scopes : Scopes) (configurations : Configurations) (scope identity : String) :
    Prop :=
  (scope = "RUNTIME" ∨ scope = "TEST") ∧ Reaches scopes configurations sharedScope identity

/-- A scope of a classification holds an identity. -/
def Holds (classified : Keyed String ClassifiedScope) (scope identity : String) : Prop :=
  ∃ found, Keyed.get? scope classified = some found ∧ identity ∈ found.identities

/-- The scopes that hold entries: the built-in ones, then the custom ones as declared. -/
def declaredOrder (customizations : Keyed String ScopeCustomization) : List String :=
  builtInScopes ++ distinct ((Keyed.keys customizations).filter fun name =>
    name ∉ builtInScopes ∧ name ≠ sharedScope)

/-- No reference of a customization has parts. -/
def ReferencesWithoutParts (customizations : Keyed String ScopeCustomization) : Prop :=
  ∀ entry ∈ customizations, ∀ reference ∈ entry.2.plus ++ entry.2.minus,
    reference.key?.isSome = true

instance (customizations : Keyed String ScopeCustomization) :
    Decidable (ReferencesWithoutParts customizations) :=
  inferInstanceAs (Decidable (∀ entry ∈ customizations, _))

/-! ## The rules of scopes -/

theorem keysOf_total {references : List Json.Value}
    (keyed : ∀ reference ∈ references, reference.key?.isSome = true) :
    ∃ keys, keysOf references = .ok keys := by
  induction references with
  | nil => exact ⟨[], rfl⟩
  | cons reference rest ih =>
      obtain ⟨key, found⟩ := Option.isSome_iff_exists.mp (keyed reference (by simp))
      obtain ⟨keys, others⟩ := ih fun other member =>
        keyed other (List.mem_cons_of_mem _ member)
      have first : keyOf reference = .ok key := by simp [keyOf, found]
      exact ⟨key :: keys, by rw [keysOf, first, others]; rfl⟩

private theorem referencedNames_total (references : List Json.Value)
    (keyed : ∀ reference ∈ references, reference.key?.isSome = true) :
    ∃ names, referencedNames references = .ok names := by
  obtain ⟨keys, found⟩ := keysOf_total keyed
  exact ⟨_, by rw [referencedNames, found]; rfl⟩

private theorem extend_total (rules : ScopeRules) {custom : ScopeCustomization}
    (keyed : ∀ reference ∈ custom.plus ++ custom.minus, reference.key?.isSome = true) :
    ∃ extended, rules.extend custom = .ok extended := by
  obtain ⟨plus, plusFound⟩ := referencedNames_total custom.plus
    fun reference member => keyed reference (by simp [member])
  obtain ⟨minus, minusFound⟩ := referencedNames_total custom.minus
    fun reference member => keyed reference (by simp [member])
  exact ⟨_, by rw [ScopeRules.extend, plusFound, minusFound]; rfl⟩

/-- Customizations without parts give rules, whose scopes are the old ones and then the new ones
as declared. -/
theorem customize_total (scopes : Scopes) {customizations : Keyed String ScopeCustomization}
    (simple : ReferencesWithoutParts customizations) :
    ∃ customized, customize scopes customizations = .ok customized ∧
      Keyed.keys customized.entries =
        (Keyed.keys customizations).foldl pushNew (Keyed.keys scopes.entries) := by
  induction customizations generalizing scopes with
  | nil => exact ⟨scopes, rfl, rfl⟩
  | cons entry rest ih =>
      obtain ⟨name, custom⟩ := entry
      have isSimple := simple (name, custom) List.mem_cons_self
      obtain ⟨rules, extended⟩ :=
        extend_total ((Keyed.get? name scopes.entries).getD ⟨[], []⟩) isSimple
      obtain ⟨customized, done, keys⟩ := ih (scopes.put name rules)
        fun other member => simple other (List.mem_cons_of_mem _ member)
      refine ⟨customized, ?_, ?_⟩
      · rw [customize, extended]
        exact done
      · rw [keys, Mapping.put, Keyed.keys_put]
        rfl

theorem scopeOrder_eq_declaredOrder {customizations : Keyed String ScopeCustomization}
    {scopes : Scopes}
    (keys : Keyed.keys scopes.entries =
      (Keyed.keys customizations).foldl pushNew (Keyed.keys standardScopes.entries)) :
    scopeOrder scopes = declaredOrder customizations := by
  have standard : Keyed.keys standardScopes.entries = builtInScopes := rfl
  rw [scopeOrder, declaredOrder, keys, foldl_pushNew, standard, List.filter_append,
    List.filter_filter, ← filter_distinct]
  have noneBuiltIn : builtInScopes.filter
      (fun name => decide (name ∉ builtInScopes ∧ name ≠ sharedScope)) = [] :=
    List.filter_eq_nil_iff.mpr fun name member => by simp [member]
  rw [noneBuiltIn, List.nil_append]
  congr 1
  refine List.filter_congr ?_
  intro name _
  by_cases builtIn : name ∈ builtInScopes <;> simp [builtIn]

/-! ## Reaching -/

theorem mem_identitiesIn_iff {configurations : Configurations} {names : List String}
    {identity : String} :
    identity ∈ identitiesIn configurations names ↔ HasEntry configurations names identity := by
  rw [identitiesIn, List.mem_flatMap]
  apply exists_congr
  intro name
  apply and_congr_right
  intro _
  unfold identitiesOf
  cases Keyed.get? name configurations with
  | none => simp
  | some configuration => simp

theorem mem_identitiesOf_iff {configurations : Configurations} {name identity : String} :
    identity ∈ identitiesOf configurations name ↔
      HasEntry configurations [name] identity := by
  rw [← mem_identitiesIn_iff]
  simp [identitiesIn]

theorem mem_reach_iff {rules : ScopeRules} {configurations : Configurations}
    {identity : String} :
    identity ∈ rules.reach configurations ↔
      HasEntry configurations rules.plus identity ∧
        ¬HasEntry configurations rules.minus identity := by
  simp [ScopeRules.reach, mem_identitiesIn_iff]

theorem reaches_iff {scopes : Scopes} {configurations : Configurations}
    {scope identity : String} {rules : ScopeRules}
    (found : Keyed.get? scope scopes.entries = some rules) :
    Reaches scopes configurations scope identity ↔ identity ∈ rules.reach configurations := by
  simp [Reaches, found, mem_reach_iff]

theorem not_reaches_of_unknown {scopes : Scopes} {configurations : Configurations}
    {scope identity : String} (unknown : Keyed.get? scope scopes.entries = none) :
    ¬Reaches scopes configurations scope identity := by
  simp [Reaches, unknown]

instance (configurations : Configurations) (names : List String) (identity : String) :
    Decidable (HasEntry configurations names identity) :=
  decidable_of_iff _ mem_identitiesIn_iff

instance (scopes : Scopes) (configurations : Configurations) (scope identity : String) :
    Decidable (Reaches scopes configurations scope identity) :=
  match found : Keyed.get? scope scopes.entries with
  | none => .isFalse (not_reaches_of_unknown found)
  | some _ => decidable_of_iff _ (reaches_iff found).symm

instance (scopes : Scopes) (configurations : Configurations) (order : List String)
    (scope identity : String) :
    Decidable (ReachesFirst scopes configurations order scope identity) :=
  decidable_of_iff
    (order.find? (fun name => decide (Reaches scopes configurations name identity)) =
      some scope) (by
    rw [List.find?_eq_some_iff_append]
    simp only [ReachesFirst, decide_eq_true_eq, Bool.not_eq_true', decide_eq_false_iff_not,
      ← exists_and_left]
    exact exists_congr fun _ => exists_congr fun _ => and_left_comm)

instance (scopes : Scopes) (configurations : Configurations) (order : List String)
    (scope identity : String) :
    Decidable (AddedToTests scopes configurations order scope identity) :=
  inferInstanceAs (Decidable (_ ∧ _))

instance (scopes : Scopes) (configurations : Configurations) (scope identity : String) :
    Decidable (SharedWith scopes configurations scope identity) :=
  inferInstanceAs (Decidable (_ ∧ _))

/-- The first scope of an order that reaches an identity is its head, or the head does not reach
the identity and it is the first one of the rest. -/
theorem reachesFirst_cons_iff {scopes : Scopes} {configurations : Configurations}
    {head scope identity : String} {rest : List String} :
    ReachesFirst scopes configurations (head :: rest) scope identity ↔
      (scope = head ∧ Reaches scopes configurations head identity) ∨
        (¬Reaches scopes configurations head identity ∧
          ReachesFirst scopes configurations rest scope identity) := by
  constructor
  · rintro ⟨earlier, later, split, reached, unreached⟩
    cases earlier with
    | nil =>
        obtain ⟨rfl, rfl⟩ := List.cons.inj split
        exact .inl ⟨rfl, reached⟩
    | cons first earlier =>
        obtain ⟨rfl, rfl⟩ := List.cons.inj split
        exact .inr ⟨unreached head (by simp), earlier, later, rfl, reached,
          fun other member => unreached other (List.mem_cons_of_mem _ member)⟩
  · rintro (⟨rfl, reached⟩ | ⟨unreachedHead, earlier, later, rfl, reached, unreached⟩)
    · exact ⟨[], rest, rfl, reached, by simp⟩
    · refine ⟨head :: earlier, later, rfl, reached, ?_⟩
      intro other member
      rcases List.mem_cons.mp member with rfl | inEarlier
      · exact unreachedHead
      · exact unreached other inEarlier

theorem ReachesFirst.unique {scopes : Scopes} {configurations : Configurations}
    {order : List String} {left right identity : String}
    (leftFirst : ReachesFirst scopes configurations order left identity)
    (rightFirst : ReachesFirst scopes configurations order right identity) : left = right := by
  induction order with
  | nil =>
      obtain ⟨earlier, later, split, _⟩ := leftFirst
      simp at split
  | cons head rest ih =>
      rcases reachesFirst_cons_iff.mp leftFirst with ⟨rfl, reached⟩ | ⟨unreached, leftRest⟩
      · rcases reachesFirst_cons_iff.mp rightFirst with ⟨rfl, _⟩ | ⟨unreached, _⟩
        · rfl
        · exact absurd reached unreached
      · rcases reachesFirst_cons_iff.mp rightFirst with ⟨rfl, reached⟩ | ⟨_, rightRest⟩
        · exact absurd reached unreached
        · exact ih leftRest rightRest

theorem exists_reachesFirst {scopes : Scopes} {configurations : Configurations}
    {order : List String} {scope identity : String} (member : scope ∈ order)
    (reached : Reaches scopes configurations scope identity) :
    ∃ first ∈ order, ReachesFirst scopes configurations order first identity := by
  induction order with
  | nil => simp at member
  | cons head rest ih =>
      by_cases reachedHead : Reaches scopes configurations head identity
      · exact ⟨head, by simp, reachesFirst_cons_iff.mpr (.inl ⟨rfl, reachedHead⟩)⟩
      · have inRest : scope ∈ rest := by
          rcases List.mem_cons.mp member with rfl | inRest
          · exact absurd reached reachedHead
          · exact inRest
        obtain ⟨first, firstMember, found⟩ := ih inRest
        exact ⟨first, List.mem_cons_of_mem _ firstMember,
          reachesFirst_cons_iff.mpr (.inr ⟨reachedHead, found⟩)⟩

/-! ## Claiming -/

theorem holds_cons_iff {name scope identity : String} {found : ClassifiedScope}
    {rest : Keyed String ClassifiedScope} :
    Holds ((name, found) :: rest) scope identity ↔
      if name = scope then identity ∈ found.identities else Holds rest scope identity := by
  by_cases same : name = scope <;> simp [Holds, Keyed.get?, same]

theorem keys_claimScopes (scopes : Scopes) (configurations : Configurations)
    (claimed order : List String) :
    Keyed.keys (claimScopes scopes configurations claimed order) = order := by
  induction order generalizing claimed with
  | nil => rfl
  | cons name rest ih =>
      rw [claimScopes]
      cases Keyed.get? name scopes.entries with
      | none => exact congrArg (List.cons name) (ih claimed)
      | some rules => exact congrArg (List.cons name) (ih _)

theorem ReachesFirst.reaches {scopes : Scopes} {configurations : Configurations}
    {order : List String} {scope identity : String}
    (first : ReachesFirst scopes configurations order scope identity) :
    Reaches scopes configurations scope identity := by
  obtain ⟨_, _, _, reached, _⟩ := first
  exact reached

/-- What has been claimed before the walk is out of reach for it; of the rest, a scope of the walk
holds what it is the first one to reach. -/
theorem holds_claimScopes_iff (scopes : Scopes) (configurations : Configurations)
    (claimed order : List String) (scope identity : String) :
    Holds (claimScopes scopes configurations claimed order) scope identity ↔
      identity ∉ claimed ∧ ReachesFirst scopes configurations order scope identity := by
  induction order generalizing claimed with
  | nil => simp [claimScopes, Holds, Keyed.get?, ReachesFirst]
  | cons name rest ih =>
      rw [claimScopes, reachesFirst_cons_iff]
      cases found : Keyed.get? name scopes.entries with
      | none =>
          have unreached : ¬Reaches scopes configurations name identity :=
            not_reaches_of_unknown found
          rw [holds_cons_iff, ih]
          by_cases same : name = scope
          · subst same
            have neverFirst : ¬ReachesFirst scopes configurations rest name identity :=
              fun first => unreached first.reaches
            simp [unreached, neverFirst]
          · simp [same, unreached]
      | some rules =>
          have reachedIff : Reaches scopes configurations name identity ↔
              identity ∈ rules.reach configurations := reaches_iff found
          rw [holds_cons_iff, ih, reachedIff]
          by_cases same : name = scope
          · subst same
            simp only [if_pos, List.mem_filter, decide_eq_true_eq]
            constructor
            · rintro ⟨reached, unclaimed⟩
              exact ⟨unclaimed, .inl ⟨trivial, reached⟩⟩
            · rintro ⟨unclaimed, ⟨_, reached⟩ | ⟨unreached, first⟩⟩
              · exact ⟨reached, unclaimed⟩
              · exact absurd (reachedIff.mp first.reaches) unreached
          · simp only [if_neg same, List.mem_append, List.mem_filter, decide_eq_true_eq]
            constructor
            · rintro ⟨unclaimed, first⟩
              have fresh : identity ∉ claimed := fun old => unclaimed (.inl old)
              exact ⟨fresh, .inr ⟨fun reached => unclaimed (.inr ⟨reached, fresh⟩), first⟩⟩
            · rintro ⟨unclaimed, ⟨equal, _⟩ | ⟨unreached, first⟩⟩
              · exact absurd equal.symm same
              · refine ⟨?_, first⟩
                rintro (old | ⟨reached, _⟩)
                · exact unclaimed old
                · exact unreached reached

/-! ## Adding -/

theorem keys_addToScope (name : String) (identities sources : List String)
    (classified : Keyed String ClassifiedScope) :
    Keyed.keys (addToScope name identities sources classified) = Keyed.keys classified := by
  simp only [Keyed.keys, addToScope, List.map_map]
  refine List.map_congr_left ?_
  intro entry _
  by_cases same : entry.1 = name <;> simp [same]

theorem holds_addToScope_iff {name scope identity : String} {identities sources : List String}
    {classified : Keyed String ClassifiedScope} (known : name ∈ Keyed.keys classified) :
    Holds (addToScope name identities sources classified) scope identity ↔
      Holds classified scope identity ∨ (scope = name ∧ identity ∈ identities) := by
  let change : String → ClassifiedScope → ClassifiedScope := fun key found =>
    if key = name then found.add identities sources else found
  have changed : addToScope name identities sources classified =
      classified.map fun entry => (entry.1, change entry.1 entry.2) := by
    refine List.map_congr_left ?_
    intro entry _
    by_cases same : entry.1 = name <;> simp [change, same]
  rw [Holds, changed, Keyed.get?_map_values change]
  simp only [change]
  by_cases same : scope = name
  · subst same
    obtain ⟨found, lookup⟩ := Keyed.mem_keys_iff.mp known
    simp [Holds, lookup, ClassifiedScope.add]
  · simp [Holds, same]

theorem mem_testOverlap_iff {configurations : Configurations} {identity : String}
    {classified : Keyed String ClassifiedScope} :
    identity ∈ testOverlap configurations classified ↔
      Holds classified "RUNTIME" identity ∧
        HasEntry configurations ["testCompile"] identity ∧
        ¬HasEntry configurations ["compile"] identity := by
  unfold testOverlap Holds
  cases Keyed.get? "RUNTIME" classified with
  | none => simp
  | some runtime => simp [mem_identitiesOf_iff]

theorem keys_addTestOverlap (configurations : Configurations)
    (classified : Keyed String ClassifiedScope) :
    Keyed.keys (addTestOverlap configurations classified) = Keyed.keys classified := by
  unfold addTestOverlap
  by_cases nothing : (testOverlap configurations classified).isEmpty = true
  · simp [nothing]
  · simp [nothing, keys_addToScope]

theorem holds_addTestOverlap_iff {configurations : Configurations} {scope identity : String}
    {classified : Keyed String ClassifiedScope} (known : "TEST" ∈ Keyed.keys classified) :
    Holds (addTestOverlap configurations classified) scope identity ↔
      Holds classified scope identity ∨
        (scope = "TEST" ∧ identity ∈ testOverlap configurations classified) := by
  unfold addTestOverlap
  by_cases nothing : (testOverlap configurations classified).isEmpty = true
  · have empty := List.isEmpty_iff.mp nothing
    simp [empty]
  · simp only [nothing]
    exact holds_addToScope_iff known

theorem keys_addShared (scopes : Scopes) (configurations : Configurations)
    (classified : Keyed String ClassifiedScope) :
    Keyed.keys (addShared scopes configurations classified) = Keyed.keys classified := by
  unfold addShared
  cases Keyed.get? sharedScope scopes.entries with
  | none => rfl
  | some rules => simp [keys_addToScope]

theorem holds_addShared_iff {scopes : Scopes} {configurations : Configurations}
    {scope identity : String} {classified : Keyed String ClassifiedScope}
    (runtimeKnown : "RUNTIME" ∈ Keyed.keys classified)
    (testKnown : "TEST" ∈ Keyed.keys classified) :
    Holds (addShared scopes configurations classified) scope identity ↔
      Holds classified scope identity ∨ SharedWith scopes configurations scope identity := by
  unfold addShared SharedWith
  cases found : Keyed.get? sharedScope scopes.entries with
  | none => simp [not_reaches_of_unknown found]
  | some rules =>
      rw [holds_addToScope_iff (by rw [keys_addToScope]; exact testKnown),
        holds_addToScope_iff runtimeKnown, reaches_iff found]
      rw [or_and_right, or_assoc]

/-! ## Classification -/

theorem keys_classify (scopes : Scopes) (configurations : Configurations) :
    Keyed.keys (classify scopes configurations) = scopeOrder scopes := by
  rw [classify, keys_addShared, keys_addTestOverlap, keys_claimScopes]

theorem builtIn_mem_scopeOrder (scopes : Scopes) {name : String} (builtIn : name ∈ builtInScopes) :
    name ∈ scopeOrder scopes :=
  List.mem_append_left _ builtIn

theorem nodup_scopeOrder (scopes : Scopes) : (scopeOrder scopes).Nodup := by
  have builtIn : builtInScopes.Nodup := by decide
  refine List.nodup_append.mpr ⟨builtIn, scopes.nodup.filter _, ?_⟩
  rintro name known _ member rfl
  exact (of_decide_eq_true (List.mem_filter.mp member).2).1 known

theorem nodup_keys_classify (scopes : Scopes) (configurations : Configurations) :
    (Keyed.keys (classify scopes configurations)).Nodup := by
  rw [keys_classify]
  exact nodup_scopeOrder scopes

theorem mem_scopeOrder_of_reaches {scopes : Scopes} {configurations : Configurations}
    {scope identity : String} (reached : Reaches scopes configurations scope identity)
    (unshared : scope ≠ sharedScope) : scope ∈ scopeOrder scopes := by
  obtain ⟨rules, found, _⟩ := reached
  have known : scope ∈ Keyed.keys scopes.entries := Keyed.mem_keys_iff.mpr ⟨rules, found⟩
  by_cases builtIn : scope ∈ builtInScopes
  · exact builtIn_mem_scopeOrder scopes builtIn
  · exact List.mem_append_right _ (List.mem_filter.mpr ⟨known, by simp [builtIn, unshared]⟩)

/-- A scope holds an identity by one of the three rules. -/
theorem holds_classify_iff (scopes : Scopes) (configurations : Configurations)
    (scope identity : String) :
    Holds (classify scopes configurations) scope identity ↔
      ReachesFirst scopes configurations (scopeOrder scopes) scope identity ∨
        AddedToTests scopes configurations (scopeOrder scopes) scope identity ∨
        SharedWith scopes configurations scope identity := by
  have claimedKeys := keys_claimScopes scopes configurations [] (scopeOrder scopes)
  have testKnown : "TEST" ∈ scopeOrder scopes := builtIn_mem_scopeOrder scopes (by decide)
  have runtimeKnown : "RUNTIME" ∈ scopeOrder scopes := builtIn_mem_scopeOrder scopes (by decide)
  have firstIff := fun scope =>
    holds_claimScopes_iff scopes configurations [] (scopeOrder scopes) scope identity
  rw [classify, holds_addShared_iff (by rw [keys_addTestOverlap, claimedKeys]; exact runtimeKnown)
    (by rw [keys_addTestOverlap, claimedKeys]; exact testKnown),
    holds_addTestOverlap_iff (by rw [claimedKeys]; exact testKnown), mem_testOverlap_iff,
    firstIff, firstIff, or_assoc]
  simp [AddedToTests]

/-- Every identity is held by the scopes that the three rules give it to; so two scopes hold the
same identity only by one of the two additive rules, and whatever some scope reaches is held. -/
theorem classification_by_three_rules (customizations : Keyed String ScopeCustomization)
    (configurations : Configurations) (simple : ReferencesWithoutParts customizations) :
    ∃ scopes, scopesOf customizations = .ok scopes ∧
      Keyed.keys (classify scopes configurations) = declaredOrder customizations ∧
      (∀ scope identity, Holds (classify scopes configurations) scope identity ↔
        ReachesFirst scopes configurations (declaredOrder customizations) scope identity ∨
          AddedToTests scopes configurations (declaredOrder customizations) scope identity ∨
          SharedWith scopes configurations scope identity) ∧
      (∀ left right identity, left ≠ right →
        Holds (classify scopes configurations) left identity →
        Holds (classify scopes configurations) right identity →
        ∃ scope, (scope = left ∨ scope = right) ∧
          (AddedToTests scopes configurations (declaredOrder customizations) scope identity ∨
            SharedWith scopes configurations scope identity)) ∧
      (∀ scope identity, Reaches scopes configurations scope identity →
        ∃ holder, Holds (classify scopes configurations) holder identity) := by
  obtain ⟨scopes, customized, keys⟩ := customize_total standardScopes simple
  have order := scopeOrder_eq_declaredOrder keys
  have rules : ∀ scope identity, Holds (classify scopes configurations) scope identity ↔
      ReachesFirst scopes configurations (declaredOrder customizations) scope identity ∨
        AddedToTests scopes configurations (declaredOrder customizations) scope identity ∨
        SharedWith scopes configurations scope identity := by
    intro scope identity
    rw [← order]
    exact holds_classify_iff scopes configurations scope identity
  refine ⟨scopes, customized, by rw [keys_classify, order], rules, ?_, ?_⟩
  · intro left right identity different leftHolds rightHolds
    rcases (rules left identity).mp leftHolds with leftFirst | added
    · rcases (rules right identity).mp rightHolds with rightFirst | added
      · exact absurd (leftFirst.unique rightFirst) different
      · exact ⟨right, .inr rfl, added⟩
    · exact ⟨left, .inl rfl, added⟩
  · intro scope identity reached
    by_cases shared : scope = sharedScope
    · exact ⟨"TEST", (rules "TEST" identity).mpr
        (.inr (.inr ⟨.inr rfl, shared ▸ reached⟩))⟩
    · have served : scope ∈ declaredOrder customizations := by
        rw [← order]
        exact mem_scopeOrder_of_reaches reached shared
      obtain ⟨first, _, found⟩ := exists_reachesFirst served reached
      exact ⟨first, (rules first identity).mpr (.inl found)⟩

/-- An artifact in a file, of which nothing else is known. -/
def plainArtifact (file : String) : Artifact :=
  ⟨some (Path.ofText file), none, none, none, .null, none, none, .null⟩

/-- A configuration that holds nothing but the artifacts in some files. -/
def configurationOf (name : String) (files : List String) : String × Configuration :=
  (name, { Configuration.empty name with artifacts := files.map plainArtifact })

/-- Four configurations that overlap, under customizations that make a custom scope, share one
configuration and provide another. -/
def overlappingConfigurations : Configurations :=
  [configurationOf "compile" ["/a.jar"], configurationOf "runtime" ["/a.jar", "/b.jar"],
    configurationOf "testCompile" ["/b.jar", "/c.jar"], configurationOf "agents" ["/a.jar"]]

def overlappingCustomizations : Keyed String ScopeCustomization :=
  [("checks", ⟨[.str "testCompile"], []⟩), ("RUNTIME_TEST", ⟨[.str "agents"], []⟩),
    ("PROVIDED", ⟨[.str "compile", .str "unknown"], []⟩)]

def overlappingScopes : Scopes :=
  ⟨[("PROVIDED", ⟨["compile", "unknown"], []⟩), ("COMPILE", ⟨["compile"], []⟩),
    ("RUNTIME", ⟨["runtime"], ["compile"]⟩), ("TEST", ⟨["testRuntime"], ["runtime"]⟩),
    ("checks", ⟨["testCompile"], []⟩), ("RUNTIME_TEST", ⟨["agents"], []⟩)], by decide⟩

theorem classification_of_overlapping :
    ReferencesWithoutParts overlappingCustomizations ∧
      scopesOf overlappingCustomizations = .ok overlappingScopes ∧
      Keyed.keys (classify overlappingScopes overlappingConfigurations) =
        ["PROVIDED", "COMPILE", "RUNTIME", "TEST", "checks"] ∧
      Holds (classify overlappingScopes overlappingConfigurations) "PROVIDED" "/a.jar" ∧
      ¬Holds (classify overlappingScopes overlappingConfigurations) "COMPILE" "/a.jar" ∧
      Holds (classify overlappingScopes overlappingConfigurations) "RUNTIME" "/a.jar" ∧
      Holds (classify overlappingScopes overlappingConfigurations) "RUNTIME" "/b.jar" ∧
      Holds (classify overlappingScopes overlappingConfigurations) "TEST" "/b.jar" ∧
      Holds (classify overlappingScopes overlappingConfigurations) "checks" "/c.jar" := by
  have simple : ReferencesWithoutParts overlappingCustomizations := by decide
  have customizedTo : scopesOf overlappingCustomizations = .ok overlappingScopes := by rfl
  obtain ⟨scopes, customized, keys, rules, _⟩ := classification_by_three_rules
    overlappingCustomizations overlappingConfigurations simple
  obtain rfl : overlappingScopes = scopes := Except.ok.inj (customizedTo.symm.trans customized)
  refine ⟨simple, customizedTo, by rw [keys]; decide, ?_⟩
  refine ⟨(rules _ _).mpr (.inl ?_), ?_, (rules _ _).mpr (.inr (.inr ?_)),
    (rules _ _).mpr (.inl ?_), (rules _ _).mpr (.inr (.inl ?_)), (rules _ _).mpr (.inl ?_)⟩
  · decide
  · intro holds
    exact absurd ((rules _ _).mp holds) (by decide)
  · decide
  · decide
  · decide
  · decide

end IdeModules
