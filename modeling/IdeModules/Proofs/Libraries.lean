import IdeModules.Library
import IdeModules.Proofs.DeclarationOrder

/-!
# The libraries of classified scopes

Classifying gives each scope its identities and the configurations they come
from, as two separate lists.  Every identity of a scope has an entry in one of
those configurations, also after further identities have been added; so the walk
over them meets each identity, and the libraries of the scope are the first
entries that it meets.
-/

namespace IdeModules

/-! ## Walks -/

/-- The entries of known configurations in order, those of each in the order of declarations. -/
def walkEntries (configurations : Configurations) : List String → Except Error (List Entry)
  | [] => .ok []
  | name :: rest =>
    match configurations.get? name with
    | none => walkEntries configurations rest
    | some configuration => do
      let ordered ← configuration.declarationOrder
      let others ← walkEntries configurations rest
      pure (ordered ++ others)

/-- A walk meets the entries of the known configurations among its names. -/
theorem mem_walkEntries {configurations : Configurations} {names : List String}
    {walk : List Entry} (walked : walkEntries configurations names = .ok walk) {entry : Entry} :
    entry ∈ walk ↔ ∃ name ∈ names, ∃ configuration,
      Keyed.get? name configurations = some configuration ∧ entry ∈ configuration.entries := by
  induction names generalizing walk with
  | nil =>
      obtain rfl := Except.ok.inj walked
      simp
  | cons name rest ih =>
      rw [walkEntries] at walked
      simp only [List.mem_cons, or_and_right, exists_or, exists_eq_left]
      cases found : Keyed.get? name configurations with
      | none =>
          rw [found] at walked
          simpa using ih walked
      | some configuration =>
          rw [found] at walked
          obtain ⟨ordered, isOrdered, walked⟩ := except_bind_ok walked
          obtain ⟨others, othersWalked, walked⟩ := except_bind_ok walked
          obtain rfl := Except.ok.inj walked
          rw [List.mem_append, ih othersWalked,
            (perm_declarationOrder isOrdered).mem_iff]
          simp

theorem mem_walkEntries_iff {configurations : Configurations} {names : List String}
    {walk : List Entry} (walked : walkEntries configurations names = .ok walk)
    (identity : String) :
    (∃ entry ∈ walk, entry.identity = identity) ↔ HasEntry configurations names identity := by
  simp only [mem_walkEntries walked, HasEntry]
  constructor
  · rintro ⟨entry, ⟨name, member, configuration, found, isEntry⟩, same⟩
    exact ⟨name, member, configuration, found, entry, isEntry, same⟩
  · rintro ⟨name, member, configuration, found, entry, isEntry, same⟩
    exact ⟨entry, ⟨name, member, configuration, found, isEntry⟩, same⟩

/-! ## First entries -/

/-- Entries that are chosen on a walk for what is wanted: each is the first one of its identity,
they keep their order, and no identity is left out or repeated. -/
structure FirstEntries (wanted : List String) (walk chosen : List Entry) : Prop where
  order : chosen.Sublist walk
  first : ∀ entry ∈ chosen, walk.find? (·.identity = entry.identity) = some entry
  nodup : (chosen.map Entry.identity).Nodup
  identities : ∀ identity, identity ∈ chosen.map Entry.identity ↔ identity ∈ wanted

section Fresh

variable {wanted seen : List String}

theorem mem_identities_freshEntries {walk : List Entry} {identity : String} :
    identity ∈ (freshEntries wanted seen walk).map Entry.identity ↔
      (∃ entry ∈ walk, entry.identity = identity) ∧ identity ∈ wanted ∧ identity ∉ seen := by
  induction walk generalizing seen with
  | nil => simp [freshEntries]
  | cons entry rest ih =>
      rw [freshEntries]
      split
      · rename_i isFresh
        rw [List.map_cons, List.mem_cons, ih]
        by_cases same : identity = entry.identity
        · subst same
          simp [isFresh]
        · simp [same, Ne.symm same]
      · rename_i notFresh
        rw [ih]
        by_cases same : identity = entry.identity
        · subst same
          simp [notFresh]
        · simp [Ne.symm same]

theorem nodup_freshEntries (walk : List Entry) :
    ((freshEntries wanted seen walk).map Entry.identity).Nodup := by
  induction walk generalizing seen with
  | nil => simp [freshEntries]
  | cons entry rest ih =>
      rw [freshEntries]
      split
      · refine List.nodup_cons.mpr ⟨?_, ih⟩
        simp [mem_identities_freshEntries]
      · exact ih

theorem sublist_freshEntries (walk : List Entry) :
    (freshEntries wanted seen walk).Sublist walk := by
  induction walk generalizing seen with
  | nil => exact List.Sublist.refl _
  | cons entry rest ih =>
      rw [freshEntries]
      split
      · exact ih.cons_cons entry
      · exact ih.cons entry

theorem find?_freshEntries {walk : List Entry} {entry : Entry}
    (chosen : entry ∈ freshEntries wanted seen walk) :
    walk.find? (·.identity = entry.identity) = some entry := by
  induction walk generalizing seen with
  | nil => simp [freshEntries] at chosen
  | cons head rest ih =>
      rw [freshEntries] at chosen
      split at chosen
      · rcases List.mem_cons.mp chosen with rfl | later
        · simp
        -- What is chosen behind the head has another identity, since that one has been seen.
        · have fresh := mem_identities_freshEntries.mp (List.mem_map_of_mem later)
          have differ : ¬head.identity = entry.identity := fun same =>
            fresh.2.2 (same ▸ List.mem_cons_self)
          rw [List.find?_cons_of_neg (by simpa using differ), ih later]
      · rename_i notFresh
        have fresh := mem_identities_freshEntries.mp (List.mem_map_of_mem chosen)
        have differ : ¬head.identity = entry.identity := fun same =>
          notFresh (same ▸ fresh.2)
        rw [List.find?_cons_of_neg (by simpa using differ), ih chosen]

/-- Of a walk that meets everything wanted, the fresh entries are the first ones. -/
theorem firstEntries_freshEntries {walk : List Entry}
    (met : ∀ identity ∈ wanted, ∃ entry ∈ walk, entry.identity = identity) :
    FirstEntries wanted walk (freshEntries wanted [] walk) where
  order := sublist_freshEntries walk
  first _ chosen := find?_freshEntries chosen
  nodup := nodup_freshEntries walk
  identities identity := by
    rw [mem_identities_freshEntries]
    exact ⟨fun fresh => fresh.2.1, fun isWanted => ⟨met identity isWanted, isWanted, by simp⟩⟩

theorem freshEntries_congr {other : List String}
    (same : ∀ identity, identity ∈ seen ↔ identity ∈ other) (walk : List Entry) :
    freshEntries wanted seen walk = freshEntries wanted other walk := by
  induction walk generalizing seen other with
  | nil => rfl
  | cons entry rest ih =>
      have longer : ∀ identity, identity ∈ entry.identity :: seen ↔
          identity ∈ entry.identity :: other := by simp [same]
      simp only [freshEntries, same entry.identity, ih longer, ih same]

theorem freshEntries_append (front back : List Entry) :
    freshEntries wanted seen (front ++ back) =
      freshEntries wanted seen front ++
        freshEntries wanted (seen ++ (freshEntries wanted seen front).map Entry.identity) back := by
  induction front generalizing seen with
  | nil => simp [freshEntries]
  | cons entry rest ih =>
      rw [List.cons_append, freshEntries, freshEntries]
      split
      · rw [ih, List.cons_append]
        congr 2
        -- The identity of the entry has been seen first here and last there, which does not matter.
        apply freshEntries_congr _ back
        intro identity
        simp only [List.mem_append, List.mem_cons, List.map_cons]
        exact or_left_comm
      · exact ih

end Fresh

/-! ## Libraries of a scope -/

section Convert

variable {convert : Entry → Except Error Library}

theorem librariesOf_append_eq_ok_iff {front back : List Entry} {libraries : List Library} :
    librariesOf convert (front ++ back) = .ok libraries ↔
      ∃ first others, librariesOf convert front = .ok first ∧
        librariesOf convert back = .ok others ∧ first ++ others = libraries := by
  induction front generalizing libraries with
  | nil => simp [librariesOf]
  | cons entry rest ih =>
      simp only [List.cons_append, librariesOf, except_bind_eq_ok_iff, ih]
      constructor
      · rintro ⟨library, isLibrary, _, ⟨first, others, isFirst, areOthers, rfl⟩, made⟩
        obtain rfl := Except.ok.inj made
        exact ⟨_, others, ⟨library, isLibrary, first, isFirst, rfl⟩, areOthers, rfl⟩
      · rintro ⟨_, others, ⟨library, isLibrary, first, isFirst, made⟩, areOthers, rfl⟩
        obtain rfl := Except.ok.inj made
        exact ⟨library, isLibrary, _, ⟨first, others, isFirst, areOthers, rfl⟩, rfl⟩

/-- The libraries of a scope are those of the fresh entries of its walk. -/
theorem scopeLibraries_eq_ok_iff {configurations : Configurations}
    {wanted seen names : List String} {libraries : List Library} :
    scopeLibraries convert configurations wanted seen names = .ok libraries ↔
      ∃ walk, walkEntries configurations names = .ok walk ∧
        librariesOf convert (freshEntries wanted seen walk) = .ok libraries := by
  induction names generalizing seen libraries with
  | nil => simp [scopeLibraries, walkEntries, freshEntries, librariesOf]
  | cons name rest ih =>
      rw [scopeLibraries, walkEntries]
      cases Keyed.get? name configurations with
      | none => exact ih
      | some configuration =>
          simp only [except_bind_eq_ok_iff, ih]
          constructor
          · rintro ⟨ordered, isOrdered, first, isFirst, others, ⟨walk, walked, fresh⟩, made⟩
            obtain rfl := Except.ok.inj made
            refine ⟨ordered ++ walk, ⟨ordered, isOrdered, walk, walked, rfl⟩, ?_⟩
            rw [freshEntries_append]
            exact librariesOf_append_eq_ok_iff.mpr ⟨first, others, isFirst, fresh, rfl⟩
          · rintro ⟨_, ⟨ordered, isOrdered, walk, walked, made⟩, fresh⟩
            obtain rfl := Except.ok.inj made
            rw [freshEntries_append] at fresh
            obtain ⟨first, others, isFirst, areOthers, rfl⟩ :=
              librariesOf_append_eq_ok_iff.mp fresh
            exact ⟨ordered, isOrdered, first, isFirst, others, ⟨walk, walked, areOthers⟩, rfl⟩

theorem librariesOf_eq_nil {entries : List Entry} (made : librariesOf convert entries = .ok []) :
    entries = [] := by
  cases entries with
  | nil => rfl
  | cons entry rest =>
      obtain ⟨library, _, made⟩ := except_bind_ok made
      obtain ⟨others, _, made⟩ := except_bind_ok made
      exact absurd (Except.ok.inj made) (by simp)

theorem exists_librariesOf {entries : List Entry}
    (each : ∀ entry ∈ entries, ∃ library, convert entry = .ok library) :
    ∃ libraries, librariesOf convert entries = .ok libraries := by
  induction entries with
  | nil => exact ⟨[], rfl⟩
  | cons entry rest ih =>
      rw [List.forall_mem_cons] at each
      obtain ⟨library, isLibrary⟩ := each.1
      obtain ⟨others, areOthers⟩ := ih each.2
      exact ⟨library :: others, by rw [librariesOf, isLibrary, areOthers]; rfl⟩

end Convert

/-! ## What scopes are supplied with -/

/-- Whether every identity of a scope has an entry in a configuration that the scope takes its
entries from. -/
def ClassifiedScope.IsSupplied (configurations : Configurations) (scope : ClassifiedScope) :
    Prop :=
  ∀ identity ∈ scope.identities, HasEntry configurations scope.sources identity

/-- Whether every scope is supplied. -/
def AreSupplied (configurations : Configurations) (classified : Keyed String ClassifiedScope) :
    Prop :=
  ∀ entry ∈ classified, entry.2.IsSupplied configurations

section Supplied

variable {configurations : Configurations} {classified : Keyed String ClassifiedScope}

theorem HasEntry.mono {names others : List String} {identity : String}
    (has : HasEntry configurations names identity) (more : ∀ name ∈ names, name ∈ others) :
    HasEntry configurations others identity := by
  obtain ⟨name, member, rest⟩ := has
  exact ⟨name, more name member, rest⟩

theorem areSupplied_claimScopes (scopes : Scopes) (claimed order : List String) :
    AreSupplied configurations (claimScopes scopes configurations claimed order) := by
  induction order generalizing claimed with
  | nil => simp [AreSupplied, claimScopes]
  | cons name rest ih =>
      rw [claimScopes]
      split
      · exact List.forall_mem_cons.mpr ⟨by simp [ClassifiedScope.IsSupplied], ih _⟩
      · refine List.forall_mem_cons.mpr ⟨?_, ih _⟩
        intro identity member
        exact (mem_reach_iff.mp (List.mem_filter.mp member).1).1

theorem AreSupplied.addToScope (supplied : AreSupplied configurations classified) (name : String)
    {identities sources : List String}
    (added : ∀ identity ∈ identities, HasEntry configurations sources identity) :
    AreSupplied configurations (IdeModules.addToScope name identities sources classified) := by
  intro entry member
  obtain ⟨old, isOld, rfl⟩ := List.mem_map.mp member
  split
  · intro identity isIdentity
    rcases List.mem_append.mp (mem_distinct.mp isIdentity) with own | isAdded
    · exact (supplied old isOld identity own).mono fun name isSource =>
        mem_distinct.mpr (List.mem_append_left _ isSource)
    · exact (added identity isAdded).mono fun name isSource =>
        mem_distinct.mpr (List.mem_append_right _ isSource)
  · exact supplied old isOld

theorem AreSupplied.addTestOverlap (supplied : AreSupplied configurations classified) :
    AreSupplied configurations (IdeModules.addTestOverlap configurations classified) := by
  unfold IdeModules.addTestOverlap
  by_cases nothing : (testOverlap configurations classified).isEmpty = true
  · simpa only [nothing, if_true] using supplied
  · simp only [nothing]
    exact supplied.addToScope "TEST" fun identity member => (mem_testOverlap_iff.mp member).2.1

theorem AreSupplied.addShared (supplied : AreSupplied configurations classified)
    (scopes : Scopes) :
    AreSupplied configurations (IdeModules.addShared scopes configurations classified) := by
  unfold IdeModules.addShared
  split
  · exact supplied
  · rename_i rules _
    have shared : ∀ identity ∈ rules.reach configurations,
        HasEntry configurations rules.plus identity :=
      fun identity member => (mem_reach_iff.mp member).1
    exact (supplied.addToScope "RUNTIME" shared).addToScope "TEST" shared

/-- Classifying supplies every scope. -/
theorem areSupplied_classify (scopes : Scopes) (configurations : Configurations) :
    AreSupplied configurations (classify scopes configurations) :=
  (areSupplied_claimScopes scopes [] (scopeOrder scopes)).addTestOverlap.addShared scopes

end Supplied

/-! ## Libraries of all scopes -/

section Build

variable {anchors : PathVariables} {attachments : Attachments} {configurations : Configurations}
  {classified : Keyed String ClassifiedScope}

/-- Whether libraries are made of the first entries of a scope's identities on the walk over its
configurations. -/
def AreLibrariesOf (anchors : PathVariables) (attachments : Attachments)
    (configurations : Configurations) (name : String) (scope : ClassifiedScope)
    (libraries : List Library) : Prop :=
  ∃ walk chosen, walkEntries configurations scope.sources = .ok walk ∧
    FirstEntries scope.identities walk chosen ∧
    librariesOf (Entry.library anchors attachments name) chosen = .ok libraries

theorem areLibrariesOf_scopeLibraries {name : String} {scope : ClassifiedScope}
    (supplied : scope.IsSupplied configurations) {libraries : List Library}
    (made : scopeLibraries (Entry.library anchors attachments name) configurations
      scope.identities [] scope.sources = .ok libraries) :
    AreLibrariesOf anchors attachments configurations name scope libraries := by
  obtain ⟨walk, walked, fresh⟩ := scopeLibraries_eq_ok_iff.mp made
  exact ⟨walk, _, walked, firstEntries_freshEntries fun identity member =>
    (mem_walkEntries_iff walked identity).mpr (supplied identity member), fresh⟩

/-- A scope has no libraries if and only if it has no identities. -/
theorem AreLibrariesOf.isEmpty_eq {name : String} {scope : ClassifiedScope}
    {libraries : List Library}
    (made : AreLibrariesOf anchors attachments configurations name scope libraries) :
    libraries.isEmpty = scope.identities.isEmpty := by
  obtain ⟨walk, chosen, _, first, converted⟩ := made
  rw [Bool.eq_iff_iff, List.isEmpty_iff, List.isEmpty_iff]
  constructor
  · rintro rfl
    rw [List.eq_nil_iff_forall_not_mem]
    intro identity member
    have isChosen := (first.identities identity).mpr member
    rw [librariesOf_eq_nil converted] at isChosen
    simp at isChosen
  · intro empty
    have noneChosen : chosen = [] := by
      rw [List.eq_nil_iff_forall_not_mem]
      intro entry member
      have isWanted := (first.identities entry.identity).mp (List.mem_map_of_mem member)
      simp [empty] at isWanted
    rw [noneChosen] at converted
    exact (Except.ok.inj converted).symm

/-- The libraries of supplied scopes: every scope that holds something has those of the first
entries of its identities, in the order of scopes. -/
theorem libraries_of_supplied (nodup : (Keyed.keys classified).Nodup)
    (supplied : AreSupplied configurations classified) {result : ScopedLibraries}
    (made : buildLibraries anchors attachments configurations classified = .ok result) :
    Keyed.keys result =
        Keyed.keys (classified.filter fun entry => !entry.2.identities.isEmpty) ∧
      ∀ entry ∈ classified, AreLibrariesOf anchors attachments configurations entry.1 entry.2
        ((Keyed.get? entry.1 result).getD []) := by
  induction classified generalizing result with
  | nil =>
      obtain rfl := Except.ok.inj made
      simp [Keyed.keys]
  | cons entry rest ih =>
      obtain ⟨name, scope⟩ := entry
      obtain ⟨fresh, restNodup⟩ := List.nodup_cons.mp nodup
      obtain ⟨scopeSupplied, restSupplied⟩ := List.forall_mem_cons.mp supplied
      obtain ⟨libraries, librariesMade, made⟩ := except_bind_ok made
      obtain ⟨others, othersMade, made⟩ := except_bind_ok made
      obtain ⟨keys, each⟩ := ih restNodup restSupplied othersMade
      have own := areLibrariesOf_scopeLibraries scopeSupplied librariesMade
      have absent : Keyed.get? name others = none := by
        rw [← Option.not_isSome_iff_eq_none, Option.isSome_iff_exists, ← Keyed.mem_keys_iff, keys]
        intro member
        obtain ⟨held, isHeld, sameName⟩ := List.mem_map.mp member
        exact fresh (List.mem_map.mpr ⟨held, (List.mem_filter.mp isHeld).1, sameName⟩)
      have otherKeys : ∀ held ∈ rest, held.1 ≠ name := by
        intro held member sameName
        exact fresh (List.mem_map.mpr ⟨held, member, sameName⟩)
      obtain rfl := Except.ok.inj made
      rw [own.isEmpty_eq]
      cases isEmpty : scope.identities.isEmpty with
      | true =>
          have noLibraries : libraries = [] := by
            rw [← List.isEmpty_iff, own.isEmpty_eq, isEmpty]
          rw [if_pos rfl, List.filter_cons_of_neg (by simp [isEmpty])]
          refine ⟨keys, List.forall_mem_cons.mpr ⟨?_, each⟩⟩
          rw [absent, Option.getD_none, ← noLibraries]
          exact own
      | false =>
          rw [if_neg (by simp), List.filter_cons_of_pos (by simp [isEmpty])]
          refine ⟨congrArg (List.cons name) keys, List.forall_mem_cons.mpr ⟨?_, ?_⟩⟩
          · simpa [Keyed.get?] using own
          · intro held member
            rw [Keyed.get?, if_neg (otherKeys held member).symm]
            exact each held member

end Build

/-! ## Entries that make libraries -/

/-- Whether an entry is of a kind that a library can stand for: a file, an unresolved dependency
or a project with a path. -/
def Entry.IsSupported : Entry → Prop
  | .artifact found => found.file.isSome = true
  | .unresolved _ => True
  | .reference (.project path) => ∃ text, path = .str text
  | .reference (.unsupported _) => False

/-- Whether a configuration holds only entries that make libraries, and no declaration has
parts. -/
structure Configuration.IsRegular (configuration : Configuration) : Prop where
  declared : ∀ value ∈ configuration.declared, value.key?.isSome = true
  entries : ∀ entry ∈ configuration.entries,
    entry.IsSupported ∧ entry.declaredBy.key?.isSome = true

section Total

variable {configurations : Configurations}

theorem Entry.IsSupported.exists_library {entry : Entry} (supported : entry.IsSupported)
    (anchors : PathVariables) (attachments : Attachments) (scope : String) :
    ∃ library, entry.library anchors attachments scope = .ok library := by
  cases entry with
  | artifact found =>
      obtain ⟨file, isFile⟩ := Option.isSome_iff_exists.mp supported
      simp [Entry.library, isFile]
  | unresolved dependency => simp [Entry.library]
  | reference reference =>
      cases reference with
      | project path =>
          obtain ⟨text, rfl⟩ := supported
          simp [Entry.library]
      | unsupported identity => exact supported.elim

/-- A walk over regular configurations succeeds, and meets supported entries. -/
theorem exists_walkEntries (regular : ∀ entry ∈ configurations, entry.2.IsRegular)
    (names : List String) :
    ∃ walk, walkEntries configurations names = .ok walk ∧ ∀ entry ∈ walk, entry.IsSupported := by
  induction names with
  | nil => exact ⟨[], rfl, by simp⟩
  | cons name rest ih =>
      obtain ⟨others, walked, supported⟩ := ih
      rw [walkEntries]
      cases found : Keyed.get? name configurations with
      | none => exact ⟨others, walked, supported⟩
      | some configuration =>
          obtain ⟨declared, entries⟩ := regular _ (Keyed.mem_of_get? found)
          obtain ⟨ordered, isOrdered⟩ := exists_declarationOrder declared fun entry member =>
            (entries entry member).2
          refine ⟨ordered ++ others, ?_, List.forall_mem_append.mpr ⟨?_, supported⟩⟩
          · exact except_bind_eq_ok_iff.mpr ⟨ordered, isOrdered,
              except_bind_eq_ok_iff.mpr ⟨others, walked, rfl⟩⟩
          · exact fun entry member =>
              (entries entry ((perm_declarationOrder isOrdered).mem_iff.mp member)).1

theorem exists_buildLibraries (regular : ∀ entry ∈ configurations, entry.2.IsRegular)
    (anchors : PathVariables) (attachments : Attachments)
    (classified : Keyed String ClassifiedScope) :
    ∃ result, buildLibraries anchors attachments configurations classified = .ok result := by
  induction classified with
  | nil => exact ⟨[], rfl⟩
  | cons entry rest ih =>
      obtain ⟨name, scope⟩ := entry
      obtain ⟨others, othersMade⟩ := ih
      obtain ⟨walk, walked, supported⟩ := exists_walkEntries regular scope.sources
      have convertible : ∀ entry ∈ freshEntries scope.identities [] walk,
          ∃ library, Entry.library anchors attachments name entry = .ok library :=
        fun entry member => (supported entry
          ((sublist_freshEntries walk).subset member)).exists_library anchors attachments name
      obtain ⟨libraries, converted⟩ := exists_librariesOf convertible
      have made := scopeLibraries_eq_ok_iff.mpr ⟨walk, walked, converted⟩
      exact ⟨_, except_bind_eq_ok_iff.mpr ⟨libraries, made,
        except_bind_eq_ok_iff.mpr ⟨others, othersMade, rfl⟩⟩⟩

end Total

/-! ## Nothing is lost or repeated -/

/-- Regular configurations give libraries; and whenever there are libraries, a scope has those of
the first entries of its identities on the walk over its configurations, the scopes without
identities are left out, and the others keep their order. -/
theorem classified_libraries_are_exact (anchors : PathVariables) (attachments : Attachments)
    (scopes : Scopes) (configurations : Configurations) :
    ((∀ entry ∈ configurations, entry.2.IsRegular) → ∃ result,
      buildLibraries anchors attachments configurations (classify scopes configurations) =
        .ok result) ∧
    ∀ result,
      buildLibraries anchors attachments configurations (classify scopes configurations) =
        .ok result →
      Keyed.keys result = Keyed.keys ((classify scopes configurations).filter fun entry =>
        !entry.2.identities.isEmpty) ∧
      ∀ name scope, Keyed.get? name (classify scopes configurations) = some scope →
        AreLibrariesOf anchors attachments configurations name scope
            ((Keyed.get? name result).getD []) ∧
          (Keyed.get? name result = none ↔ scope.identities = []) := by
  constructor
  · intro regular
    exact exists_buildLibraries regular anchors attachments _
  intro result made
  have nodup := nodup_keys_classify scopes configurations
  obtain ⟨keys, each⟩ := libraries_of_supplied nodup
    (areSupplied_classify scopes configurations) made
  apply And.intro keys
  intro name scope found
  apply And.intro (each (name, scope) (Keyed.mem_of_get? found))
  have known : name ∈ Keyed.keys result ↔ scope.identities ≠ [] := by
    rw [keys, Keyed.keys, List.mem_map]
    constructor
    · rintro ⟨⟨_, held⟩, member, rfl⟩
      obtain ⟨isHeld, nonempty⟩ := List.mem_filter.mp member
      obtain rfl := Option.some.inj (found.symm.trans (Keyed.get?_of_mem nodup isHeld))
      simpa using nonempty
    · intro nonempty
      exact ⟨(name, scope), List.mem_filter.mpr
        ⟨Keyed.mem_of_get? found, by simpa using nonempty⟩, rfl⟩
  rw [Keyed.mem_keys_iff, ← Option.isSome_iff_exists, ← Option.ne_none_iff_isSome] at known
  exact Decidable.not_iff_not.mp known

theorem isRegular_overlapping :
    ∀ entry ∈ overlappingConfigurations, entry.2.IsRegular := by
  have plain : ∀ name files, (configurationOf name files).2.IsRegular := by
    intro name files
    refine ⟨by simp [configurationOf, Configuration.empty], ?_⟩
    intro entry member
    simp only [configurationOf, Configuration.entries, Configuration.empty, List.map_map,
      List.map_nil, List.append_nil] at member
    obtain ⟨file, _, rfl⟩ := List.mem_map.mp member
    exact ⟨rfl, rfl⟩
  simp [overlappingConfigurations, plain]

theorem overlapping_libraries_are_exact :
    ∃ result, buildLibraries ⟨⟨.single, [], by decide⟩, ∅⟩ ⟨true, false⟩ overlappingConfigurations
        (classify overlappingScopes overlappingConfigurations) = .ok result ∧
      Keyed.keys result = ["PROVIDED", "RUNTIME", "TEST", "checks"] ∧
      AreLibrariesOf ⟨⟨.single, [], by decide⟩, ∅⟩ ⟨true, false⟩ overlappingConfigurations "TEST"
        ⟨["/b.jar", "/a.jar"], ["testRuntime", "testCompile", "agents"]⟩
        ((Keyed.get? "TEST" result).getD []) := by
  obtain ⟨total, exact⟩ := classified_libraries_are_exact ⟨⟨.single, [], by decide⟩, ∅⟩
    ⟨true, false⟩ overlappingScopes overlappingConfigurations
  obtain ⟨result, made⟩ := total isRegular_overlapping
  obtain ⟨keys, each⟩ := exact result made
  refine ⟨result, made, by rw [keys]; decide, (each "TEST" _ ?_).1⟩
  decide

end IdeModules
