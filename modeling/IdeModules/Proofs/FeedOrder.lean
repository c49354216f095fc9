import IdeModules.Descriptor.Merging
import IdeModules.Proofs.Flattening
import IdeModules.Proofs.Json.Worth
import IdeModules.Proofs.Libraries

/-!
# The order in which artifacts are supplied

Artifacts may be supplied in another order, as long as those of one declaration
keep theirs.  Flattening keeps this relation between configurations, scopes
depend only on which identities there are, and sorting by declaration brings the
artifacts of declared notations into one order; so the descriptor is the same.
-/

namespace IdeModules

open Json.Value (key?_eq_of_same same_iff_of_key?)

/-! ## Related lists -/

section FlatMap

variable {α β : Type} {relation : α → α → Prop} {parts : α → List β} {lefts rights : List α}
  (related : List.Forall₂ relation lefts rights)

include related

theorem flatMap_eq_of_related
    (same : ∀ left right, relation left right → parts left = parts right) :
    lefts.flatMap parts = rights.flatMap parts := by
  induction related with
  | nil => rfl
  | cons first others ih =>
      rw [List.flatMap_cons, List.flatMap_cons, same _ _ first, ih]

theorem flatMap_perm_of_related
    (permuted : ∀ left right, relation left right → (parts left).Perm (parts right)) :
    (lefts.flatMap parts).Perm (rights.flatMap parts) := by
  induction related with
  | nil => exact .nil
  | cons first others ih =>
      exact (permuted _ _ first).append ih

end FlatMap

/-! ## Reordered configurations -/

/-- Whether configurations differ in the order of their artifacts only, of which those of one
declaration keep theirs. -/
structure Configuration.IsReordered (left right : Configuration) : Prop where
  name : left.name = right.name
  extendsFrom : left.extendsFrom = right.extendsFrom
  declared : left.declared = right.declared
  unresolved : left.unresolved = right.unresolved
  references : left.references = right.references
  artifacts : left.artifacts.Perm right.artifacts
  order : ∀ declaration : Json.Value,
    left.artifacts.filter (·.declaredBy.same declaration) =
      right.artifacts.filter (·.declaredBy.same declaration)

/-- Whether every artifact of a configuration belongs to one of its declarations. -/
def Configuration.DeclaresAll (configuration : Configuration) : Prop :=
  ∀ artifact ∈ configuration.artifacts, ∃ declaration ∈ configuration.declared,
    declaration.same artifact.declaredBy = true

namespace Configuration.IsReordered

variable {left right : Configuration} (reordered : left.IsReordered right)

include reordered

theorem entries : left.entries.Perm right.entries := by
  rw [Configuration.entries, Configuration.entries, reordered.unresolved, reordered.references]
  exact ((reordered.artifacts.map _).append_right _).append_right _

/-- Configurations that gather reordered ones are reordered. -/
theorem gather {lefts rights : List Configuration}
    (reached : List.Forall₂ Configuration.IsReordered lefts rights) :
    (left.gather lefts).IsReordered (right.gather rights) where
  name := reordered.name
  extendsFrom := reordered.extendsFrom
  declared := flatMap_eq_of_related reached fun _ _ => IsReordered.declared
  unresolved := flatMap_eq_of_related reached fun _ _ => IsReordered.unresolved
  references := flatMap_eq_of_related reached fun _ _ => IsReordered.references
  artifacts := flatMap_perm_of_related reached fun _ _ => IsReordered.artifacts
  order declaration := by
    rw [Configuration.gather, Configuration.gather, List.filter_flatMap, List.filter_flatMap]
    exact flatMap_eq_of_related reached fun _ _ each => each.order declaration

/-- The artifacts of one place are the same ones, if all belong to declarations: those of a place
are those of one declaration. -/
theorem filter_placeOf (declares : left.DeclaresAll) {declared : List Json.Key}
    (keys : keysOf left.declared = .ok declared) (place : Nat) :
    left.artifacts.filter (fun artifact => placeOf declared (.artifact artifact) = place) =
      right.artifacts.filter fun artifact => placeOf declared (.artifact artifact) = place := by
  have keyed : ∀ artifact ∈ left.artifacts, ∃ key ∈ declared,
      artifact.declaredBy.key? = some key ∧
        placeOf declared (.artifact artifact) = declared.idxOf key := by
    intro artifact member
    obtain ⟨declaration, isDeclared, same⟩ := declares artifact member
    obtain ⟨key, isKey, known⟩ := exists_key_of_mem (keysOf_eq_ok keys) isDeclared
    have own : artifact.declaredBy.key? = some key := (key?_eq_of_same same).symm.trans known
    refine ⟨key, isKey, own, ?_⟩
    rw [placeOf]
    simp [Entry.declaredBy, own, rankOf, isKey]
  -- A place with an artifact is that of one declaration, whose artifacts keep their order.
  by_cases taken : ∃ artifact ∈ left.artifacts, placeOf declared (.artifact artifact) = place
  · obtain ⟨chosen, isChosen, atPlace⟩ := taken
    obtain ⟨key, isKey, known, isPlace⟩ := keyed chosen isChosen
    have sameTest : ∀ artifact ∈ left.artifacts,
        decide (placeOf declared (.artifact artifact) = place) =
          artifact.declaredBy.same chosen.declaredBy := by
      intro artifact member
      obtain ⟨other, isOther, otherKnown, otherPlace⟩ := keyed artifact member
      rw [Bool.eq_iff_iff, decide_eq_true_iff, same_iff_of_key? known, otherKnown, otherPlace,
        ← atPlace, isPlace, List.idxOf_inj isOther, Option.some.injEq]
    rw [List.filter_congr sameTest, List.filter_congr fun artifact member =>
      sameTest artifact (reordered.artifacts.mem_iff.mpr member)]
    exact reordered.order chosen.declaredBy
  · have nowhere : ∀ artifact ∈ left.artifacts,
        ¬decide (placeOf declared (.artifact artifact) = place) = true := by
      intro artifact member atPlace
      exact taken ⟨artifact, member, of_decide_eq_true atPlace⟩
    rw [List.filter_eq_nil_iff.mpr nowhere, List.filter_eq_nil_iff.mpr]
    exact fun artifact member => nowhere artifact (reordered.artifacts.mem_iff.mpr member)

theorem declarationOrder_eq (declares : left.DeclaresAll) :
    left.declarationOrder = right.declarationOrder := by
  cases keys : keysOf left.declared with
  | error failure =>
      rw [declarationOrder, declarationOrder, ← reordered.declared, keys]
      rfl
  | ok declared =>
      have sameKeyed : areKeyed left.entries = areKeyed right.entries :=
        reordered.entries.all_eq
      have sorted : sortByRank (placeOf declared) left.entries =
          sortByRank (placeOf declared) right.entries := by
        apply sortByRank_congr
        intro place
        simp only [Configuration.entries, List.filter_append, List.filter_map, Function.comp_def,
          reordered.unresolved, reordered.references, reordered.filter_placeOf declares keys]
      rw [IdeModules.declarationOrder_eq keys,
        IdeModules.declarationOrder_eq (reordered.declared ▸ keys), sameKeyed, sorted]

end Configuration.IsReordered

/-! ## Flattening -/

section Flatten

variable {left right : Configurations}
  (reordered : Keyed.Related Configuration.IsReordered left right)

include reordered

theorem parentNames_of_reordered : parentNames left = parentNames right := by
  induction reordered with
  | nil => rfl
  | cons first others ih =>
      rename_i leftEntry rightEntry _ _
      obtain ⟨leftName, leftConfiguration⟩ := leftEntry
      obtain ⟨rightName, rightConfiguration⟩ := rightEntry
      obtain ⟨rfl, first⟩ := first
      have sameParents : leftConfiguration.parents = rightConfiguration.parents := by
        rw [Configuration.parents, Configuration.parents, first.extendsFrom]
      rw [parentNames, parentNames, sameParents, ih]

theorem reached_of_reordered (names : List String) :
    List.Forall₂ Configuration.IsReordered (names.filterMap (Keyed.get? · left))
      (names.filterMap (Keyed.get? · right)) := by
  induction names with
  | nil => exact .nil
  | cons name rest ih =>
      have both := reordered.get? name
      rw [List.filterMap_cons, List.filterMap_cons]
      generalize Keyed.get? name left = leftHeld at both ⊢
      generalize Keyed.get? name right = rightHeld at both ⊢
      cases both with
      | none => exact ih
      | some each => exact .cons each ih

/-- Flattening reordered configurations fails for both alike, or gives reordered ones. -/
theorem flatten_of_reordered :
    (∃ failure, flatten left = .error failure ∧ flatten right = .error failure) ∨
      ∃ leftFlat rightFlat, flatten left = .ok leftFlat ∧ flatten right = .ok rightFlat ∧
        Keyed.Related Configuration.IsReordered leftFlat rightFlat := by
  unfold flatten
  rw [← parentNames_of_reordered reordered]
  cases parentNames left with
  | error failure => exact .inl ⟨failure, rfl, rfl⟩
  | ok parents =>
      refine .inr ⟨_, _, rfl, rfl, ?_⟩
      rw [Keyed.Related, List.forall₂_map_left_iff, List.forall₂_map_right_iff]
      refine List.Forall₂.imp ?_ reordered
      rintro ⟨leftName, leftConfiguration⟩ ⟨rightName, rightConfiguration⟩ ⟨rfl, each⟩
      exact ⟨rfl, { each.gather (reached_of_reordered reordered _) with name := rfl }⟩

end Flatten

/-- Whether an artifact of a configuration belongs to a declaration of that configuration or of
one that it extends, directly or through others. -/
def IsDeclaredFor (configurations : Configurations) (name : String) (artifact : Artifact) : Prop :=
  ∃ other declaring, Relation.ReflTransGen (Extends configurations) name other ∧
    Keyed.get? other configurations = some declaring ∧
    ∃ declaration ∈ declaring.declared, declaration.same artifact.declaredBy = true

/-- A flattened configuration declares its artifacts itself. -/
theorem declaresAll_flatten {configurations flat : Configurations}
    (declared : ∀ name configuration, Keyed.get? name configurations = some configuration →
      ∀ artifact ∈ configuration.artifacts, IsDeclaredFor configurations name artifact)
    (flattened : flatten configurations = .ok flat) : ∀ entry ∈ flat, entry.2.DeclaresAll := by
  unfold flatten at flattened
  cases made : parentNames configurations with
  | error failure => simp [made, Except.map] at flattened
  | ok parents =>
      rw [made] at flattened
      obtain rfl := Except.ok.inj flattened
      intro entry member
      obtain ⟨⟨name, configuration⟩, _, rfl⟩ := List.mem_map.mp member
      intro artifact isArtifact
      obtain ⟨supplying, isReached, isSupplied⟩ := List.mem_flatMap.mp isArtifact
      obtain ⟨middle, isMiddle, found⟩ := List.mem_filterMap.mp isReached
      obtain ⟨other, declaring, leads, isDeclaring, declaration, isDeclared, same⟩ :=
        declared middle supplying found artifact isSupplied
      have otherReached := (isClosed_reachedNames parents name).mem_of_extends made isMiddle leads
      exact ⟨declaration, List.mem_flatMap.mpr
        ⟨declaring, List.mem_filterMap.mpr ⟨other, otherReached, isDeclaring⟩, isDeclared⟩, same⟩

/-! ## Classification -/

/-- Whether scopes take their entries from the same configurations and hold the same identities,
in any order. -/
structure ClassifiedScope.Agrees (left right : ClassifiedScope) : Prop where
  sources : left.sources = right.sources
  identities : ∀ identity, identity ∈ left.identities ↔ identity ∈ right.identities

section Classify

variable {leftFlat rightFlat : Configurations}
  {left right : Keyed String ClassifiedScope}

theorem hasEntry_of_reordered
    (reordered : Keyed.Related Configuration.IsReordered leftFlat rightFlat)
    (names : List String) (identity : String) :
    HasEntry leftFlat names identity ↔ HasEntry rightFlat names identity := by
  apply exists_congr
  intro name
  apply and_congr_right
  intro _
  have both := reordered.get? name
  generalize Keyed.get? name leftFlat = leftHeld at both ⊢
  generalize Keyed.get? name rightFlat = rightHeld at both ⊢
  cases both with
  | none => simp
  | some each => simp [each.entries.mem_iff]

theorem mem_reach_of_reordered
    (reordered : Keyed.Related Configuration.IsReordered leftFlat rightFlat)
    (rules : ScopeRules) (identity : String) :
    identity ∈ rules.reach leftFlat ↔ identity ∈ rules.reach rightFlat := by
  rw [mem_reach_iff, mem_reach_iff, hasEntry_of_reordered reordered,
    hasEntry_of_reordered reordered]

theorem claimScopes_agree
    (reordered : Keyed.Related Configuration.IsReordered leftFlat rightFlat) (scopes : Scopes)
    {leftClaimed rightClaimed : List String}
    (sameClaimed : ∀ identity, identity ∈ leftClaimed ↔ identity ∈ rightClaimed)
    (order : List String) :
    Keyed.Related ClassifiedScope.Agrees (claimScopes scopes leftFlat leftClaimed order)
      (claimScopes scopes rightFlat rightClaimed order) := by
  -- What has been claimed so far agrees in its members only, so that the induction is over any two
  -- lists of them.
  induction order generalizing leftClaimed rightClaimed with
  | nil => exact .nil
  | cons name rest ih =>
      rw [claimScopes, claimScopes]
      split
      · exact .cons ⟨rfl, rfl, fun _ => Iff.rfl⟩ (ih sameClaimed)
      · rename_i rules _
        have own : ∀ identity,
            identity ∈ (rules.reach leftFlat).filter (· ∉ leftClaimed) ↔
              identity ∈ (rules.reach rightFlat).filter (· ∉ rightClaimed) := by
          intro identity
          simp [mem_reach_of_reordered reordered, sameClaimed]
        refine .cons ⟨rfl, rfl, own⟩ ?_
        apply ih
        intro identity
        rw [List.mem_append, List.mem_append, sameClaimed, own]

theorem addToScope_agree (agree : Keyed.Related ClassifiedScope.Agrees left right)
    (name : String) {leftAdded rightAdded : List String}
    (same : ∀ identity, identity ∈ leftAdded ↔ identity ∈ rightAdded) (sources : List String) :
    Keyed.Related ClassifiedScope.Agrees (addToScope name leftAdded sources left)
      (addToScope name rightAdded sources right) := by
  rw [addToScope, addToScope, Keyed.Related, List.forall₂_map_left_iff,
    List.forall₂_map_right_iff]
  refine List.Forall₂.imp ?_ agree
  rintro ⟨leftName, leftScope⟩ ⟨rightName, rightScope⟩ ⟨sameName, each⟩
  obtain rfl : leftName = rightName := sameName
  split
  · refine ⟨rfl, ?_, ?_⟩
    · exact congrArg (fun known => distinct (known ++ sources)) each.sources
    · intro identity
      simp [ClassifiedScope.add, each.identities, same]
  · exact ⟨rfl, each⟩

theorem mem_testOverlap_of_agree
    (reordered : Keyed.Related Configuration.IsReordered leftFlat rightFlat)
    (agree : Keyed.Related ClassifiedScope.Agrees left right) (identity : String) :
    identity ∈ testOverlap leftFlat left ↔ identity ∈ testOverlap rightFlat right := by
  have runtime : Holds left "RUNTIME" identity ↔ Holds right "RUNTIME" identity := by
    have both := agree.get? "RUNTIME"
    unfold Holds
    generalize Keyed.get? "RUNTIME" left = leftHeld at both ⊢
    generalize Keyed.get? "RUNTIME" right = rightHeld at both ⊢
    cases both with
    | none => simp
    | some each => simp [each.identities]
  rw [mem_testOverlap_iff, mem_testOverlap_iff, runtime, hasEntry_of_reordered reordered,
    hasEntry_of_reordered reordered]

theorem isEmpty_eq_of_mem_iff {lefts rights : List String}
    (same : ∀ identity, identity ∈ lefts ↔ identity ∈ rights) :
    lefts.isEmpty = rights.isEmpty := by
  rw [Bool.eq_iff_iff, List.isEmpty_iff, List.isEmpty_iff, List.eq_nil_iff_forall_not_mem,
    List.eq_nil_iff_forall_not_mem]
  exact forall_congr' fun identity => not_congr (same identity)

/-- Reordered configurations are classified alike. -/
theorem classify_agree (reordered : Keyed.Related Configuration.IsReordered leftFlat rightFlat)
    (scopes : Scopes) :
    Keyed.Related ClassifiedScope.Agrees (classify scopes leftFlat)
      (classify scopes rightFlat) := by
  have claimed := claimScopes_agree reordered scopes (fun _ => Iff.rfl : ∀ identity : String,
    identity ∈ [] ↔ identity ∈ []) (scopeOrder scopes)
  have tested : Keyed.Related ClassifiedScope.Agrees
      (addTestOverlap leftFlat (claimScopes scopes leftFlat [] (scopeOrder scopes)))
      (addTestOverlap rightFlat (claimScopes scopes rightFlat [] (scopeOrder scopes))) := by
    have overlap := mem_testOverlap_of_agree reordered claimed
    simp only [addTestOverlap, isEmpty_eq_of_mem_iff overlap]
    split
    · exact claimed
    · exact addToScope_agree claimed "TEST" overlap ["testCompile"]
  unfold classify addShared
  split
  · exact tested
  · rename_i rules _
    have shared := mem_reach_of_reordered reordered rules
    exact addToScope_agree (addToScope_agree tested "RUNTIME" shared rules.plus) "TEST" shared
      rules.plus

end Classify

/-! ## Libraries -/

section Libraries

variable {leftFlat rightFlat : Configurations}
  (reordered : Keyed.Related Configuration.IsReordered leftFlat rightFlat)
  (declares : ∀ entry ∈ leftFlat, entry.2.DeclaresAll)

theorem freshEntries_of_wanted {left right seen : List String}
    (same : ∀ identity, identity ∈ left ↔ identity ∈ right) (walk : List Entry) :
    freshEntries left seen walk = freshEntries right seen walk := by
  induction walk generalizing seen with
  | nil => rfl
  | cons entry rest ih => simp only [freshEntries, same, ih]

include reordered declares

theorem scopeLibraries_of_reordered (convert : Entry → Except Error Library)
    {leftWanted rightWanted : List String}
    (same : ∀ identity, identity ∈ leftWanted ↔ identity ∈ rightWanted)
    (seen names : List String) :
    scopeLibraries convert leftFlat leftWanted seen names =
      scopeLibraries convert rightFlat rightWanted seen names := by
  induction names generalizing seen with
  | nil => rfl
  | cons name rest ih =>
      have both := reordered.get? name
      rw [scopeLibraries, scopeLibraries]
      cases found : Keyed.get? name leftFlat with
      | none =>
          rw [found] at both
          generalize Keyed.get? name rightFlat = held at both ⊢
          cases both
          exact ih seen
      | some configuration =>
          obtain ⟨other, isOther, each⟩ := reordered.exists_right found
          have ordered := each.declarationOrder_eq (declares _ (Keyed.mem_of_get? found))
          simp only [isOther, ordered, freshEntries_of_wanted same, ih]

/-- Reordered configurations, classified alike, give the same libraries. -/
theorem buildLibraries_of_reordered (anchors : PathVariables) (attachments : Attachments)
    {left right : Keyed String ClassifiedScope}
    (agree : Keyed.Related ClassifiedScope.Agrees left right) :
    buildLibraries anchors attachments leftFlat left =
      buildLibraries anchors attachments rightFlat right := by
  induction agree with
  | nil => rfl
  | cons first others ih =>
      rename_i leftEntry rightEntry _ _
      obtain ⟨leftName, leftScope⟩ := leftEntry
      obtain ⟨rightName, rightScope⟩ := rightEntry
      obtain ⟨rfl, each⟩ := first
      rw [buildLibraries, buildLibraries, ih, each.sources,
        scopeLibraries_of_reordered reordered declares _ each.identities]

end Libraries

/-! ## Descriptors -/

theorem diagnostics_of_reordered {left right : Configurations}
    (reordered : Keyed.Related Configuration.IsReordered left right) (scopes : ScopedLibraries) :
    diagnostics scopes left = diagnostics scopes right := by
  have same : (Keyed.values left).flatMap (fun configuration =>
        configuration.unresolved.map UnresolvedDependency.coordinate) =
      (Keyed.values right).flatMap fun configuration =>
        configuration.unresolved.map UnresolvedDependency.coordinate := by
    rw [Keyed.values, Keyed.values, List.flatMap_map, List.flatMap_map]
    exact flatMap_eq_of_related reordered fun left right each => by rw [each.2.unresolved]
  rw [diagnostics, diagnostics, same]

namespace ModuleSettings

variable {settings : ModuleSettings} {configurations : Configurations}

theorem libraries_of_reordered
    (reordered : Keyed.Related Configuration.IsReordered settings.configurations configurations)
    (declared : ∀ name configuration,
      Keyed.get? name settings.configurations = some configuration →
        ∀ artifact ∈ configuration.artifacts,
          IsDeclaredFor settings.configurations name artifact)
    (anchors : PathVariables) (scopes : Scopes) :
    { settings with configurations := configurations }.libraries anchors scopes =
      settings.libraries anchors scopes := by
  unfold ModuleSettings.libraries
  rcases flatten_of_reordered reordered with
    ⟨failure, leftFails, rightFails⟩ | ⟨leftFlat, rightFlat, leftFlattened, rightFlattened, flat⟩
  · simp only [leftFails, rightFails]
    rfl
  · simp only [leftFlattened, rightFlattened]
    exact (buildLibraries_of_reordered flat (declaresAll_flatten declared leftFlattened) anchors
      settings.attachments (classify_agree flat scopes)).symm

/-- The generated descriptor and its diagnostics do not depend on the order in which artifacts
are supplied, as long as those of one declaration keep theirs. -/
theorem supply_order_is_irrelevant
    (reordered : Keyed.Related Configuration.IsReordered settings.configurations configurations)
    (declared : ∀ name configuration,
      Keyed.get? name settings.configurations = some configuration →
        ∀ artifact ∈ configuration.artifacts,
          IsDeclaredFor settings.configurations name artifact)
    (anchors : PathVariables) (context : ProjectContext) (layout : Layout) :
    Descriptor.generate { settings with configurations := configurations } anchors context
        layout =
      Descriptor.generate settings anchors context layout := by
  unfold Descriptor.generate
  simp only [libraries_of_reordered reordered declared,
    diagnostics_of_reordered reordered]
  rfl

/-! ## Two artifacts in either order -/

def suppliedArtifact (file declaration : String) : Artifact :=
  { plainArtifact file with declaredBy := .str declaration }

/-- A configuration that declares one artifact, and extends another that declares a further one. -/
def suppliedConfigurations (artifacts : List Artifact) : Configurations :=
  [("compile", { Configuration.empty "compile" with
      extendsFrom := [.str "api"], declared := [.str "own"], artifacts := artifacts }),
    ("api", { Configuration.empty "api" with declared := [.str "shared"] })]

def suppliedSettings (artifacts : List Artifact) : ModuleSettings :=
  { ofNameAndDirectory (.str "a") Path.workspace with
    configurations := suppliedConfigurations artifacts }

theorem related_supplied :
    Keyed.Related Configuration.IsReordered
      (suppliedSettings
        [suppliedArtifact "/s.jar" "shared", suppliedArtifact "/o.jar" "own"]).configurations
      (suppliedConfigurations
        [suppliedArtifact "/o.jar" "own", suppliedArtifact "/s.jar" "shared"]) := by
  refine .cons ⟨rfl, rfl, rfl, rfl, rfl, rfl, .swap .., ?_⟩
    (.cons ⟨rfl, rfl, rfl, rfl, rfl, rfl, .refl _, fun _ => rfl⟩ .nil)
  intro declaration
  cases isShared : (Json.Value.str "shared").same declaration with
  | false => simp [suppliedArtifact, List.filter_cons, isShared]
  | true =>
      cases isOwn : (Json.Value.str "own").same declaration with
      | false => simp [suppliedArtifact, List.filter_cons, isOwn]
      | true =>
          have sameKeys := (key?_eq_of_same isShared).trans (key?_eq_of_same isOwn).symm
          exact absurd sameKeys (by decide)

theorem isDeclaredFor_supplied {artifacts : List Artifact} {artifact : Artifact}
    (known : artifact.declaredBy = .str "own" ∨ artifact.declaredBy = .str "shared") :
    IsDeclaredFor (suppliedConfigurations artifacts) "compile" artifact := by
  rcases known with isOwn | isShared
  · exact ⟨"compile", _, .refl, rfl, .str "own", by simp, by
      rw [isOwn]
      decide⟩
  · have link : Extends (suppliedConfigurations artifacts) "compile" "api" :=
      ⟨_, rfl, List.mem_singleton_self _, rfl⟩
    exact ⟨"api", _, .single link, rfl, .str "shared", by simp, by
      rw [isShared]
      decide⟩

theorem supplied_order_is_irrelevant :
    Descriptor.generate (suppliedSettings
        [suppliedArtifact "/o.jar" "own", suppliedArtifact "/s.jar" "shared"])
        ⟨Path.workspace, ∅⟩ ⟨none, false⟩ ⟨⟨"u", [], []⟩, ⟨true, none, none⟩, [], []⟩ =
      Descriptor.generate (suppliedSettings
        [suppliedArtifact "/s.jar" "shared", suppliedArtifact "/o.jar" "own"])
        ⟨Path.workspace, ∅⟩ ⟨none, false⟩ ⟨⟨"u", [], []⟩, ⟨true, none, none⟩, [], []⟩ := by
  refine supply_order_is_irrelevant related_supplied ?_ _ _ _
  intro name configuration found artifact member
  have entries := Keyed.mem_of_get? found
  simp only [suppliedSettings, suppliedConfigurations, List.mem_cons, List.not_mem_nil, or_false,
    Prod.mk.injEq] at entries
  rcases entries with ⟨rfl, rfl⟩ | ⟨rfl, rfl⟩
  · refine isDeclaredFor_supplied ?_
    simp only [List.mem_cons, List.not_mem_nil, or_false] at member
    rcases member with rfl | rfl
    · exact .inr rfl
    · exact .inl rfl
  · simp [Configuration.empty] at member

end ModuleSettings

end IdeModules
