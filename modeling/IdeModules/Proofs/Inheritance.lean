import IdeModules.Proofs.Flattening

/-!
# Inherited content

A tour from a name goes deep before it goes wide and turns back only where it would meet
its own way again, so a name is listed each time that the tour comes to it.  A walk leaves
out whatever it has visited before, on its way or beside it, and still comes to the names
in the order in which the tour comes to each of them first: of a visited name that is not
on the way, all that the tour finds behind it has been visited as well.
-/

namespace IdeModules

/-! ## Tours -/

def without (name : String) (names : List String) : List String :=
  names.filter (· ≠ name)

theorem mem_without_iff {name other : String} {names : List String} :
    other ∈ without name names ↔ other ∈ names ∧ other ≠ name := by
  simp [without]

theorem length_without_lt {name : String} {names : List String} (member : name ∈ names) :
    (without name names).length < names.length := by
  have dropped : ¬decide (name ≠ name) = true := by simp
  exact List.length_filter_lt_length_iff_exists.mpr ⟨name, member, dropped⟩

/-- What a tour comes to from a name: the name, and behind it, one after the other, what it comes
to from the names that follow it.  Only names ahead can be come to, and a name is ahead no longer
once it is on the way. -/
def tour (next : String → List String) (ahead : List String) (name : String) : List String :=
  if name ∈ ahead then
    name :: (next name).flatMap fun other => tour next (without name ahead) other
  else []
termination_by ahead.length
decreasing_by exact length_without_lt ‹_›

section Tour

variable {next : String → List String} {ahead : List String} {name other : String}

theorem tour_of_mem (isAhead : name ∈ ahead) :
    tour next ahead name = name :: (next name).flatMap (tour next (without name ahead)) := by
  rw [tour, if_pos isAhead]

theorem tour_of_not_mem (notAhead : name ∉ ahead) : tour next ahead name = [] := by
  rw [tour, if_neg notAhead]

/-- A tour stays among names that nothing ahead leads out of. -/
theorem mem_of_mem_tour (inside : String → Prop)
    (closed : ∀ first, inside first → first ∈ ahead → ∀ second ∈ next first, second ∈ ahead →
      inside second)
    (isInside : inside name) (found : other ∈ tour next ahead name) : inside other := by
  induction ahead, name using tour.induct with
  | case1 ahead name isAhead ih =>
      rw [tour_of_mem isAhead] at found
      rcases List.mem_cons.mp found with rfl | behind
      · exact isInside
      · obtain ⟨middle, follows, found⟩ := List.mem_flatMap.mp behind
        by_cases middleAhead : middle ∈ without name ahead
        · have stillAhead {first : String} (isFirst : first ∈ without name ahead) :
              first ∈ ahead := (mem_without_iff.mp isFirst).1
          refine ih middle ?_ ?_ found
          · exact fun first isFirst firstAhead second follows secondAhead =>
              closed first isFirst (stillAhead firstAhead) second follows (stillAhead secondAhead)
          · exact closed name isInside isAhead middle follows (stillAhead middleAhead)
        · rw [tour_of_not_mem middleAhead] at found
          exact absurd found List.not_mem_nil
  | case2 ahead name notAhead =>
      rw [tour_of_not_mem notAhead] at found
      exact absurd found List.not_mem_nil

end Tour

/-! ## Walks in parts -/

section Walk

variable {parents : ParentNames}

theorem openLinks_append_le (names visited : List String) :
    openLinks parents (names ++ visited) ≤ openLinks parents visited := by
  induction names with
  | nil => exact Nat.le_refl _
  | cons name rest ih =>
      exact Nat.le_trans (openLinks_mono name (rest ++ visited)) ih

theorem walkFrom_congr {steps : Nat} {visited other : List String} (pending : List String)
    (same : ∀ name, name ∈ visited ↔ name ∈ other) :
    walkFrom parents steps visited pending = walkFrom parents steps other pending := by
  induction steps generalizing visited other pending with
  | zero => rfl
  | succ steps ih =>
      cases pending with
      | nil => rfl
      | cons name pending =>
          have longer : ∀ middle, middle ∈ name :: visited ↔ middle ∈ name :: other := by
            simp [same]
          simp only [walkFrom, same name, ih _ same, ih _ longer]

theorem walkFrom_succ {steps : Nat} {visited pending : List String}
    (enough : pending.length + openLinks parents visited ≤ steps) :
    walkFrom parents (steps + 1) visited pending = walkFrom parents steps visited pending := by
  induction steps generalizing visited pending with
  | zero =>
      have nothing : pending = [] := List.length_eq_zero_iff.mp (by omega)
      simp [nothing, walkFrom]
  | succ steps ih =>
      cases pending with
      | nil => rfl
      | cons name pending =>
          rw [List.length_cons] at enough
          have enoughRest : pending.length + openLinks parents visited ≤ steps := by omega
          rw [walkFrom, walkFrom]
          cases found : Keyed.get? name parents with
          | none => exact ih enoughRest
          | some next =>
              by_cases known : name ∈ visited
              · simp only [known, if_true]
                exact ih enoughRest
              · have visit := openLinks_visit found known
                simp only [known, if_false]
                rw [ih (by rw [List.length_append]; omega)]

/-- A walk goes through what is first to visit, and then through the rest with that visited. -/
theorem walkFrom_append {steps : Nat} {visited front back : List String}
    (enough : (front ++ back).length + openLinks parents visited ≤ steps) :
    walkFrom parents steps visited (front ++ back) =
      walkFrom parents steps visited front ++
        walkFrom parents steps (walkFrom parents steps visited front ++ visited) back := by
  induction steps generalizing visited front with
  | zero =>
      have nothing : front ++ back = [] := List.length_eq_zero_iff.mp (by omega)
      obtain ⟨rfl, rfl⟩ := List.append_eq_nil_iff.mp nothing
      rfl
  | succ steps ih =>
      cases front with
      | nil => simp [walkFrom]
      | cons name front =>
          rw [List.cons_append, List.length_cons, List.length_append] at enough
          -- The back is walked with the steps that the front has left; one more does not matter.
          have oneMore (walked : List String) :
              walkFrom parents (steps + 1) (walked ++ visited) back =
                walkFrom parents steps (walked ++ visited) back := by
            have fewer : openLinks parents (walked ++ visited) ≤ openLinks parents visited :=
              openLinks_append_le walked visited
            exact walkFrom_succ (by omega)
          rw [oneMore, List.cons_append, walkFrom, walkFrom]
          cases found : Keyed.get? name parents with
          | none => exact ih (by rw [List.length_append]; omega)
          | some next =>
              by_cases known : name ∈ visited
              · simp only [known, if_true]
                exact ih (by rw [List.length_append]; omega)
              · have visit := openLinks_visit found known
                simp only [known, if_false]
                rw [← List.append_assoc, ih (by simp only [List.length_append]; omega),
                  List.cons_append]
                refine congrArg (name :: _ ++ ·) (walkFrom_congr back ?_)
                intro other
                simp only [List.mem_append, List.mem_cons]
                rw [or_left_comm, or_assoc]

end Walk

/-! ## Walks and tours -/

def nextNames (parents : ParentNames) (name : String) : List String :=
  (Keyed.get? name parents).getD []

section Order

variable {parents : ParentNames}

/-- Whether every visited name that is ahead leads to visited names only. -/
def IsExplored (parents : ParentNames) (ahead visited : List String) : Prop :=
  ∀ name ∈ visited, name ∈ ahead → ∀ other ∈ nextNames parents name,
    (Keyed.get? other parents).isSome = true → other ∈ visited

/-- What is ahead of a walk: names that are known, and all of those that have not been visited. -/
structure IsAhead (parents : ParentNames) (ahead visited : List String) : Prop where
  known : ∀ name ∈ ahead, (Keyed.get? name parents).isSome = true
  unvisited : ∀ name, (Keyed.get? name parents).isSome = true → name ∉ visited → name ∈ ahead
  explored : IsExplored parents ahead visited

theorem IsAhead.mem_visited {ahead visited : List String} (isAhead : IsAhead parents ahead visited)
    {name : String} (isVisited : name ∈ visited) :
    ∀ other ∈ tour (nextNames parents) ahead name, other ∈ visited := by
  intro other found
  exact mem_of_mem_tour (· ∈ visited)
    (fun first isFirst firstAhead second follows secondAhead =>
      isAhead.explored first isFirst firstAhead second follows (isAhead.known second secondAhead))
    isVisited found

/-- A name that is visited is on the way of what is visited behind it. -/
theorem IsAhead.visit {ahead visited : List String} (isAhead : IsAhead parents ahead visited)
    (name : String) : IsAhead parents (without name ahead) (name :: visited) where
  known other member := isAhead.known other (mem_without_iff.mp member).1
  unvisited other isKnown fresh := by
    rw [List.mem_cons, not_or] at fresh
    exact mem_without_iff.mpr ⟨isAhead.unvisited other isKnown fresh.2, fresh.1⟩
  explored other isVisited otherAhead next follows isKnown := by
    obtain ⟨otherAhead, different⟩ := mem_without_iff.mp otherAhead
    have wasVisited := (List.mem_cons.mp isVisited).resolve_left different
    exact List.mem_cons_of_mem _
      (isAhead.explored other wasVisited otherAhead next follows isKnown)

/-- Once a walk has been through what a name extends, the name and all of that are explored. -/
theorem IsAhead.leave {ahead visited : List String} (isAhead : IsAhead parents ahead visited)
    {name : String} {next : List String} (found : Keyed.get? name parents = some next) {steps : Nat}
    (enough : next.length + openLinks parents (name :: visited) ≤ steps) :
    IsAhead parents ahead
      (walkFrom parents steps (name :: visited) next ++ name :: visited) where
  known := isAhead.known
  unvisited other isKnown fresh := by
    simp only [List.mem_append, List.mem_cons, not_or] at fresh
    exact isAhead.unvisited other isKnown fresh.2.2
  explored := by
    obtain ⟨met, closed⟩ := walkFrom_complete enough
    intro middle isVisited middleAhead other follows isKnown
    rw [List.mem_append]
    rcases List.mem_append.mp isVisited with inWalk | wasVisited
    · obtain ⟨links, isMiddle⟩ := Option.isSome_iff_exists.mp (isAhead.known middle middleAhead)
      rw [nextNames, isMiddle] at follows
      exact (closed middle inWalk links isMiddle other follows isKnown).symm
    · rcases List.mem_cons.mp wasVisited with rfl | before
      · rw [nextNames, found] at follows
        exact (met other follows isKnown).symm
      · exact .inr (List.mem_cons_of_mem _
          (isAhead.explored middle before middleAhead other follows isKnown))

theorem filter_distinct_append (items others seen : List String) :
    (distinct (items ++ others)).filter (· ∉ seen) =
      (distinct items).filter (· ∉ seen) ++
        (distinct others).filter (· ∉ (distinct items).filter (· ∉ seen) ++ seen) := by
  rw [distinct_append, List.filter_append, List.filter_filter]
  apply congrArg
  apply List.filter_congr
  intro other _
  by_cases isSeen : other ∈ seen <;> simp [isSeen]

/-- A walk comes to what it has not visited in the order in which tours come to it first. -/
theorem walkFrom_eq_distinct {steps : Nat} {ahead visited pending : List String}
    (isAhead : IsAhead parents ahead visited)
    (enough : pending.length + openLinks parents visited ≤ steps) :
    walkFrom parents steps visited pending =
      (distinct (pending.flatMap (tour (nextNames parents) ahead))).filter (· ∉ visited) := by
  induction steps generalizing ahead visited pending with
  | zero =>
      have nothing : pending = [] := List.length_eq_zero_iff.mp (by omega)
      simp [nothing, walkFrom, distinct]
  | succ steps ih =>
      cases pending with
      | nil => simp [walkFrom, distinct]
      | cons name pending =>
          rw [List.length_cons] at enough
          have enoughRest : pending.length + openLinks parents visited ≤ steps := by omega
          rw [List.flatMap_cons, walkFrom]
          cases found : Keyed.get? name parents with
          | none =>
              have notAhead : name ∉ ahead := fun member => by
                simpa [found] using isAhead.known name member
              rw [tour_of_not_mem notAhead, List.nil_append]
              exact ih isAhead enoughRest
          | some next =>
              by_cases known : name ∈ visited
              · have nothingNew : (distinct (tour (nextNames parents) ahead name)).filter
                    (· ∉ visited) = [] :=
                  List.filter_eq_nil_iff.mpr fun other member => by
                    simpa using isAhead.mem_visited known other (mem_distinct.mp member)
                simp only [known, if_true]
                rw [filter_distinct_append, nothingNew, ih isAhead enoughRest]
                rfl
              · have visit := openLinks_visit found known
                have enoughNext : next.length + openLinks parents (name :: visited) ≤ steps := by
                  omega
                have enoughBoth : (next ++ pending).length + openLinks parents (name :: visited) ≤
                    steps := by
                  rw [List.length_append]
                  omega
                have enoughBehind : openLinks parents
                    (walkFrom parents steps (name :: visited) next ++ name :: visited) ≤
                    openLinks parents (name :: visited) := openLinks_append_le _ _
                have nameAhead : name ∈ ahead :=
                  isAhead.unvisited name (by rw [found]; rfl) known
                have follows : nextNames parents name = next := by rw [nextNames, found]; rfl
                simp only [known, if_false]
                rw [walkFrom_append enoughBoth,
                  ih (isAhead.leave found enoughNext) (by omega),
                  ih (isAhead.visit name) enoughNext, ← filter_distinct_append,
                  tour_of_mem nameAhead, follows, List.cons_append, distinct,
                  List.filter_cons_of_pos (by simpa using known), List.filter_filter]
                apply congrArg
                apply List.filter_congr
                intro other _
                simp [Bool.and_comm]

/-- The names that a name reaches are those of its tour, each at the first place. -/
theorem reachedNames_eq_distinct (parents : ParentNames) (name : String) :
    reachedNames parents name =
      distinct (tour (nextNames parents) (Keyed.keys parents) name) := by
  have isAhead : IsAhead parents (Keyed.keys parents) [] :=
    ⟨fun _ member => Option.isSome_iff_exists.mpr (Keyed.mem_keys_iff.mp member),
      fun _ isKnown _ => Keyed.mem_keys_iff.mpr (Option.isSome_iff_exists.mp isKnown),
      fun _ member => absurd member List.not_mem_nil⟩
  have enough : [name].length + openLinks parents [] ≤ walkBound parents := by
    simp [openLinks, walkBound]
  rw [reachedNames, walkFrom_eq_distinct isAhead enough]
  simp

end Order

/-! ## Extended names -/

def nameOf? : Json.Value → Option String
  | .str name => some name
  | _ => none

/-- The names among what a configuration states to extend. -/
def Configuration.extendedNames (configuration : Configuration) : List String :=
  configuration.extendsFrom.filterMap nameOf?

/-- The names that the configuration of a name extends. -/
def extendedNames (configurations : Configurations) (name : String) : List String :=
  ((Keyed.get? name configurations).map Configuration.extendedNames).getD []

section Names

variable {configurations : Configurations} {parents : ParentNames}

theorem namesIn_of_keys {values : List Json.Value} {keys : List Json.Key}
    (paired : List.Forall₂ (fun value key => value.key? = some key) values keys) :
    namesIn keys = values.filterMap nameOf? := by
  induction paired with
  | nil => rfl
  | cons isKey others ih =>
      rename_i value key _ _
      unfold namesIn at ih ⊢
      rw [List.filterMap_cons, List.filterMap_cons, ih]
      cases value with
      | str name =>
          obtain rfl := Option.some.inj isKey
          rfl
      | real number =>
          obtain rfl := Option.some.inj isKey
          cases number.integer? <;> rfl
      | arr items => exact nomatch isKey
      | obj members => exact nomatch isKey
      | _ =>
          obtain rfl := Option.some.inj isKey
          rfl

theorem parents_eq {configuration : Configuration} {names : List String}
    (made : configuration.parents = .ok names) : names = configuration.extendedNames := by
  unfold Configuration.parents at made
  cases keys : keysOf configuration.extendsFrom with
  | error failure => simp [keys, Except.map] at made
  | ok found =>
      rw [keys] at made
      obtain rfl := Except.ok.inj made
      exact namesIn_of_keys (keysOf_eq_ok keys)

theorem exists_parentNames (withoutParts : ∀ entry ∈ configurations,
      ∀ value ∈ entry.2.extendsFrom, value.key?.isSome = true) :
    ∃ parents, parentNames configurations = .ok parents := by
  induction configurations with
  | nil => exact ⟨[], rfl⟩
  | cons entry rest ih =>
      rw [List.forall_mem_cons] at withoutParts
      obtain ⟨keys, areKeys⟩ := keysOf_total withoutParts.1
      obtain ⟨others, areOthers⟩ := ih withoutParts.2
      exact ⟨(entry.1, namesIn keys) :: others, by
        rw [parentNames, areOthers, Configuration.parents, areKeys]; rfl⟩

theorem keys_parentNames (made : parentNames configurations = .ok parents) :
    Keyed.keys parents = Keyed.keys configurations := by
  have related := related_parentNames made
  clear made
  induction related with
  | nil => rfl
  | cons first others ih =>
      rw [Keyed.keys, Keyed.keys, List.map_cons, List.map_cons, first.1]
      exact congrArg _ ih

theorem nextNames_eq (made : parentNames configurations = .ok parents) :
    nextNames parents = extendedNames configurations := by
  funext name
  have both := (related_parentNames made).get? name
  rw [nextNames, extendedNames]
  generalize Keyed.get? name configurations = configuration at both
  generalize Keyed.get? name parents = names at both
  cases both with
  | none => rfl
  | some areParents => exact parents_eq areParents

theorem mem_extendedNames_iff {configuration : Configuration} {name : String} :
    name ∈ configuration.extendedNames ↔ .str name ∈ configuration.extendsFrom := by
  rw [Configuration.extendedNames, List.mem_filterMap]
  constructor
  · rintro ⟨value, member, isName⟩
    unfold nameOf? at isName
    split at isName
    · obtain rfl := Option.some.inj isName
      exact member
    · exact nomatch isName
  · exact fun member => ⟨_, member, rfl⟩

/-- What a tour comes to is extended, directly or through others. -/
theorem reaches_of_mem_tour {name other : String}
    (found : other ∈ tour (extendedNames configurations) (Keyed.keys configurations) name) :
    Relation.ReflTransGen (Extends configurations) name other := by
  refine mem_of_mem_tour (Relation.ReflTransGen (Extends configurations) name)
    (fun first leads isKnown second follows secondKnown => leads.tail ?_) .refl found
  obtain ⟨configuration, found⟩ := Keyed.mem_keys_iff.mp isKnown
  rw [extendedNames, found] at follows
  exact ⟨configuration, found, mem_extendedNames_iff.mp follows,
    Option.isSome_iff_exists.mpr (Keyed.mem_keys_iff.mp secondKnown)⟩

/-- A name reaches itself, if it is known, and what it extends, directly or through others. -/
theorem mem_reachedNames_iff (made : parentNames configurations = .ok parents) {name other : String}
    (known : name ∈ Keyed.keys configurations) :
    other ∈ reachedNames parents name ↔
      Relation.ReflTransGen (Extends configurations) name other := by
  constructor
  · intro member
    rw [reachedNames_eq_distinct, mem_distinct, nextNames_eq made, keys_parentNames made] at member
    exact reaches_of_mem_tour member
  · intro leads
    rw [← keys_parentNames made, Keyed.mem_keys_iff, ← Option.isSome_iff_exists] at known
    exact (isClosed_reachedNames parents name).mem_of_extends made (mem_reachedNames_self known)
      leads

end Names

/-! ## Gathered content -/

section Gather

variable {configurations : Configurations} {parents : ParentNames}

theorem mem_entries_gather {own : Configuration} {reached : List Configuration} {entry : Entry} :
    entry ∈ (own.gather reached).entries ↔ ∃ found ∈ reached, entry ∈ found.entries := by
  simp only [Configuration.entries, Configuration.gather, List.map_flatMap, List.mem_append,
    List.mem_flatMap, and_or_left, exists_or]

/-- The configuration that a name is flattened to. -/
def gathered (parents : ParentNames) (configurations : Configurations) (name : String)
    (own : Configuration) : Configuration :=
  { own.gather ((reachedNames parents name).filterMap (Keyed.get? · configurations)) with
    name := name }

theorem flatten_eq (made : parentNames configurations = .ok parents) :
    flatten configurations =
      .ok (configurations.map fun entry =>
        (entry.1, gathered parents configurations entry.1 entry.2)) := by
  rw [flatten, made]
  rfl

theorem mem_entries_gathered {name : String} {own : Configuration} {entry : Entry} :
    entry ∈ (gathered parents configurations name own).entries ↔ ∃ other found,
      other ∈ reachedNames parents name ∧ Keyed.get? other configurations = some found ∧
        entry ∈ found.entries := by
  have isOwn : (gathered parents configurations name own).entries =
      (own.gather ((reachedNames parents name).filterMap (Keyed.get? · configurations))).entries :=
    rfl
  rw [isOwn, mem_entries_gather]
  simp only [List.mem_filterMap]
  constructor
  · rintro ⟨found, ⟨other, isReached, isThere⟩, member⟩
    exact ⟨other, found, isReached, isThere, member⟩
  · rintro ⟨other, found, isReached, isThere, member⟩
    exact ⟨found, ⟨other, isReached, isThere⟩, member⟩

/-- Known names have their configurations, in order. -/
theorem forall₂_filterMap_get? {names : List String}
    (known : ∀ name ∈ names, name ∈ Keyed.keys configurations) :
    List.Forall₂ (fun name found => Keyed.get? name configurations = some found) names
      (names.filterMap (Keyed.get? · configurations)) := by
  induction names with
  | nil => exact .nil
  | cons name rest ih =>
      rw [List.forall_mem_cons] at known
      obtain ⟨found, isThere⟩ := Keyed.mem_keys_iff.mp known.1
      rw [List.filterMap_cons, isThere]
      exact .cons isThere (ih known.2)

theorem mem_keys_of_reaches {name other : String} (known : name ∈ Keyed.keys configurations)
    (leads : Relation.ReflTransGen (Extends configurations) name other) :
    other ∈ Keyed.keys configurations := by
  cases leads with
  | refl => exact known
  | tail _ last =>
      obtain ⟨_, _, _, isKnown⟩ := last
      exact Keyed.mem_keys_iff.mpr (Option.isSome_iff_exists.mp isKnown)

end Gather

/-! ## Flattened configurations -/

/-- Names in the order in which a walk from a name comes to them that goes deep before it goes wide:
the name is the first one, each name that it reaches has one place, and a name comes before another
one if a tour comes to it first. -/
structure DepthFirst (configurations : Configurations) (name : String) (order : List String) :
    Prop where
  first : order.head? = some name
  nodup : order.Nodup
  reached : ∀ other,
    other ∈ order ↔ Relation.ReflTransGen (Extends configurations) name other
  visits : order =
    distinct (tour (extendedNames configurations) (Keyed.keys configurations) name)

section Flatten

variable {configurations : Configurations} {parents : ParentNames}

theorem depthFirst_reachedNames (made : parentNames configurations = .ok parents) {name : String}
    (known : name ∈ Keyed.keys configurations) :
    DepthFirst configurations name (reachedNames parents name) := by
  have visits : reachedNames parents name =
      distinct (tour (extendedNames configurations) (Keyed.keys configurations) name) := by
    rw [reachedNames_eq_distinct, nextNames_eq made, keys_parentNames made]
  refine ⟨?_, ?_, fun other => mem_reachedNames_iff made known, visits⟩
  · rw [visits, tour_of_mem known]
    rfl
  · rw [visits]
    exact nodup_distinct _

/-- Flattening keeps the names and what each of them extends, and gives each of them the content of
the configurations that it reaches, once and in the order of a walk that goes deep before it goes
wide. -/
theorem flattening_is_exact
    (withoutParts : ∀ entry ∈ configurations, ∀ value ∈ entry.2.extendsFrom,
      value.key?.isSome = true) :
    ∃ flattened, flatten configurations = .ok flattened ∧
      Keyed.keys flattened = Keyed.keys configurations ∧
      ∀ name own, Keyed.get? name configurations = some own → ∃ order reached,
        DepthFirst configurations name order ∧
        List.Forall₂ (fun other found => Keyed.get? other configurations = some found) order
          reached ∧
        Keyed.get? name flattened = some {
          name := name
          extendsFrom := own.extendsFrom
          declared := reached.flatMap Configuration.declared
          artifacts := reached.flatMap Configuration.artifacts
          unresolved := reached.flatMap Configuration.unresolved
          references := reached.flatMap Configuration.references } ∧
        ∀ identity, HasEntry flattened [name] identity ↔ ∃ other,
          Relation.ReflTransGen (Extends configurations) name other ∧
            HasEntry configurations [other] identity := by
  obtain ⟨parents, made⟩ := exists_parentNames withoutParts
  refine ⟨_, flatten_eq made, by simp [Keyed.keys], ?_⟩
  intro name own isOwn
  have known : name ∈ Keyed.keys configurations := Keyed.mem_keys_iff.mpr ⟨own, isOwn⟩
  have order := depthFirst_reachedNames made known
  have flattened : Keyed.get? name (configurations.map fun entry =>
      (entry.1, gathered parents configurations entry.1 entry.2)) =
        some (gathered parents configurations name own) := by
    rw [Keyed.get?_map_values, isOwn]
    rfl
  have allKnown : ∀ other ∈ reachedNames parents name, other ∈ Keyed.keys configurations :=
    fun other member => mem_keys_of_reaches known ((order.reached other).mp member)
  refine ⟨_, _, order, forall₂_filterMap_get? allKnown, flattened, ?_⟩
  intro identity
  simp only [HasEntry, List.mem_singleton, exists_eq_left, flattened, Option.some.injEq,
    exists_eq_left', mem_entries_gathered, order.reached]
  constructor
  · rintro ⟨entry, ⟨other, found, leads, isThere, member⟩, isEntry⟩
    exact ⟨other, leads, found, isThere, entry, member, isEntry⟩
  · rintro ⟨other, leads, found, isThere, entry, member, isEntry⟩
    exact ⟨entry, ⟨other, found, leads, isThere, member⟩, isEntry⟩

end Flatten

/-- A configuration that extends others and refers to the project of its own name. -/
def linkedConfiguration (name : String) (extended : List String) : String × Configuration :=
  (name, { Configuration.empty name with
    extendsFrom := extended.map .str
    declared := [.str name]
    references := [.project (.str name)] })

/-- Configurations with a cycle, a diamond, a parent that is repeated, one that extends itself and
one that is unknown. -/
def tangledConfigurations : Configurations :=
  [linkedConfiguration "app" ["left", "right", "app", "none", "left"],
    linkedConfiguration "left" ["base"], linkedConfiguration "right" ["base", "app"],
    linkedConfiguration "base" ["right"], linkedConfiguration "other" []]

theorem tangled_flattening_is_exact :
    (∀ entry ∈ tangledConfigurations, ∀ value ∈ entry.2.extendsFrom, value.key?.isSome = true) ∧
      ∃ flattened found, flatten tangledConfigurations = .ok flattened ∧
        Keyed.get? "app" flattened = some found ∧
        found.declared = [.str "app", .str "left", .str "base", .str "right"] ∧
        HasEntry flattened ["app"] "project base" := by
  have withoutParts : ∀ entry ∈ tangledConfigurations, ∀ value ∈ entry.2.extendsFrom,
      value.key?.isSome = true := by
    decide
  obtain ⟨flattened, areFlattened, _, each⟩ := flattening_is_exact withoutParts
  obtain ⟨order, reached, visits, found, isFlattened, entries⟩ :=
    each "app" _ (show Keyed.get? "app" tangledConfigurations = some _ from rfl)
  have known : "app" ∈ Keyed.keys tangledConfigurations := by decide
  obtain ⟨parents, made⟩ := exists_parentNames withoutParts
  have isParents : parents = [("app", ["left", "right", "app", "none", "left"]),
      ("left", ["base"]), ("right", ["base", "app"]), ("base", ["right"]), ("other", [])] :=
    (Except.ok.inj made).symm
  have isOrder : order = ["app", "left", "base", "right"] := by
    rw [visits.visits, ← (depthFirst_reachedNames made known).visits, isParents]
    decide
  subst isOrder
  refine ⟨withoutParts, flattened, _, areFlattened, isFlattened, ?_, ?_⟩
  · rcases found with _ | ⟨isApp, _ | ⟨isLeft, _ | ⟨isBase, _ | ⟨isRight, _ | _⟩⟩⟩⟩
    obtain rfl := Option.some.inj isApp
    obtain rfl := Option.some.inj isLeft
    obtain rfl := Option.some.inj isBase
    obtain rfl := Option.some.inj isRight
    rfl
  · refine (entries "project base").mpr ⟨"base", ?_, ?_⟩
    · exact (visits.reached "base").mp (by decide)
    · exact ⟨"base", List.mem_singleton_self _, _, rfl, _, List.mem_singleton_self _, rfl⟩

end IdeModules
