import IdeModules.Proofs.Descriptor.RoundTrip
import IdeModules.Proofs.FirstPlaces

/-!
# Grouped order entries

Reading a descriptor regroups the order entries of a module element.  An entry
that stands for a library goes to the scope that it names, exactly once, and the
entries of one scope keep the order of the document.  Of the development kits
the last one counts.
-/

namespace IdeModules

open Xml

/-! ## What a document states -/

namespace Xml.Element

def elements (element : Element) : List Element :=
  element.children.filterMap Node.element?

/-- The order entries of the first root manager of a module element, in document order. -/
def orderEntries (root : Element) : List Element :=
  let manager := root.elements.find? fun component =>
    component.name = Name.plain "component" ∧
      component.attribute? "name" = some "NewModuleRootManager"
  match manager with
  | none => []
  | some component => component.elements.filter (·.name = Name.plain "orderEntry")

/-- Whether an order entry stands for a library: one of the module's own, or another module. -/
def IsLibraryEntry (entry : Element) : Prop :=
  entry.attribute? "type" = some "module-library" ∨ entry.attribute? "type" = some "module"

instance (entry : Element) : Decidable entry.IsLibraryEntry :=
  inferInstanceAs (Decidable (_ ∨ _))

/-- The scope that an order entry names; without a name it is that of compiling. -/
def scopeName (entry : Element) : String :=
  match entry.attribute? "scope" with
  | none => "COMPILE"
  | some name => if name = "" then "COMPILE" else name

/-- Whether a library is the one that an order entry stands for.  A marked name makes a
placeholder, whose parts stand between blanks. -/
inductive States (entry : Element) : Library → Prop where
  | otherModule (isModule : entry.attribute? "type" = some "module") :
    entry.States (.otherModule entry.scopeName ((entry.attribute? "module-name").getD ""))
  | bare (isOwn : entry.attribute? "type" = some "module-library")
      (nothing : entry.child? "library" = none) :
    entry.States (.files entry.scopeName [] [] [])
  | placeholder {library : Element} {rest : String}
      (isOwn : entry.attribute? "type" = some "module-library")
      (holds : entry.child? "library" = some library)
      (marked : library.attribute? "name" = some ("unresolved dependency - " ++ rest)) :
    entry.States (.unresolved entry.scopeName ((pieces ' ' rest).getD 0 "")
      ((pieces ' ' rest).getD 1 "") (pieces ' ' rest)[2]?)
  | files {library : Element} (isOwn : entry.attribute? "type" = some "module-library")
      (holds : entry.child? "library" = some library)
      (unmarked : ∀ rest, library.attribute? "name" ≠ some ("unresolved dependency - " ++ rest)) :
    entry.States (.files entry.scopeName (rootUrls library "CLASSES")
      (rootUrls library "JAVADOC") (rootUrls library "SOURCES"))

end Xml.Element

def libraryEntries (entries : List Element) : List Element :=
  entries.filter fun entry => entry.IsLibraryEntry

def entriesInScope (entries : List Element) (name : String) : List Element :=
  (libraryEntries entries).filter fun entry => entry.scopeName = name

/-- The scopes that entries name for their libraries, in document order. -/
def namedScopes (entries : List Element) : List String :=
  (libraryEntries entries).map Element.scopeName

/-- The name of the last development kit among entries. -/
def lastKit? (entries : List Element) : Option String :=
  (entries.reverse.find? fun entry => entry.attribute? "type" = some "jdk").bind fun entry =>
    entry.attribute? "jdkName"

/-- The entry that a development kit is written as; one without a name is that of the project. -/
def kitEntry : Option String → OrderEntry
  | none => .inheritedJdk
  | some name => if name = "" then .inheritedJdk else .jdk (.str name)

/-- Whether scopes are those named, the built-in ones by their priority, then the others as they
are named first. -/
inductive BuiltInFirst (named : List String) : List String → Prop where
  | append {others : List String}
      (firsts : FirstPlaces (· ∉ ["PROVIDED", "COMPILE", "RUNTIME", "TEST"]) named others) :
    BuiltInFirst named
      (["PROVIDED", "COMPILE", "RUNTIME", "TEST"].filter (· ∈ named) ++ others)

/-- Whether a descriptor has the order entries of a document, grouped by scope. -/
structure Regroups (entries : List Element) (descriptor : Descriptor) : Prop where
  scopesDistinct : (Keyed.keys descriptor.scopes).Nodup
  scopesOrdered : BuiltInFirst (namedScopes entries) (Keyed.keys descriptor.scopes)
  oneScope : ∀ entry ∈ libraryEntries entries,
    ∃! scope, scope ∈ descriptor.scopes ∧ entry ∈ entriesInScope entries scope.1
  nonempty : ∀ scope ∈ descriptor.scopes, scope.2 ≠ []
  documentOrder : ∀ scope ∈ descriptor.scopes,
    List.Forall₂ Element.States (entriesInScope entries scope.1) scope.2
  kit : descriptor.jdkName = ((lastKit? entries).map Json.Value.str).getD .null
  rearranged : ((Keyed.keys descriptor.scopes).flatMap (entriesInScope entries)).Perm
    (libraryEntries entries)
  writingOrder : ∃ libraries,
    List.Forall₂ Element.States ((Keyed.keys descriptor.scopes).flatMap (entriesInScope entries))
      libraries ∧
    descriptor.orderEntries = kitEntry (lastKit? entries) :: .sources :: libraries.map .library

/-! ## Entries -/

namespace Xml.Element

theorem childrenNamed_eq_filter (element : Element) (name : String) :
    element.childrenNamed name = element.elements.filter (·.name = Name.plain name) := by
  rw [childrenNamed, elements, List.filter_filterMap, List.filterMap_filter]
  apply List.filterMap_congr
  intro node _
  cases node with
  | comment content tail => rfl
  | element found attributes text children tail =>
      by_cases same : found = Name.plain name <;>
        simp [Node.isNamed, Node.element?, Option.filter, same]

end Xml.Element

theorem component?_rootManager (root : Element) :
    component? root rootManager = root.elements.find? fun component =>
      component.name = Name.plain "component" ∧
        component.attribute? "name" = some "NewModuleRootManager" := by
  have same : isComponent rootManager = fun node => node.element?.any fun component =>
      component.name = Name.plain "component" ∧
        component.attribute? "name" = some "NewModuleRootManager" := by
    funext node
    cases node with
    | comment content tail => rfl
    | element found attributes text children tail =>
        simp [isComponent, rootManager, Node.isNamed, Node.element?, beq_eq_decide]
  rw [component?, Element.elements, List.find?_filterMap, same]

section Entry

variable {entry : Element} {library : Library}

theorem scopeOf_eq_scopeName (entry : Element) : scopeOf entry = entry.scopeName := by
  unfold scopeOf Element.scopeName
  cases entry.attribute? "scope" with
  | none => rfl
  | some name => by_cases empty : name = "" <;> simp [Option.filter, empty]

/-- A name that starts with the mark of placeholders is the mark and a rest. -/
theorem exists_rest_of_isPrefixOf {name : Option String}
    (starts : placeholderMark.toList.isPrefixOf (name.getD "").toList = true) :
    ∃ rest, name = some (placeholderMark ++ rest) := by
  obtain ⟨rest, isName⟩ := List.isPrefixOf_iff_prefix.mp starts
  cases name with
  | none => simp [placeholderMark] at isName
  | some text =>
      refine ⟨String.ofList rest, congrArg some (String.toList_injective ?_)⟩
      rw [String.toList_append, String.toList_ofList, isName, Option.getD_some]

section Own

variable {held : Element} (holds : entry.child? "library" = some held) (scope : String)

include holds

theorem moduleLibraryOf_of_marked {rest : String}
    (marked : held.attribute? "name" = some (placeholderMark ++ rest)) :
    moduleLibraryOf scope entry = .unresolved scope ((pieces ' ' rest).getD 0 "")
      ((pieces ' ' rest).getD 1 "") (pieces ' ' rest)[2]? := by
  obtain ⟨isMarked, dropped⟩ := drop_placeholderMark rest.toList
  simp only [moduleLibraryOf, holds, marked, Option.getD_some, String.toList_append, isMarked,
    if_true, dropped, placeholderOf, String.ofList_toList]

theorem moduleLibraryOf_of_unmarked
    (unmarked : ∀ rest, held.attribute? "name" ≠ some (placeholderMark ++ rest)) :
    moduleLibraryOf scope entry = .files scope (rootUrls held "CLASSES")
      (rootUrls held "JAVADOC") (rootUrls held "SOURCES") := by
  have notMarked := fun starts => not_exists_of_forall_not unmarked
    (exists_rest_of_isPrefixOf starts)
  simp only [moduleLibraryOf, holds, if_neg notMarked]

end Own

theorem states_moduleLibraryOf (isOwn : entry.attribute? "type" = some "module-library") :
    entry.States (moduleLibraryOf entry.scopeName entry) := by
  cases holds : entry.child? "library" with
  | none =>
      simp only [moduleLibraryOf, holds]
      exact .bare isOwn holds
  | some held =>
      by_cases marked : ∃ rest, held.attribute? "name" = some (placeholderMark ++ rest)
      · obtain ⟨rest, isMarked⟩ := marked
        rw [moduleLibraryOf_of_marked holds _ isMarked]
        exact .placeholder isOwn holds isMarked
      · have unmarked := forall_not_of_not_exists marked
        rw [moduleLibraryOf_of_unmarked holds _ unmarked]
        exact .files isOwn holds unmarked

/-- The library that is read from an order entry is the one that the entry stands for. -/
theorem libraryOf_eq_some_iff : libraryOf entry = some library ↔ entry.States library := by
  rw [libraryOf, scopeOf_eq_scopeName]
  constructor
  · intro read
    split at read
    · rename_i isModule
      cases read
      exact .otherModule isModule
    · rename_i isOwn
      cases read
      exact states_moduleLibraryOf isOwn
    · cases read
  · intro states
    cases states with
    | otherModule isModule => simp only [isModule]
    | bare isOwn nothing => simp only [isOwn, moduleLibraryOf, nothing]
    | placeholder isOwn holds marked => simp only [isOwn, moduleLibraryOf_of_marked holds _ marked]
    | files isOwn holds unmarked =>
        simp only [isOwn, moduleLibraryOf_of_unmarked holds _ unmarked]

theorem Xml.Element.States.scope_eq (states : entry.States library) :
    library.scope = entry.scopeName := by
  cases states <;> rfl

theorem Xml.Element.isLibraryEntry_iff :
    entry.IsLibraryEntry ↔ ∃ library, entry.States library := by
  constructor
  · rintro (isOwn | isModule)
    · exact ⟨_, states_moduleLibraryOf isOwn⟩
    · exact ⟨_, .otherModule isModule⟩
  · rintro ⟨library, states⟩
    cases states with
    | otherModule isModule => exact .inr isModule
    | bare isOwn _ => exact .inl isOwn
    | placeholder isOwn _ _ => exact .inl isOwn
    | files isOwn _ _ => exact .inl isOwn

end Entry

/-- Each entry that stands for a library is read as that library, in document order. -/
theorem forall₂_states (entries : List Element) :
    List.Forall₂ Element.States (libraryEntries entries) (entries.filterMap libraryOf) := by
  induction entries with
  | nil => exact .nil
  | cons entry rest ih =>
      rw [libraryEntries] at ih ⊢
      cases read : libraryOf entry with
      | none =>
          have other : ¬entry.IsLibraryEntry := by
            rw [Element.isLibraryEntry_iff]
            rintro ⟨library, states⟩
            rw [libraryOf_eq_some_iff.mpr states] at read
            cases read
          rw [List.filter_cons_of_neg (by simpa using other), List.filterMap_cons_none read]
          exact ih
      | some library =>
          have states := libraryOf_eq_some_iff.mp read
          have isEntry := Element.isLibraryEntry_iff.mpr ⟨library, states⟩
          rw [List.filter_cons_of_pos (by simpa using isEntry), List.filterMap_cons_some read]
          exact .cons states ih

/-! ## Groups -/

/-- The groups of all keys of a list make up the list. -/
theorem perm_flatMap_filter {α κ : Type} [DecidableEq κ] (key : α → κ) {keys : List κ}
    (nodup : keys.Nodup) {items : List α} (covered : ∀ item ∈ items, key item ∈ keys) :
    (keys.flatMap fun known => items.filter fun item => key item = known).Perm items := by
  induction keys generalizing items with
  | nil =>
      have nothing : items = [] := List.eq_nil_iff_forall_not_mem.mpr fun item member =>
        List.not_mem_nil (covered item member)
      rw [nothing]
      exact .refl _
  | cons known others ih =>
      obtain ⟨fresh, othersNodup⟩ := List.nodup_cons.mp nodup
      -- What is not in the first group is in the others, and they hold nothing else.
      have remaining : (others.flatMap fun other => items.filter fun item => key item = other) =
          others.flatMap fun other =>
            (items.filter fun item => ¬key item = known).filter fun item => key item = other := by
        apply List.flatMap_congr
        intro other member
        rw [List.filter_filter]
        apply List.filter_congr
        intro item _
        have different : other ≠ known := fun same => fresh (same ▸ member)
        by_cases isOther : key item = other <;> simp [isOther, different]
      have covers : ∀ item ∈ items.filter fun item => ¬key item = known, key item ∈ others := by
        intro item member
        obtain ⟨isItem, different⟩ := List.mem_filter.mp member
        exact (List.mem_cons.mp (covered item isItem)).resolve_left (by simpa using different)
      rw [List.flatMap_cons, remaining]
      refine ((ih othersNodup covers).append_left _).trans ?_
      simpa using List.filter_append_perm (fun item => decide (key item = known)) items

theorem keys_addToGroup (scopes : ScopedLibraries) (library : Library) :
    Keyed.keys (addToGroup scopes library) = pushNew (Keyed.keys scopes) library.scope :=
  Keyed.keys_put _ _ _

theorem get?_addToGroup (scopes : ScopedLibraries) (library : Library) (name : String) :
    (Keyed.get? name (addToGroup scopes library)).getD [] =
      (Keyed.get? name scopes).getD [] ++ [library].filter fun other => other.scope = name := by
  rw [addToGroup, Keyed.get?_put]
  by_cases own : library.scope = name <;> simp [own]

theorem keys_groupByScope (libraries : List Library) :
    Keyed.keys (groupByScope libraries) = distinct (libraries.map Library.scope) := by
  have gathered (scopes : ScopedLibraries) : Keyed.keys (libraries.foldl addToGroup scopes) =
      (libraries.map Library.scope).foldl pushNew (Keyed.keys scopes) := by
    induction libraries generalizing scopes with
    | nil => rfl
    | cons library rest ih =>
        rw [List.foldl_cons, ih, keys_addToGroup, List.map_cons, List.foldl_cons]
  have started := (gathered []).trans (foldl_pushNew _ _)
  rwa [List.filter_eq_self.mpr (by simp [Keyed.keys])] at started

/-- A group holds the members of its scope in their order. -/
theorem get?_groupByScope (libraries : List Library) (name : String) :
    (Keyed.get? name (groupByScope libraries)).getD [] =
      libraries.filter fun library => library.scope = name := by
  have gathered (scopes : ScopedLibraries) :
      (Keyed.get? name (libraries.foldl addToGroup scopes)).getD [] =
        (Keyed.get? name scopes).getD [] ++
          libraries.filter fun library => library.scope = name := by
    induction libraries generalizing scopes with
    | nil => simp
    | cons library rest ih =>
        rw [List.foldl_cons, ih, get?_addToGroup, List.append_assoc,
          ← List.filter_append, List.singleton_append]
  exact gathered []

/-- The scopes that are named, in the order in which they are read. -/
def scopeSequence (named : List String) : List String :=
  builtInScopes.filter (· ∈ named) ++ (distinct named).filter (· ∉ builtInScopes)

theorem mem_scopeSequence {named : List String} {name : String} :
    name ∈ scopeSequence named ↔ name ∈ named := by
  by_cases isBuiltIn : name ∈ builtInScopes <;> simp [scopeSequence, isBuiltIn]

theorem nodup_scopeSequence (named : List String) : (scopeSequence named).Nodup := by
  refine List.nodup_append.mpr ⟨?_, (nodup_distinct named).filter _, ?_⟩
  · exact List.Nodup.filter _ (by decide)
  · rintro name isBuiltIn _ isOther rfl
    have notBuiltIn := of_decide_eq_true (List.mem_filter.mp isOther).2
    exact notBuiltIn (List.mem_filter.mp isBuiltIn).1

theorem builtInFirst_scopeSequence (named : List String) :
    BuiltInFirst named (scopeSequence named) := by
  rw [scopeSequence, filter_distinct]
  exact .append (firstPlaces_distinct_filter (· ∉ builtInScopes) named)

/-- Libraries are read into the scopes that they name. -/
theorem orderScopes_groupByScope (libraries : List Library) :
    orderScopes (groupByScope libraries) =
      (scopeSequence (libraries.map Library.scope)).map fun name =>
        (name, libraries.filter fun library => library.scope = name) := by
  have isKey {name : String} : name ∈ Keyed.keys (groupByScope libraries) ↔
      name ∈ libraries.map Library.scope := by
    rw [keys_groupByScope, mem_distinct]
  have sequence : (builtInScopes ++ (Keyed.keys (groupByScope libraries)).filter
        (· ∉ builtInScopes)).filter (· ∈ Keyed.keys (groupByScope libraries)) =
      scopeSequence (libraries.map Library.scope) := by
    rw [List.filter_append, List.filter_filter, scopeSequence, keys_groupByScope]
    congr 1
    · simp only [mem_distinct]
    · apply List.filter_congr
      intro name member
      simp [member]
  rw [orderScopes, ← filterMap_known, sequence]
  apply Eq.trans _ (congrFun List.filterMap_eq_map _)
  apply List.filterMap_congr
  intro name member
  obtain ⟨held, found⟩ := Keyed.mem_keys_iff.mp (isKey.mpr (mem_scopeSequence.mp member))
  have group := get?_groupByScope libraries name
  rw [found, Option.getD_some] at group
  rw [found, group]
  rfl

/-! ## Development kits -/

/-- The kit of a descriptor is the last one among its entries. -/
theorem jdkNameOf_eq_lastKit (entries : List Element) :
    Descriptor.jdkNameOf entries = ((lastKit? entries).map Json.Value.str).getD .null := by
  have last : ((entries.filter isJdkEntry).map fun entry => entry.attribute? "jdkName").getLast? =
      (entries.reverse.find? fun entry => entry.attribute? "type" = some "jdk").map fun entry =>
        entry.attribute? "jdkName" := by
    have isJdk : isJdkEntry = fun entry => decide (entry.attribute? "type" = some "jdk") := by
      funext entry
      exact beq_eq_decide _ _
    rw [List.getLast?_map, ← List.head?_reverse, ← List.filter_reverse, List.head?_filter, isJdk]
  rw [Descriptor.jdkNameOf, last, lastKit?]
  cases entries.reverse.find? fun entry => entry.attribute? "type" = some "jdk" with
  | none => rfl
  | some entry =>
      rw [Option.map_some, Option.bind_some]
      cases entry.attribute? "jdkName" <;> rfl

theorem jdkEntry_of_jdkName {descriptor : Descriptor} {kit : Option String}
    (isKit : descriptor.jdkName = (kit.map Json.Value.str).getD .null) :
    descriptor.jdkEntry = kitEntry kit := by
  rw [Descriptor.jdkEntry, isKit]
  cases kit with
  | none => rfl
  | some name => by_cases empty : name = "" <;> simp [Json.Value.isEmpty, kitEntry, empty]

/-! ## Descriptors -/

section Reading

variable (name : Json.Value) (root : Element)

theorem ofElement_scopes : (Descriptor.ofElement name root).scopes =
    orderScopes (groupByScope (root.orderEntries.filterMap libraryOf)) := by
  rw [Descriptor.ofElement, Element.orderEntries, ← component?_rootManager]
  cases component? root rootManager with
  | none => rfl
  | some component =>
      simp only [Descriptor.ofComponent, Element.childrenNamed_eq_filter]

theorem ofElement_jdkName : (Descriptor.ofElement name root).jdkName =
    Descriptor.jdkNameOf root.orderEntries := by
  rw [Descriptor.ofElement, Element.orderEntries, ← component?_rootManager]
  cases component? root rootManager with
  | none => rfl
  | some component =>
      simp only [Descriptor.ofComponent, Element.childrenNamed_eq_filter]

end Reading

/-! ## Regrouped entries -/

theorem scopeName_mem_namedScopes {entries : List Element} {entry : Element}
    (isEntry : entry ∈ libraryEntries entries) : entry.scopeName ∈ namedScopes entries :=
  List.mem_map_of_mem isEntry

theorem map_scope_filterMap_libraryOf (entries : List Element) :
    (entries.filterMap libraryOf).map Library.scope = namedScopes entries := by
  have same := List.rel_map (P := Eq) (fun entry library states => states.scope_eq.symm)
    (forall₂_states entries)
  rw [List.forall₂_eq_eq_eq] at same
  exact same.symm

/-- A group of libraries by the entries that name its scope. -/
theorem forall₂_states_of_scope (entries : List Element) (name : String) :
    List.Forall₂ Element.States (entriesInScope entries name)
      ((entries.filterMap libraryOf).filter fun library => library.scope = name) := by
  apply List.rel_filter _ (forall₂_states entries)
  intro entry library states
  simp only [states.scope_eq]

section Groups

variable {entries : List Element} {descriptor : Descriptor}
  (isGrouped : descriptor.scopes = (scopeSequence (namedScopes entries)).map fun name =>
    (name, (entries.filterMap libraryOf).filter fun library => library.scope = name))

include isGrouped

theorem keys_of_grouped : Keyed.keys descriptor.scopes = scopeSequence (namedScopes entries) := by
  rw [Keyed.keys, isGrouped, List.map_map]
  exact List.map_id _

theorem existsUnique_scope {entry : Element} (isEntry : entry ∈ libraryEntries entries) :
    ∃! scope, scope ∈ descriptor.scopes ∧ entry ∈ entriesInScope entries scope.1 := by
  have isNamed := mem_scopeSequence.mpr (scopeName_mem_namedScopes isEntry)
  rw [isGrouped]
  refine ⟨_, ⟨List.mem_map_of_mem isNamed, List.mem_filter.mpr ⟨isEntry, decide_eq_true rfl⟩⟩, ?_⟩
  rintro scope ⟨member, holds⟩
  obtain ⟨name, _, rfl⟩ := List.mem_map.mp member
  have named : entry.scopeName = name := of_decide_eq_true (List.mem_filter.mp holds).2
  rw [named]

theorem nonempty_of_grouped {scope : String × List Library} (member : scope ∈ descriptor.scopes) :
    scope.2 ≠ [] := by
  rw [isGrouped] at member
  obtain ⟨name, isNamed, rfl⟩ := List.mem_map.mp member
  rw [mem_scopeSequence, ← map_scope_filterMap_libraryOf] at isNamed
  obtain ⟨library, isRead, inScope⟩ := List.mem_map.mp isNamed
  exact List.ne_nil_of_mem (List.mem_filter.mpr ⟨isRead, decide_eq_true inScope⟩)

theorem forall₂_states_of_grouped {scope : String × List Library}
    (member : scope ∈ descriptor.scopes) :
    List.Forall₂ Element.States (entriesInScope entries scope.1) scope.2 := by
  rw [isGrouped] at member
  obtain ⟨name, _, rfl⟩ := List.mem_map.mp member
  exact forall₂_states_of_scope entries name

theorem forall₂_states_libraries :
    List.Forall₂ Element.States ((Keyed.keys descriptor.scopes).flatMap (entriesInScope entries))
      descriptor.libraries := by
  have byScope : List.Forall₂ (List.Forall₂ Element.States)
      (descriptor.scopes.map fun scope => entriesInScope entries scope.1)
      (descriptor.scopes.map Prod.snd) := by
    rw [List.forall₂_map_left_iff, List.forall₂_map_right_iff, List.forall₂_same]
    exact fun scope member => forall₂_states_of_grouped isGrouped member
  rw [Keyed.keys, List.flatMap_map, List.flatMap_def]
  exact List.rel_flatten byScope

end Groups

/-- Reading a descriptor regroups the order entries of its tree.  Every entry that stands for a
library is in exactly one scope, the one that it names, behind those before it; no scope is empty;
and the last development kit counts. -/
theorem reading_regroups_entries (name : Json.Value) (root : Element) :
    Regroups root.orderEntries (Descriptor.ofElement name root) := by
  have isGrouped := ofElement_scopes name root
  rw [orderScopes_groupByScope, map_scope_filterMap_libraryOf] at isGrouped
  have isKit := (ofElement_jdkName name root).trans (jdkNameOf_eq_lastKit _)
  have keys := keys_of_grouped isGrouped
  constructor
  case scopesDistinct =>
    rw [keys]
    exact nodup_scopeSequence _
  case scopesOrdered =>
    rw [keys]
    exact builtInFirst_scopeSequence _
  case oneScope => exact fun entry isEntry => existsUnique_scope isGrouped isEntry
  case nonempty => exact fun scope member => nonempty_of_grouped isGrouped member
  case documentOrder => exact fun scope member => forall₂_states_of_grouped isGrouped member
  case kit => exact isKit
  case rearranged =>
    rw [keys]
    apply perm_flatMap_filter Element.scopeName (nodup_scopeSequence _)
    intro entry isEntry
    exact mem_scopeSequence.mpr (scopeName_mem_namedScopes isEntry)
  case writingOrder =>
    refine ⟨_, forall₂_states_libraries isGrouped, ?_⟩
    rw [Descriptor.orderEntries, jdkEntry_of_jdkName isKit]
    rfl

/-- A module whose entries name their scopes in another order, between two development kits and an
entry of another type. -/
def shuffledRoot : Element :=
  let entries := [
    [("type", "jdk"), ("jdkName", "11")],
    [("type", "module"), ("module-name", "a"), ("scope", "TEST")],
    [("type", "module-library")],
    [("type", "module"), ("module-name", "b"), ("scope", "CUSTOM")],
    [("type", "library"), ("name", "c")],
    [("type", "jdk"), ("jdkName", "17")],
    [("type", "module"), ("module-name", "d"), ("scope", "")],
    [("type", "module"), ("module-name", "e"), ("scope", "PROVIDED")]]
  (Element.make "module" []).withChildren
    [(Element.make "component" [("name", "NewModuleRootManager")]).withChildren
      (entries.map (Element.make "orderEntry"))]

example : (Descriptor.ofElement (.str "root") shuffledRoot).orderEntries =
    [.jdk (.str "17"), .sources, .library (.otherModule "PROVIDED" "e"),
      .library (.files "COMPILE" [] [] []), .library (.otherModule "COMPILE" "d"),
      .library (.otherModule "TEST" "a"), .library (.otherModule "CUSTOM" "b")] := by
  rfl

end IdeModules
