import IdeModules.Dependency

/-!
# Configurations

A configuration declares dependencies, holds what they were resolved to, and
may extend others.  Flattening gives it the content of every configuration it
reaches, its own first and each of them once, in the order in which a walk that
goes deep before it goes wide first comes to them.  The entries of a
configuration are ordered by the place of their declaration.
-/

namespace IdeModules

/-- A named set of dependencies. -/
structure Configuration where
  name : String
  extendsFrom : List Json.Value
  declared : List Json.Value
  artifacts : List Artifact
  unresolved : List UnresolvedDependency
  references : List Reference
  deriving Repr

/-- Configurations under their names, as declared. -/
abbrev Configurations := Keyed String Configuration

/-- The key of a value, which must have no parts. -/
def keyOf (value : Json.Value) : Except Error Json.Key :=
  match value.key? with
  | some key => .ok key
  | none => .error .wrongKind

def keysOf : List Json.Value → Except Error (List Json.Key)
  | [] => .ok []
  | value :: rest => do
    let key ← keyOf value
    let keys ← keysOf rest
    pure (key :: keys)

/-- The names among keys; every other key names no configuration. -/
def namesIn (keys : List Json.Key) : List String :=
  keys.filterMap fun key => match key with
    | .str name => some name
    | _ => none

namespace Configuration

def empty (name : String) : Configuration :=
  ⟨name, [], [], [], [], []⟩

/-- What the dependencies of a configuration were resolved to: artifacts, then unresolved
dependencies, then references. -/
def entries (configuration : Configuration) : List Entry :=
  configuration.artifacts.map .artifact ++ configuration.unresolved.map .unresolved ++
    configuration.references.map .reference

def parents (configuration : Configuration) : Except Error (List String) :=
  (keysOf configuration.extendsFrom).map namesIn

end Configuration

/-- The names of the configurations that each configuration extends. -/
abbrev ParentNames := Keyed String (List String)

/-- The names that each of several configurations extends. -/
def parentNames : Configurations → Except Error ParentNames
  | [] => .ok []
  | (name, configuration) :: rest => do
    let parents ← configuration.parents
    let others ← parentNames rest
    pure ((name, parents) :: others)

/-- The known names that a walk comes to for the first time: the names it still has to visit
are in order, and those that a visited configuration extends come first. -/
def walkFrom (parents : ParentNames) : Nat → List String → List String → List String
  | 0, _, _ => []
  | _ + 1, _, [] => []
  | steps + 1, visited, name :: pending =>
    match parents.get? name with
    | none => walkFrom parents steps visited pending
    | some next =>
      if name ∈ visited then walkFrom parents steps visited pending
      else name :: walkFrom parents steps (name :: visited) (next ++ pending)

/-- The number of steps that every walk ends in: one for its start and one for each name that
a configuration extends. -/
def walkBound (parents : ParentNames) : Nat :=
  2 + (parents.flatMap Prod.snd).length

/-- The names of the configurations that a configuration reaches, its own first. -/
def reachedNames (parents : ParentNames) (name : String) : List String :=
  walkFrom parents (walkBound parents) [] [name]

/-- A configuration with the content of every configuration in a list. -/
def Configuration.gather (configuration : Configuration) (reached : List Configuration) :
    Configuration where
  name := configuration.name
  extendsFrom := configuration.extendsFrom
  declared := reached.flatMap Configuration.declared
  artifacts := reached.flatMap Configuration.artifacts
  unresolved := reached.flatMap Configuration.unresolved
  references := reached.flatMap Configuration.references

/-- Each configuration with the content of every configuration that it reaches. -/
def flatten (configurations : Configurations) : Except Error Configurations :=
  (parentNames configurations).map fun parents =>
    configurations.map fun entry =>
      let reached := (reachedNames parents entry.1).filterMap configurations.get?
      (entry.1, { entry.2.gather reached with name := entry.1 })

/-- The place of a declaration: its first place among those declared, or the number of
different ones for a declaration that is not among them. -/
def rankOf (declared : List Json.Key) (key : Json.Key) : Nat :=
  if key ∈ declared then declared.idxOf key else (distinct declared).length

/-- Entries with the place of their declaration. -/
def rankEntries (declared : List Json.Key) : List Entry → Except Error (List (Nat × Entry))
  | [] => .ok []
  | entry :: rest => do
    let key ← keyOf entry.declaredBy
    let others ← rankEntries declared rest
    pure ((rankOf declared key, entry) :: others)

/-- The entries of a configuration by the place of their declaration; entries of one place
keep their order. -/
def Configuration.declarationOrder (configuration : Configuration) :
    Except Error (List Entry) := do
  let declared ← keysOf configuration.declared
  let ranked ← rankEntries declared configuration.entries
  pure ((ranked.mergeSort fun left right => left.1 ≤ right.1).map Prod.snd)

end IdeModules
