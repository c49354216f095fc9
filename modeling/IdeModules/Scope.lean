import IdeModules.Configuration

/-!
# Scopes

A scope takes the entries of some configurations and leaves out those of
others.  Scopes are served in an order of priority, and an entry goes to the
first scope that reaches it.  Two rules add entries afterwards: what the scope
`RUNTIME_TEST` reaches goes to `RUNTIME` and `TEST` as well, and what `RUNTIME`
holds and tests are compiled with, but not the module itself, goes to `TEST`.
-/

namespace IdeModules

/-- The built-in scopes, by priority. -/
def builtInScopes : List String := ["PROVIDED", "COMPILE", "RUNTIME", "TEST"]

/-- The scope whose entries go to `RUNTIME` and `TEST`. -/
def sharedScope : String := "RUNTIME_TEST"

/-- What a scope takes from configurations, and what it leaves out. -/
structure ScopeRules where
  plus : List String
  minus : List String
  deriving DecidableEq, Repr

/-- What a build adds to the rules of a scope. -/
structure ScopeCustomization where
  plus : List Json.Value
  minus : List Json.Value
  deriving Repr

/-- The rules of scopes, in order. -/
abbrev Scopes := Mapping String ScopeRules

def standardScopes : Scopes :=
  ⟨[("PROVIDED", ⟨[], []⟩),
    ("COMPILE", ⟨["compile"], []⟩),
    ("RUNTIME", ⟨["runtime"], ["compile"]⟩),
    ("TEST", ⟨["testRuntime"], ["runtime"]⟩)], by decide⟩

/-- The configuration names among references; no reference may have parts. -/
def referencedNames (references : List Json.Value) : Except Error (List String) :=
  (keysOf references).map fun keys => distinct (namesIn keys)

/-- The rules of a scope with a customization behind them. -/
def ScopeRules.extend (rules : ScopeRules) (custom : ScopeCustomization) :
    Except Error ScopeRules := do
  let plus ← referencedNames custom.plus
  let minus ← referencedNames custom.minus
  pure ⟨distinct (rules.plus ++ plus), distinct (rules.minus ++ minus)⟩

/-- The rules of scopes after customizations in order; a new scope starts without rules. -/
def customize (scopes : Scopes) : Keyed String ScopeCustomization → Except Error Scopes
  | [] => .ok scopes
  | (name, custom) :: rest => do
    let rules ← ((Keyed.get? name scopes.entries).getD ⟨[], []⟩).extend custom
    customize (scopes.put name rules) rest

/-- The standard rules after customizations. -/
def scopesOf (customizations : Keyed String ScopeCustomization) : Except Error Scopes :=
  customize standardScopes customizations

/-- The scopes that hold entries, by priority: the built-in ones, then the others as declared. -/
def scopeOrder (scopes : Scopes) : List String :=
  builtInScopes ++
    (Keyed.keys scopes.entries).filter fun name => name ∉ builtInScopes ∧ name ≠ sharedScope

/-- The identities of the entries of a configuration; an unknown one has none. -/
def identitiesOf (configurations : Configurations) (name : String) : List String :=
  match configurations.get? name with
  | none => []
  | some configuration => configuration.entries.map Entry.identity

def identitiesIn (configurations : Configurations) (names : List String) : List String :=
  names.flatMap (identitiesOf configurations)

/-- The identities that the rules of a scope reach. -/
def ScopeRules.reach (rules : ScopeRules) (configurations : Configurations) : List String :=
  distinct ((identitiesIn configurations rules.plus).filter fun identity =>
    identity ∉ identitiesIn configurations rules.minus)

/-- What a scope holds, and the configurations that its entries are taken from, in order. -/
structure ClassifiedScope where
  identities : List String
  sources : List String
  deriving DecidableEq, Repr

/-- What each scope claims, given what earlier scopes have claimed. -/
def claimScopes (scopes : Scopes) (configurations : Configurations) :
    List String → List String → Keyed String ClassifiedScope
  | _, [] => []
  | claimed, name :: rest =>
    match Keyed.get? name scopes.entries with
    | none => (name, ⟨[], []⟩) :: claimScopes scopes configurations claimed rest
    | some rules =>
      let own := (rules.reach configurations).filter fun identity => identity ∉ claimed
      (name, ⟨own, rules.plus⟩) :: claimScopes scopes configurations (claimed ++ own) rest

/-- A scope that holds further identities, taken from further configurations. -/
def ClassifiedScope.add (scope : ClassifiedScope) (identities sources : List String) :
    ClassifiedScope :=
  ⟨distinct (scope.identities ++ identities), distinct (scope.sources ++ sources)⟩

/-- Adds identities and sources to a scope under its name. -/
def addToScope (name : String) (identities sources : List String)
    (classified : Keyed String ClassifiedScope) : Keyed String ClassifiedScope :=
  classified.map fun entry =>
    if entry.1 = name then (entry.1, entry.2.add identities sources) else entry

/-- What `RUNTIME` holds and tests, but not the module itself, are compiled with. -/
def testOverlap (configurations : Configurations) (classified : Keyed String ClassifiedScope) :
    List String :=
  match Keyed.get? "RUNTIME" classified with
  | none => []
  | some runtime =>
    runtime.identities.filter fun identity =>
      identity ∈ identitiesOf configurations "testCompile" ∧
        identity ∉ identitiesOf configurations "compile"

/-- Adds to `TEST` what tests are compiled with. -/
def addTestOverlap (configurations : Configurations)
    (classified : Keyed String ClassifiedScope) : Keyed String ClassifiedScope :=
  let overlap := testOverlap configurations classified
  if overlap.isEmpty then classified else addToScope "TEST" overlap ["testCompile"] classified

/-- Adds to `RUNTIME` and `TEST` what their shared scope reaches. -/
def addShared (scopes : Scopes) (configurations : Configurations)
    (classified : Keyed String ClassifiedScope) : Keyed String ClassifiedScope :=
  match Keyed.get? sharedScope scopes.entries with
  | none => classified
  | some rules =>
    let reached := rules.reach configurations
    addToScope "TEST" reached rules.plus (addToScope "RUNTIME" reached rules.plus classified)

/-- What each scope holds, by priority. -/
def classify (scopes : Scopes) (configurations : Configurations) :
    Keyed String ClassifiedScope :=
  addShared scopes configurations
    (addTestOverlap configurations
      (claimScopes scopes configurations [] (scopeOrder scopes)))

end IdeModules
