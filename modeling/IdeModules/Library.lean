import IdeModules.Scope

/-!
# Libraries

A library is an entry of a descriptor that a module is compiled or run with:
files, a placeholder for a dependency that could not be resolved, or another
module.  The libraries of a scope are the entries that the scope holds, each
once, in the order in which its configurations declare them.
-/

namespace IdeModules

/-- A library of a module in a scope. -/
inductive Library where
  /-- Files with their documentation and sources, as URLs. -/
  | files (scope : String) (classes javadoc sources : List String)
  /-- A dependency that could not be resolved. -/
  | unresolved (scope group name : String) (version : Option String)
  /-- Another module. -/
  | otherModule (scope name : String)
  deriving DecidableEq, Repr

/-- Libraries under the names of their scopes. -/
abbrev ScopedLibraries := Keyed String (List Library)

def placeholderMark : String := "unresolved dependency - "

namespace Library

def scope : Library → String
  | .files scope .. => scope
  | .unresolved scope .. => scope
  | .otherModule scope _ => scope

def coordinate? : Library → Option String
  | .unresolved _ group name version => some (coordinate group name version)
  | _ => none

/-- The name under which a placeholder is written. -/
def placeholderName (group name : String) (version : Option String) : String :=
  placeholderMark ++ joined " " ([group, name] ++ (version.filter (· ≠ "")).toList)

end Library

/-- Which attachments of a file a library shows. -/
structure Attachments where
  sources : Bool
  javadoc : Bool
  deriving DecidableEq, Repr

/-- The URL of an attachment, if it is there and wanted. -/
def attachmentUrls (anchors : PathVariables) (wanted : Bool) (file : Option Path) :
    List String :=
  if wanted then (file.map anchors.libraryUrl).toList else []

/-- The library that an entry makes in a scope. -/
def Entry.library (anchors : PathVariables) (attachments : Attachments) (scope : String) :
    Entry → Except Error Library
  | .artifact found =>
    match found.file with
    | none => .error .wrongKind
    | some file => .ok (.files scope [anchors.libraryUrl file]
        (attachmentUrls anchors attachments.javadoc found.javadoc)
        (attachmentUrls anchors attachments.sources found.sources))
  | .unresolved dependency =>
    .ok (.unresolved scope dependency.group dependency.name dependency.version)
  | .reference (.project (.str path)) => .ok (.otherModule scope (projectModuleName path))
  | .reference (.project _) => .error .noSuchMember
  | .reference (.unsupported _) => .error .wrongKind

/-- The entries of a list whose identities are wanted and have not been seen, each once. -/
def freshEntries (wanted : List String) : List String → List Entry → List Entry
  | _, [] => []
  | seen, entry :: rest =>
    if entry.identity ∈ wanted ∧ entry.identity ∉ seen then
      entry :: freshEntries wanted (entry.identity :: seen) rest
    else freshEntries wanted seen rest

/-- The libraries of entries, in order. -/
def librariesOf (convert : Entry → Except Error Library) : List Entry →
    Except Error (List Library)
  | [] => .ok []
  | entry :: rest => do
    let library ← convert entry
    let others ← librariesOf convert rest
    pure (library :: others)

/-- The libraries of the entries that a scope holds, walking its configurations in order. -/
def scopeLibraries (convert : Entry → Except Error Library) (configurations : Configurations)
    (wanted : List String) : List String → List String → Except Error (List Library)
  | _, [] => .ok []
  | seen, name :: rest =>
    match configurations.get? name with
    | none => scopeLibraries convert configurations wanted seen rest
    | some configuration => do
      let ordered ← configuration.declarationOrder
      let fresh := freshEntries wanted seen ordered
      let libraries ← librariesOf convert fresh
      let others ← scopeLibraries convert configurations wanted
        (seen ++ fresh.map Entry.identity) rest
      pure (libraries ++ others)

/-- The libraries of every scope that holds entries. -/
def buildLibraries (anchors : PathVariables) (attachments : Attachments)
    (configurations : Configurations) :
    Keyed String ClassifiedScope → Except Error ScopedLibraries
  | [] => .ok []
  | (name, scope) :: rest => do
    let libraries ← scopeLibraries (Entry.library anchors attachments name) configurations
      scope.identities [] scope.sources
    let others ← buildLibraries anchors attachments configurations rest
    pure (if libraries.isEmpty then others else (name, libraries) :: others)

/-- Adds a library to its scope, unless the scope has it already. -/
def addLibrary (scopes : ScopedLibraries) (library : Library) : ScopedLibraries :=
  Keyed.put library.scope (pushNew ((Keyed.get? library.scope scopes).getD []) library) scopes

def addLibraries (scopes : ScopedLibraries) (libraries : List Library) : ScopedLibraries :=
  libraries.foldl addLibrary scopes

/-- The coordinates of the placeholders of all scopes, in order. -/
def placeholderCoordinates (scopes : ScopedLibraries) : List String :=
  (Keyed.values scopes).flatMap fun libraries => libraries.filterMap Library.coordinate?

def diagnosticLine (coordinate : String) : String :=
  "Could not resolve: " ++ coordinate

/-- The lines that report the placeholders of all scopes: each coordinate once, in the order
in which configurations declare them, and then in the order of scopes. -/
def diagnostics (scopes : ScopedLibraries) (configurations : Configurations) : List String :=
  let placed := placeholderCoordinates scopes
  let declared := (Keyed.values configurations).flatMap fun configuration =>
    configuration.unresolved.map UnresolvedDependency.coordinate
  (distinct ((declared ++ placed).filter fun coordinate => coordinate ∈ placed)).map
    diagnosticLine

end IdeModules
