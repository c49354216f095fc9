import IdeModules.Json.Display
import IdeModules.PathVariables

/-!
# Dependencies

A configuration lists what its dependencies were resolved to: artifacts, that
is files; dependencies that could not be resolved; and references to other
projects of the same build.  The identity of an entry tells whether two entries
stand for the same thing: the file, the coordinate, or the project's path.
-/

namespace IdeModules

def coordinate (group name : String) (version : Option String) : String :=
  joined ":" ([group, name] ++ (version.filter (· ≠ "")).toList)

/-- The parts that a declaration states: group, name, version and classifier. -/
structure DeclaredParts where
  group : Option String
  name : Option String
  version : Option String
  classifier : Option String
  deriving DecidableEq, Repr

/-- A part of a declaration, unless it is empty. -/
def declaredPart (parts : List String) (index : Nat) : Option String :=
  parts[index]?.filter (· ≠ "")

/-- The parts of a declaration, which colons set apart. -/
def DeclaredParts.ofText (text : String) : DeclaredParts :=
  let parts := pieces ':' text
  ⟨declaredPart parts 0, declaredPart parts 1, declaredPart parts 2, declaredPart parts 3⟩

/-- A resolved file, with the files attached to it and the declaration that led to it. -/
structure Artifact where
  file : Option Path
  group : Option String
  name : Option String
  version : Option String
  classifier : Json.Value
  sources : Option Path
  javadoc : Option Path
  declaredBy : Json.Value
  deriving Repr

/-- A dependency that could not be resolved. -/
structure UnresolvedDependency where
  group : String
  name : String
  version : Option String
  reason : Json.Value
  declaredBy : Json.Value
  deriving Repr

def UnresolvedDependency.coordinate (dependency : UnresolvedDependency) : String :=
  IdeModules.coordinate dependency.group dependency.name dependency.version

/-- A dependency that could not be resolved; it is declared by its coordinate unless another
declaration is given. -/
def UnresolvedDependency.make (group name : String) (version : Option String)
    (reason declaredBy : Json.Value) : UnresolvedDependency where
  group := group
  name := name
  version := version
  reason := reason
  declaredBy := match declaredBy with
    | .null => .str (IdeModules.coordinate group name version)
    | given => given

/-- A reference to something that is no file: another project of the build, or a thing of a
kind that no library can stand for. -/
inductive Reference where
  | project (path : Json.Value)
  | unsupported (identity : String)
  deriving Repr

/-- What a dependency of a configuration was resolved to. -/
inductive Entry where
  | artifact (artifact : Artifact)
  | unresolved (dependency : UnresolvedDependency)
  | reference (reference : Reference)
  deriving Repr

/-- The name of the module that a project path leads to: what follows the last colon that is
not at its end. -/
def projectModuleName (path : String) : String :=
  (pieces ':' (String.ofList (trimRight (· = ':') path.toList))).getLastD ""

namespace Entry

/-- What an entry stands for. -/
def identity : Entry → String
  | .artifact found => (spelledPath found.file).text
  | .unresolved dependency => dependency.coordinate
  | .reference (.project path) => "project " ++ path.display
  | .reference (.unsupported identity) => identity

def declaredBy : Entry → Json.Value
  | .artifact found => found.declaredBy
  | .unresolved dependency => dependency.declaredBy
  | .reference (.project path) => path
  | .reference (.unsupported identity) => .str identity

end Entry

end IdeModules
