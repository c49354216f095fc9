import IdeModules.Error
import IdeModules.Keyed

/-!
# Path variables

A path variable names a directory.  Rendering a path replaces the deepest
directory that leads to it by the token of its variable, so that a descriptor
stays valid when the tree that holds it moves; of equally deep directories the
one that was named first is taken.  A path outside every directory is rendered
in full.
-/

namespace IdeModules

/-- The directories of path variables, and the directory that relative paths start from. -/
structure PathVariables where
  start : Path
  directories : Mapping String Path
  deriving Repr

/-- The variable that names the directory of a module's descriptor. -/
def moduleDirectory : String := "MODULE_DIR"

/-- The endings of the files that hold archives. -/
def archiveSuffixes : List String := [".jar", ".zip", ".war", ".ear", ".aar"]

/-- A variable name without the dollar signs around it. -/
def bareName (name : String) : String :=
  String.ofList (trimBoth (· = '$') name.toList)

def pathToken (name : String) : String :=
  "$" ++ name ++ "$"

namespace PathVariables

/-- The variables of a list of pairs, each directory normalized, and then the
directory of a descriptor. -/
def ofPairs (start : Path) (pairs : List (String × Option Path))
    (descriptorDirectory : Option Path) : PathVariables :=
  let named := pairs.map fun pair =>
    (bareName pair.1, Path.normalize start (spelledPath pair.2))
  let own := match descriptorDirectory with
    | none => []
    | some directory => [(moduleDirectory, Path.normalize start directory)]
  ⟨start, Mapping.ofPairs (named ++ own)⟩

def normalize (anchors : PathVariables) (path : Option Path) : Path :=
  Path.normalize anchors.start (spelledPath path)

/-- The deeper of two directories, the first one if neither is deeper. -/
def deeper (best : Option (String × Path)) (candidate : String × Path) : Option (String × Path) :=
  match best with
  | none => some candidate
  | some held =>
    if held.2.segments.length < candidate.2.segments.length then some candidate else some held

/-- The variable of the deepest directory that leads to a normal path. -/
def deepest (anchors : PathVariables) (target : Path) : Option (String × Path) :=
  (anchors.directories.entries.filter fun entry => target.isWithin entry.2).foldl deeper none

/-- A normal path as it is written in a descriptor. -/
def renderNormal (anchors : PathVariables) (target : Path) : String :=
  match anchors.deepest target with
  | none => target.text
  | some (name, directory) =>
    if target = directory then pathToken name
    else
      pathToken name ++ "/" ++
        joined "/" (target.segments.drop directory.segments.length)

/-- A path as it is written in a descriptor. -/
def render (anchors : PathVariables) (path : Option Path) : String :=
  anchors.renderNormal (anchors.normalize path)

def fileUrl (anchors : PathVariables) (path : Option Path) : String :=
  "file://" ++ anchors.render path

/-- Whether the ending of a path is that of an archive, in small or capital letters. -/
def isArchive (path : Path) : Bool :=
  archiveSuffixes.contains (String.ofList (path.suffix.toList.map Char.toLower))

/-- The URL of a library: archives are addressed by their content. -/
def libraryUrl (anchors : PathVariables) (path : Path) : String :=
  if isArchive path then "jar://" ++ anchors.render (some path) ++ "!/"
  else anchors.fileUrl (some path)

end PathVariables

end IdeModules
