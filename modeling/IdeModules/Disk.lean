import IdeModules.FileTree

/-!
# Disks

A file is replaced through a temporary one beside it: its directories are added,
and the temporary file is made, filled and moved onto it.  A disk may refuse each
of these steps, and what it has made of the temporary file is taken away then.  It may
refuse to read a file, too.  A plain disk refuses nothing, or nothing but the move.
-/

namespace IdeModules

/-- The steps that a disk refuses while a file is replaced, each with the error that it gives. -/
structure Refusals where
  /-- Only so many segments of the way to the file can be entered or added. -/
  directories : Option (Nat × Error) := none
  /-- No temporary file can be made. -/
  temporary : Option Error := none
  /-- The temporary file takes a part of the content only. -/
  content : Option (ByteArray × Error) := none
  /-- The temporary file cannot be moved. -/
  move : Option Error := none

/-- What a disk does when a file is read or replaced: the error that it gives instead of the file,
how it names the temporary file, and which steps it refuses. -/
structure Disk where
  unreadable : FileTree → Path → Option Error
  temporaryName : FileTree → Path → String
  refusals : FileTree → Path → Refusals

/-- What reading a path gives on a disk. -/
def Disk.reading (disk : Disk) (files : FileTree) (path : Path) (read : Except Error α) :
    Except Error α :=
  match disk.unreadable files path with
  | some failure => .error failure
  | none => read

namespace FileTree

/-- One step behind another; an error ends them. -/
def followedBy (step : FileTree × Except Error Unit)
    (next : FileTree → FileTree × Except Error Unit) : FileTree × Except Error Unit :=
  match step with
  | (made, .ok ()) => next made
  | (made, .error failure) => (made, .error failure)

/-- Steps after which nothing is left at a place if an error has ended them. -/
def cleanedUp (place : Place) (steps : FileTree × Except Error Unit) :
    FileTree × Except Error Unit :=
  match steps with
  | (made, .ok ()) => (made, .ok ())
  | (made, .error failure) => (made.discard place, .error failure)

/-- Adds the missing directories of a path, as far as the disk allows it. -/
def makeDirectoriesOn (tree : FileTree) (refusal : Option (Nat × Error)) (path : Path) :
    FileTree × Except Error Unit :=
  match refusal with
  | some (count, failure) =>
    ((tree.makeDirectories (path.take count)).1, .error failure)
  | none => tree.makeDirectories path

/-- Makes an empty file at a place in a directory where nothing stands. -/
def createFile (tree : FileTree) (refusal : Option Error) (place : Place) :
    FileTree × Except Error Unit :=
  match refusal with
  | some failure => (tree, .error failure)
  | none =>
    match tree.entryAt place with
    | some _ => (tree, .error .fileExists)
    | none =>
      if tree.isDirectoryAt place.dropLast then (tree.put place (.file .empty), .ok ())
      else (tree, .error .notReplaced)

def fillFile (tree : FileTree) (refusal : Option (ByteArray × Error)) (place : Place)
    (content : ByteArray) : FileTree × Except Error Unit :=
  match refusal with
  | some (part, failure) => (tree.put place (.file part), .error failure)
  | none => (tree.put place (.file content), .ok ())

/-- Moves the file at a place onto a path, where it takes the place of another file.  A file
that cannot be moved stays. -/
def moveFile (tree : FileTree) (refusal : Option Error) (source : Place) (path : Path) :
    FileTree × Except Error Unit :=
  match refusal with
  | some failure => (tree, .error failure)
  | none =>
    match tree.fileAt source with
    | none => (tree, .error .notReplaced)
    | some content =>
      match (tree.discard source).replaceAt path content with
      | (moved, .ok ()) => (moved, .ok ())
      | (_, .error failure) => (tree, .error failure)

/-- Replaces the file at a path through a temporary one at a place. -/
def replaceFrom (tree : FileTree) (refusals : Refusals) (temporary : Place) (path : Path)
    (content : ByteArray) : FileTree × Except Error Unit :=
  followedBy (tree.createFile refusals.temporary temporary) fun created =>
    cleanedUp temporary <|
      followedBy (created.fillFile refusals.content temporary content) fun filled =>
        filled.moveFile refusals.move temporary path

/-- Replaces the file at a path through a temporary one in its directory. -/
def replaceThrough (tree : FileTree) (disk : Disk) (path : Path) (content : String) :
    FileTree × Except Error Unit :=
  let refusals := disk.refusals tree path
  followedBy (tree.makeDirectoriesOn refusals.directories path.parent) fun made =>
    made.replaceFrom refusals (made.destination path.parent ++ [disk.temporaryName made path])
      path content.toUTF8

/-- An ending that no name in a tree has. -/
def freshEnding (tree : FileTree) : String :=
  let letters := tree.entries.flatMap fun entry => (entry.1.getLastD "").toList
  String.ofList (letters.map fun _ => '0') ++ ".tmp"

end FileTree

/-- A disk that always finds a name for the temporary file, and that refuses nothing or nothing
but the move. -/
def Disk.plain (refuses : Bool) : Disk where
  unreadable _ _ := none
  temporaryName tree path := "." ++ path.name ++ "." ++ tree.freshEnding
  refusals _ _ := { move := if refuses then some .notReplaced else none }

end IdeModules
