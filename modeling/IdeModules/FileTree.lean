import IdeModules.Error
import IdeModules.Keyed
import IdeModules.Xml.Token

/-!
# File trees

A file tree holds files and directories at their places below the root.  A path
is followed segment by segment: every segment on the way must be a directory,
and a double dot leads back.  Every entry stands in a directory, and so it stays:
something is put only where a directory can take it, and only a file is removed.
-/

namespace IdeModules

/-- The segments that lead from the root to a place. -/
abbrev Place := List String

/-- What stands at a place. -/
inductive FileEntry where
  | directory
  | file (content : ByteArray)
  deriving Inhabited

/-- Two files are the same if their bytes are. -/
instance : DecidableEq FileEntry
  | .directory, .directory => .isTrue rfl
  | .directory, .file _ => .isFalse nofun
  | .file _, .directory => .isFalse nofun
  | .file left, .file right =>
    if same : left.data = right.data then
      .isTrue (congrArg FileEntry.file (ByteArray.ext same))
    else .isFalse fun both => same (congrArg ByteArray.data (FileEntry.file.inj both))

/-- What entries hold at a place; the root is a directory. -/
def entryIn (entries : Keyed Place FileEntry) (place : Place) : Option FileEntry :=
  if place.isEmpty then some .directory else Keyed.get? place entries

/-- Files and directories, each in a directory, and the directory that relative paths start
from. -/
@[ext] structure FileTree where
  workingDirectory : Path
  entries : Keyed Place FileEntry
  rooted : ∀ entry ∈ entries, entryIn entries entry.1.dropLast = some .directory
  starts : entryIn entries workingDirectory.segments = some .directory

/-- The entries of the directories on the way to a place. -/
def wayTo (place : Place) : Keyed Place FileEntry :=
  (List.range place.length).map fun count => (place.take (count + 1), .directory)

theorem entryIn_wayTo {place : Place} {count : Nat} (within : count ≤ place.length) :
    entryIn (wayTo place) (place.take count) = some .directory := by
  cases count with
  | zero => rfl
  | succ count =>
      have isKey : place.take (count + 1) ∈ Keyed.keys (wayTo place) :=
        List.mem_map.mpr ⟨_, List.mem_map_of_mem (List.mem_range.mpr within), rfl⟩
      obtain ⟨held, isHeld⟩ := Keyed.mem_keys_iff.mp isKey
      obtain ⟨_, _, isEntry⟩ := List.mem_map.mp (Keyed.mem_of_get? isHeld)
      rw [← (Prod.mk.inj isEntry).2] at isHeld
      rw [entryIn, isHeld, ite_self]

/-- What stands at a place where no directory is put stays, and so do directories. -/
theorem entryIn_put {entries : Keyed Place FileEntry} {place front : Place}
    (notDirectory : entryIn entries place ≠ some .directory) (entry : FileEntry)
    (isDirectory : entryIn entries front = some .directory) :
    entryIn (Keyed.put place entry entries) front = some .directory := by
  have different : place ≠ front := by
    rintro rfl
    exact notDirectory isDirectory
  rw [entryIn, Keyed.get?_put, if_neg different]
  exact isDirectory

theorem entryIn_erase {entries : Keyed Place FileEntry} {place front : Place}
    (notDirectory : entryIn entries place ≠ some .directory)
    (isDirectory : entryIn entries front = some .directory) :
    entryIn (Keyed.erase place entries) front = some .directory := by
  have different : place ≠ front := by
    rintro rfl
    exact notDirectory isDirectory
  rw [entryIn, Keyed.get?_erase, if_neg different]
  exact isDirectory

namespace FileTree

def empty (workingDirectory : Path) : FileTree where
  workingDirectory := workingDirectory
  entries := wayTo workingDirectory.segments
  rooted := by
    intro entry member
    obtain ⟨count, within, rfl⟩ := List.mem_map.mp member
    have inRange := List.mem_range.mp within
    have above : (workingDirectory.segments.take (count + 1)).dropLast =
        workingDirectory.segments.take count := by
      rw [List.dropLast_eq_take, List.take_take, List.length_take_of_le inRange,
        Nat.succ_sub_one, Nat.min_eq_left (Nat.le_succ count)]
    rw [above]
    exact entryIn_wayTo (Nat.le_of_lt inRange)
  starts := by
    have whole := entryIn_wayTo (Nat.le_refl workingDirectory.segments.length)
    rwa [List.take_length] at whole

def entryAt (tree : FileTree) (place : Place) : Option FileEntry :=
  entryIn tree.entries place

def isDirectoryAt (tree : FileTree) (place : Place) : Bool :=
  tree.entryAt place == some .directory

/-- The content of the file at a place, if a file stands there. -/
def fileAt (tree : FileTree) (place : Place) : Option ByteArray :=
  match tree.entryAt place with
  | some (.file content) => some content
  | _ => none

def startOf (tree : FileTree) (path : Path) : Place :=
  if path.isAbsolute then [] else tree.workingDirectory.segments

/-- The place that segments lead to, if every place on the way is a directory. -/
def follow (tree : FileTree) : Place → List String → Option Place
  | place, [] => some place
  | place, segment :: rest =>
    if tree.isDirectoryAt place then tree.follow (Path.step place segment) rest else none

/-- The place that a path leads to once every place on the way is a directory. -/
def destination (tree : FileTree) (path : Path) : Place :=
  path.segments.foldl Path.step (tree.startOf path)

def placeOf (tree : FileTree) (path : Path) : Option Place :=
  tree.follow (tree.startOf path) path.segments

def find? (tree : FileTree) (path : Path) : Option FileEntry :=
  (tree.placeOf path).bind tree.entryAt

def contains (tree : FileTree) (path : Path) : Bool :=
  (tree.find? path).isSome

def isDirectory (tree : FileTree) (path : Path) : Bool :=
  tree.find? path == some .directory

theorem entryIn_ne_directory {tree : FileTree} {place : Place}
    (notDirectory : tree.isDirectoryAt place = false) :
    entryIn tree.entries place ≠ some .directory := by
  simpa [isDirectoryAt, entryAt] using notDirectory

/-- The tree with an entry at a place in a directory, unless a directory stands there. -/
def put (tree : FileTree) (place : Place) (entry : FileEntry) : FileTree :=
  if free : tree.isDirectoryAt place.dropLast = true ∧ tree.isDirectoryAt place = false then
    { tree with
      entries := Keyed.put place entry tree.entries
      rooted := by
        intro other member
        apply entryIn_put (entryIn_ne_directory free.2)
        rcases Keyed.mem_put member with rfl | isOther
        · exact beq_iff_eq.mp free.1
        · exact tree.rooted other isOther
      starts := entryIn_put (entryIn_ne_directory free.2) entry tree.starts }
  else tree

/-- The tree with nothing at a place, unless a directory stands there. -/
def discard (tree : FileTree) (place : Place) : FileTree :=
  if free : tree.isDirectoryAt place = false then
    { tree with
      entries := Keyed.erase place tree.entries
      rooted := by
        intro other member
        apply entryIn_erase (entryIn_ne_directory free)
        exact tree.rooted other (List.mem_filter.mp member).1
      starts := entryIn_erase (entryIn_ne_directory free) tree.starts }
  else tree

/-- Adds the missing directories on a way.  A file on the way stops it; it is told apart
whether the file was in the way of the last directory or of one that was just added. -/
def addDirectories (tree : FileTree) (hasAdded : Bool) (place : Place) :
    List String → FileTree × Except Error Unit
  | [] => (tree, .ok ())
  | segment :: rest =>
    let next := Path.step place segment
    match tree.entryAt next with
    | some .directory => tree.addDirectories hasAdded next rest
    | some (.file _) =>
      (tree, .error (if hasAdded || rest.isEmpty then .fileExists else .notDirectory))
    | none => (tree.put next .directory).addDirectories true next rest

def makeDirectories (tree : FileTree) (path : Path) : FileTree × Except Error Unit :=
  tree.addDirectories false (tree.startOf path) path.segments

/-- Puts a file at a path, unless a directory stands there. -/
def replaceAt (tree : FileTree) (path : Path) (content : ByteArray) :
    FileTree × Except Error Unit :=
  match tree.placeOf path with
  | none => (tree, .error .notReplaced)
  | some place =>
    if tree.isDirectoryAt place then (tree, .error .isDirectory)
    else (tree.put place (.file content), .ok ())

/-- The text of a file with every line end as a line feed. -/
def textOf (content : ByteArray) : Except Error String :=
  match String.fromUTF8? content with
  | none => .error .notText
  | some text => .ok (String.ofList (Xml.normalizeLineEnds text.toList))

def readText (tree : FileTree) (path : Path) : Except Error String :=
  match tree.find? path with
  | some (.file content) => textOf content
  | some .directory => .error .isDirectory
  | none => .error (.missingInput "file" path)

/-- The tree with a file and the directories that it needs, as far as no file is in the way. -/
def withFile (tree : FileTree) (path : Path) (content : ByteArray) : FileTree :=
  ((tree.makeDirectories path.parent).1.replaceAt path content).1

def withDirectory (tree : FileTree) (path : Path) : FileTree :=
  (tree.makeDirectories path).1

/-- The text of a place; a directory ends in a slash. -/
def placeText (entry : Place × FileEntry) : String :=
  "/" ++ joined "/" entry.1 ++ (if entry.2 = .directory then "/" else "")

/-- What a tree holds that another one does not, by the text of its place. -/
def newIn (before after : FileTree) : List (String × FileEntry) :=
  ((after.entries.filter fun entry => before.entryAt entry.1 ≠ some entry.2).map fun entry =>
    (placeText entry, entry.2)).mergeSort fun left right => left.1 ≤ right.1

end FileTree

end IdeModules
