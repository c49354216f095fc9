import IdeModules.Text.Split

/-!
# Paths

A path is a root and the segments below it.  Reading a path drops empty
segments and single dots but keeps double dots.  Normalizing makes a path
absolute and lets each double dot take back the segment before it, so two
spellings of one place become equal without a look at any disk.  A root of
exactly two slashes is a place of its own.
-/

namespace IdeModules

/-- Where a path starts. -/
inductive PathRoot where
  | relative
  | single
  | double
  deriving DecidableEq, Repr, Inhabited

/-- Whether a segment stands for a place of its own. -/
def Path.isSegment (segment : String) : Bool :=
  segment != "" && segment != "."

/-- A path: where it starts, and its segments, each of them as a text of a path holds it. -/
@[ext] structure Path where
  root : PathRoot
  segments : List String
  proper : ∀ segment ∈ segments, Path.isSegment segment = true ∧ '/' ∉ segment.toList
  deriving DecidableEq, Repr

namespace Path

theorem proper_nil : ∀ segment ∈ [], isSegment segment = true ∧ '/' ∉ segment.toList :=
  List.forall_mem_nil _

def here : Path := ⟨.relative, [], proper_nil⟩

instance : Inhabited Path := ⟨here⟩

/-- The directory of a workspace right below the root of the files. -/
abbrev workspace : Path := ⟨.single, ["ws"], by decide⟩

/-- Where a text of a path starts, by the slashes at its front. -/
def rootOf (cs : List Char) : PathRoot :=
  match cs with
  | '/' :: '/' :: '/' :: _ => .single
  | '/' :: '/' :: _ => .double
  | '/' :: _ => .single
  | _ => .relative

/-- The path that a text writes. -/
def ofText (text : String) : Path where
  root := rootOf text.toList
  segments := (pieces '/' text).filter isSegment
  proper := by
    intro segment member
    obtain ⟨inPieces, isPart⟩ := List.mem_filter.mp member
    obtain ⟨piece, isPiece, rfl⟩ := List.mem_map.mp inPieces
    rw [String.toList_ofList]
    exact ⟨isPart, not_mem_of_mem_splitChars isPiece⟩

/-- The text of a path; the path that leads nowhere is a single dot. -/
def text (path : Path) : String :=
  match path.root with
  | .relative => if path.segments.isEmpty then "." else joined "/" path.segments
  | .single => "/" ++ joined "/" path.segments
  | .double => "//" ++ joined "/" path.segments

def isAbsolute (path : Path) : Bool :=
  path.root != .relative

/-- The segments of a path behind those of another one. -/
def append (base path : Path) : Path where
  root := base.root
  segments := base.segments ++ path.segments
  proper := List.forall_mem_append.mpr ⟨base.proper, path.proper⟩

theorem segments_ofText (text : String) :
    (ofText text).segments = (pieces '/' text).filter isSegment :=
  rfl

theorem segments_append (base path : Path) :
    (base.append path).segments = base.segments ++ path.segments :=
  rfl

/-- A path read from inside another one: an absolute path stays what it is. -/
def join (base path : Path) : Path :=
  if path.isAbsolute then path else base.append path

/-- The path that a text writes, read from inside another path. -/
def below (base : Path) (name : String) : Path :=
  base.join (ofText name)

/-- One step of a walk: a double dot takes back the last segment, if there is one. -/
def step (walked : List String) (segment : String) : List String :=
  if segment = ".." then walked.dropLast else walked ++ [segment]

/-- The segments that remain of a walk from a root. -/
def walk (segments : List String) : List String :=
  segments.foldl step []

theorem mem_of_mem_foldl_step {segments walked : List String} {segment : String}
    (member : segment ∈ segments.foldl step walked) : segment ∈ walked ∨ segment ∈ segments := by
  induction segments generalizing walked with
  | nil => exact .inl member
  | cons next rest ih =>
      rw [List.mem_cons]
      rcases ih member with inStep | inRest
      · rw [step] at inStep
        split at inStep
        · exact .inl (List.dropLast_subset _ inStep)
        · rcases List.mem_append.mp inStep with inWalked | isNext
          · exact .inl inWalked
          · exact .inr (.inl (List.mem_singleton.mp isNext))
      · exact .inr (.inr inRest)

/-- A walk takes its segments from those that it is given. -/
theorem mem_of_mem_walk {segments : List String} {segment : String}
    (member : segment ∈ walk segments) : segment ∈ segments :=
  (mem_of_mem_foldl_step member).resolve_left List.not_mem_nil

/-- An absolute path without double dots; a relative path starts at the given directory. -/
def normalize (start path : Path) : Path where
  root := if (start.join path).root = .double then .double else .single
  segments := walk (start.join path).segments
  proper := fun segment member => (start.join path).proper segment (mem_of_mem_walk member)

theorem root_normalize (start path : Path) : (normalize start path).root =
    if (start.join path).root = .double then .double else .single :=
  rfl

theorem segments_normalize (start path : Path) :
    (normalize start path).segments = walk (start.join path).segments :=
  rfl

/-- The last segment, or nothing for a root. -/
def name (path : Path) : String :=
  path.segments.getLastD ""

def take (count : Nat) (path : Path) : Path where
  root := path.root
  segments := path.segments.take count
  proper := fun segment member => path.proper segment (List.mem_of_mem_take member)

def parent (path : Path) : Path where
  root := path.root
  segments := path.segments.dropLast
  proper := fun segment member => path.proper segment (List.dropLast_subset _ member)

theorem segments_parent (path : Path) : path.parent.segments = path.segments.dropLast :=
  rfl

/-- A name cut before its last dot, if that dot is neither its first nor its last character. -/
def splitName (name : List Char) : List Char × List Char :=
  let ending := name.reverse.takeWhile (· ≠ '.')
  let front := (name.reverse.dropWhile (· ≠ '.')).reverse
  if ending.isEmpty || front.length ≤ 1 then (name, [])
  else (front.dropLast, '.' :: ending.reverse)

def stem (path : Path) : String :=
  String.ofList (splitName path.name.toList).1

/-- The ending of the last segment with its dot, if it has one. -/
def suffix (path : Path) : String :=
  String.ofList (splitName path.name.toList).2

/-- Whether a path leads to the same place as another one or to a place below it. -/
def isWithin (path directory : Path) : Bool :=
  path.root = directory.root && directory.segments.isPrefixOf path.segments

end Path

/-- The path that stands for an optional path: a missing one is read as the name `None`. -/
def spelledPath (path : Option Path) : Path :=
  path.getD ⟨.relative, ["None"], by decide⟩

end IdeModules
