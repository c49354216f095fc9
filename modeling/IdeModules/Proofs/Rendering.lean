import IdeModules.PathVariables
import Mathlib.Data.List.Basic

/-!
# Rendered paths

A path is read back from its text, and a normal one from its rendering once the token of a
variable is replaced by the directory of that variable.  So different paths have different
texts, and different normal paths are rendered differently.
-/

namespace IdeModules

/-! ## Joined texts -/

theorem joinChars_eq_intercalate (separator : Char) (parts : List (List Char)) :
    joinChars separator parts = [separator].intercalate parts := by
  induction parts with
  | nil => rfl
  | cons part rest ih =>
      cases rest with
      | nil => simp [joinChars, List.intercalate]
      | cons other others =>
          rw [joinChars, ih]
          · simp [List.intercalate]
          · exact List.cons_ne_nil _ _

/-- Parts without the separator are the pieces of what they are joined to. -/
theorem splitChars_joinChars {separator : Char} {parts : List (List Char)} (notEmpty : parts ≠ [])
    (absent : ∀ part ∈ parts, separator ∉ part) :
    splitChars separator (joinChars separator parts) = parts := by
  induction parts with
  | nil => exact absurd rfl notEmpty
  | cons part rest ih =>
      rw [List.forall_mem_cons] at absent
      cases rest with
      | nil => exact splitChars_of_not_mem absent.1
      | cons other others =>
          rw [joinChars, splitChars_append absent.1,
            ih (List.cons_ne_nil _ _) absent.2]
          exact List.cons_ne_nil _ _

theorem toList_joined (parts : List String) :
    (joined "/" parts).toList = joinChars '/' (parts.map String.toList) := by
  rw [joined, String.toList_intercalate, joinChars_eq_intercalate]
  rfl

namespace Path

/-! ## Texts of paths -/

variable {path : Path}

theorem filter_pieces (path : Path) :
    (pieces '/' (joined "/" path.segments)).filter isSegment = path.segments := by
  have areSegments : path.segments.filter isSegment = path.segments :=
    List.filter_eq_self.mpr fun segment member => (path.proper segment member).1
  by_cases isEmpty : path.segments = []
  · rw [isEmpty]
    rfl
  · have absent : ∀ part ∈ path.segments.map String.toList, '/' ∉ part :=
      List.forall_mem_map.mpr fun segment member => (path.proper segment member).2
    have restored : String.ofList ∘ String.toList = id := funext fun _ => String.ofList_toList
    rw [pieces, toList_joined, splitChars_joinChars (by simpa using isEmpty) absent, List.map_map,
      restored, List.map_id, areSegments]

/-- A slash in front adds a piece that is no segment. -/
theorem filter_pieces_slash (text : String) :
    (pieces '/' ("/" ++ text)).filter isSegment = (pieces '/' text).filter isSegment := by
  have chars : ("/" ++ text).toList = '/' :: text.toList := String.toList_append
  rw [pieces, chars, splitChars, if_pos rfl, List.map_cons, List.filter_cons_of_neg (by decide),
    pieces]

theorem rootOf_cons {c : Char} (notSlash : c ≠ '/') (rest : List Char) :
    rootOf (c :: rest) = .relative ∧ rootOf ('/' :: c :: rest) = .single ∧
      rootOf ('/' :: '/' :: c :: rest) = .double := by
  simp [rootOf, notSlash]

theorem rootOf_joined (path : Path) :
    rootOf (joined "/" path.segments).toList = .relative ∧
      rootOf ('/' :: (joined "/" path.segments).toList) = .single ∧
      rootOf ('/' :: '/' :: (joined "/" path.segments).toList) = .double := by
  rw [toList_joined]
  cases segments : path.segments with
  | nil => exact ⟨rfl, rfl, rfl⟩
  | cons first others =>
      obtain ⟨isPart, noSlash⟩ := path.proper first (segments ▸ List.mem_cons_self)
      have notEmpty : first ≠ "" := by
        rintro rfl
        exact absurd isPart (by decide)
      cases chars : first.toList with
      | nil => exact absurd (String.toList_eq_nil_iff.mp chars) notEmpty
      | cons c rest =>
          have notSlash : c ≠ '/' := by
            rintro rfl
            exact noSlash (chars ▸ List.mem_cons_self)
          rw [List.map_cons, chars]
          cases others with
          | nil => exact rootOf_cons notSlash rest
          | cons other more => exact rootOf_cons notSlash _

theorem text_single (isSingle : path.root = .single) :
    path.text = "/" ++ joined "/" path.segments := by
  rw [text, isSingle]

theorem text_double (isDouble : path.root = .double) :
    path.text = "/" ++ ("/" ++ joined "/" path.segments) := by
  rw [text, isDouble, ← String.append_assoc]
  rfl

theorem ofText_text (path : Path) : ofText path.text = path := by
  obtain ⟨relative, single, double⟩ := rootOf_joined path
  have parts := filter_pieces path
  cases isRoot : path.root with
  | relative =>
      by_cases isEmpty : path.segments = []
      · have isText : path.text = "." := by simp [text, isRoot, isEmpty]
        apply Path.ext
        · rw [isText, isRoot]
          rfl
        · rw [isText, isEmpty]
          decide
      · have isText : path.text = joined "/" path.segments := by simp [text, isRoot, isEmpty]
        apply Path.ext
        · rw [ofText, isText, relative, isRoot]
        · rw [ofText, isText]
          exact parts
  | single =>
      apply Path.ext
      · rw [ofText, text_single isRoot, String.toList_append, isRoot]
        exact single
      · rw [ofText, text_single isRoot]
        exact (filter_pieces_slash _).trans parts
  | double =>
      apply Path.ext
      · rw [ofText, text_double isRoot, String.toList_append, String.toList_append, isRoot]
        exact double
      · rw [ofText, text_double isRoot]
        exact (filter_pieces_slash _).trans ((filter_pieces_slash _).trans parts)

end Path

/-! ## Rendered paths -/

namespace PathVariables

variable {anchors : PathVariables} {target : Path}

theorem mem_of_foldl_deeper {entries : List (String × Path)} {best : Option (String × Path)}
    {found : String × Path} (isFound : entries.foldl deeper best = some found) :
    best = some found ∨ found ∈ entries := by
  induction entries generalizing best with
  | nil => exact .inl isFound
  | cons candidate rest ih =>
      rcases ih isFound with isBest | inRest
      · unfold deeper at isBest
        split at isBest
        · exact .inr (Option.some.inj isBest ▸ List.mem_cons_self)
        · split at isBest
          · exact .inr (Option.some.inj isBest ▸ List.mem_cons_self)
          · exact .inl isBest
      · exact .inr (List.mem_cons_of_mem _ inRest)

theorem mem_of_deepest {found : String × Path} (isFound : anchors.deepest target = some found) :
    found ∈ anchors.directories.entries ∧ target.isWithin found.2 = true :=
  List.mem_filter.mp ((mem_of_foldl_deeper isFound).resolve_left (Option.some_ne_none found).symm)

/-- The path that a rendered text stands for, with directories in place of their tokens. -/
def expand (anchors : PathVariables) (text : String) : Path :=
  match splitChars '$' text.toList with
  | [] :: name :: rest =>
    match Keyed.get? (String.ofList name) anchors.directories.entries with
    | some directory => directory.append (Path.ofText (String.ofList (joinChars '$' rest)))
    | none => Path.ofText text
  | _ => Path.ofText text

/-- A token stands for the directory of its variable. -/
theorem expand_pathToken {name : String} {directory : Path} (noDollar : '$' ∉ name.toList)
    (isDirectory : Keyed.get? name anchors.directories.entries = some directory)
    (ending : String) :
    anchors.expand (pathToken name ++ ending) = directory.append (Path.ofText ending) := by
  have chars : (pathToken name ++ ending).toList =
      '$' :: (name.toList ++ '$' :: ending.toList) := by
    simp [pathToken]
  rw [expand, chars, splitChars, if_pos rfl, splitChars_append noDollar]
  simp only [String.ofList_toList, isDirectory, joinChars_splitChars]

theorem expand_of_slash {text : String} {rest : List Char} (starts : text.toList = '/' :: rest) :
    anchors.expand text = Path.ofText text := by
  have different : '/' ≠ '$' := by decide
  rw [expand, starts, splitChars, if_neg different]
  split
  · rename_i parts
    split at parts
    · simp at parts
    · simp at parts
  · rfl

theorem exists_text_cons (absolute : target.isAbsolute = true) :
    ∃ rest, target.text.toList = '/' :: rest := by
  cases isRoot : target.root with
  | relative => simp [Path.isAbsolute, isRoot] at absolute
  | single =>
      rw [Path.text_single isRoot]
      exact ⟨_, String.toList_append⟩
  | double =>
      rw [Path.text_double isRoot]
      exact ⟨_, String.toList_append⟩

/-- The path below a directory that leads to it is the directory with the rest behind it. -/
theorem append_ofText_drop {directory : Path} (isWithin : target.isWithin directory = true) :
    directory.append (Path.ofText
      ("/" ++ joined "/" (target.segments.drop directory.segments.length))) = target := by
  rw [Path.isWithin, Bool.and_eq_true, decide_eq_true_eq, List.isPrefixOf_iff_prefix] at isWithin
  obtain ⟨sameRoot, below, split⟩ := isWithin
  let rest : Path := {
    root := .single
    segments := target.segments.drop directory.segments.length
    proper := fun segment member => target.proper segment (List.mem_of_mem_drop member) }
  have isText : "/" ++ joined "/" (target.segments.drop directory.segments.length) = rest.text :=
    rfl
  rw [isText, Path.ofText_text]
  apply Path.ext
  · exact sameRoot.symm
  · show directory.segments ++ target.segments.drop directory.segments.length = target.segments
    rw [← split, List.drop_left]

theorem expand_renderNormal
    (noDollars : ∀ entry ∈ anchors.directories.entries, '$' ∉ entry.1.toList)
    (absolute : target.isAbsolute = true) :
    anchors.expand (anchors.renderNormal target) = target := by
  rw [renderNormal]
  split
  · obtain ⟨rest, starts⟩ := exists_text_cons absolute
    rw [expand_of_slash starts, Path.ofText_text]
  · rename_i name directory isDeepest
    obtain ⟨member, isWithin⟩ := mem_of_deepest isDeepest
    have isDirectory := Keyed.get?_of_mem anchors.directories.nodup member
    have noDollar := noDollars _ member
    split
    · rename_i same
      have noEnding := expand_pathToken noDollar isDirectory ""
      rw [String.append_empty] at noEnding
      rw [noEnding, same]
      apply Path.ext
      · rfl
      · exact List.append_nil directory.segments
    · rw [String.append_assoc, expand_pathToken noDollar isDirectory, append_ofText_drop isWithin]

theorem eq_of_renderNormal_eq {other : Path}
    (noDollars : ∀ entry ∈ anchors.directories.entries, '$' ∉ entry.1.toList)
    (absolute : target.isAbsolute = true) (otherAbsolute : other.isAbsolute = true)
    (same : anchors.renderNormal target = anchors.renderNormal other) : target = other := by
  rw [← expand_renderNormal noDollars absolute, same,
    expand_renderNormal noDollars otherAbsolute]

end PathVariables

end IdeModules
