import IdeModules.Proofs.Entries
import IdeModules.Proofs.Ownership

/-!
# Most specific variables

Of the variables whose directories lead to a normal path, the first one with the deepest directory
renders it; a path that none leads to is rendered in full.  The directory in place of the token
gives back the path, so two paths are rendered alike if and only if they have one normal form, and
so it is with their URLs.
-/

namespace IdeModules

namespace Path

/-- Whether segments lead from a directory to a path. -/
def LeadsTo (directory : Path) (below : List String) (path : Path) : Prop :=
  path.root = directory.root ∧ path.segments = directory.segments ++ below

variable {path directory : Path}

theorem isWithin_iff : path.isWithin directory = true ↔
    ∃ below, directory.LeadsTo below path := by
  rw [isWithin, Bool.and_eq_true, decide_eq_true_eq, List.isPrefixOf_iff_prefix]
  constructor
  · rintro ⟨sameRoot, below, split⟩
    exact ⟨below, sameRoot, split.symm⟩
  · rintro ⟨below, sameRoot, split⟩
    exact ⟨sameRoot, below, split.symm⟩

theorem LeadsTo.eq_iff {below : List String} (leads : directory.LeadsTo below path) :
    path = directory ↔ below = [] := by
  constructor
  · rintro rfl
    exact List.append_right_eq_self.mp leads.2.symm
  · rintro rfl
    exact Path.ext leads.1 (leads.2.trans (List.append_nil _))

theorem normalize_of_isPlain (plain : path.IsPlain) (start : Path) :
    normalize start path = path := by
  have isWalk : walk path.segments = path.segments := by
    rw [walk, FileTree.foldl_step_of_forward plain.forward, List.nil_append]
  apply Path.ext
  · rw [root_normalize, join_of_isAbsolute plain.absolute]
    cases root : path.root with
    | relative => exact absurd plain.absolute (by simp [isAbsolute, root])
    | single => rfl
    | double => rfl
  · rw [segments_normalize, join_of_isAbsolute plain.absolute, isWalk]

end Path

/-! ## Deepest directories -/

namespace PathVariables

section Deepest

variable {anchors : PathVariables} {target : Path}

/-- What is written behind a token for the segments below its directory. -/
def ending (below : List String) : String :=
  if below = [] then "" else "/" ++ joined "/" below

/-- Whether a variable is the one to render a normal path with: its directory leads to the path by
the segments below, that of a variable before it does so only if it is less deep, and that of a
variable behind it only if it is not deeper. -/
structure IsMostSpecific (anchors : PathVariables) (target : Path) (name : String)
    (directory : Path) (below : List String) : Prop where
  leads : directory.LeadsTo below target
  first : ∃ before behind, anchors.directories.entries = before ++ (name, directory) :: behind ∧
    (∀ entry ∈ before, ∀ rest, entry.2.LeadsTo rest target →
      entry.2.segments.length < directory.segments.length) ∧
    ∀ entry ∈ behind, ∀ rest, entry.2.LeadsTo rest target →
      entry.2.segments.length ≤ directory.segments.length

theorem IsMostSpecific.mem_directories {name : String} {directory : Path} {below : List String}
    (isMostSpecific : anchors.IsMostSpecific target name directory below) :
    (name, directory) ∈ anchors.directories.entries := by
  obtain ⟨before, behind, split, _⟩ := isMostSpecific.first
  rw [split]
  exact List.mem_append_right _ List.mem_cons_self

/-- Whether an entry of a list is the first one of the deepest. -/
def IsFirstDeepest (entries : List (String × Path)) (found : String × Path) : Prop :=
  ∃ before behind, entries = before ++ found :: behind ∧
    (∀ entry ∈ before, entry.2.segments.length < found.2.segments.length) ∧
    ∀ entry ∈ behind, entry.2.segments.length ≤ found.2.segments.length

theorem isFirstDeepest_head {entry : String × Path} {rest : List (String × Path)}
    (noneDeeper : ∀ other ∈ rest, other.2.segments.length ≤ entry.2.segments.length) :
    IsFirstDeepest (entry :: rest) entry :=
  ⟨[], rest, rfl, List.forall_mem_nil _, noneDeeper⟩

theorem IsFirstDeepest.cons {entry found : String × Path} {rest : List (String × Path)}
    (isFirst : IsFirstDeepest rest found)
    (deeper : entry.2.segments.length < found.2.segments.length) :
    IsFirstDeepest (entry :: rest) found := by
  obtain ⟨before, behind, rfl, lessDeep, notDeeper⟩ := isFirst
  exact ⟨entry :: before, behind, rfl, List.forall_mem_cons.mpr ⟨deeper, lessDeep⟩, notDeeper⟩

/-- What is held at first stays, unless an entry is deeper. -/
theorem foldl_deeper_some (entries : List (String × Path)) (held : String × Path) :
    (entries.foldl deeper (some held) = some held ∧
      ∀ entry ∈ entries, entry.2.segments.length ≤ held.2.segments.length) ∨
    ∃ found, entries.foldl deeper (some held) = some found ∧ IsFirstDeepest entries found ∧
      held.2.segments.length < found.2.segments.length := by
  induction entries generalizing held with
  | nil => exact .inl ⟨rfl, List.forall_mem_nil _⟩
  | cons entry rest ih =>
      rw [List.foldl_cons, deeper]
      split
      · rename_i isDeeper
        obtain ⟨stays, noneDeeper⟩ | ⟨found, isFound, isFirst, deeperThanEntry⟩ :=
          ih entry
        · exact .inr ⟨entry, stays, isFirstDeepest_head noneDeeper, isDeeper⟩
        · exact .inr ⟨found, isFound, isFirst.cons deeperThanEntry,
            Nat.lt_trans isDeeper deeperThanEntry⟩
      · rename_i notDeeper
        have noDeeper := Nat.not_lt.mp notDeeper
        obtain ⟨stays, noneDeeper⟩ | ⟨found, isFound, isFirst, deeperThanHeld⟩ :=
          ih held
        · exact .inl ⟨stays, List.forall_mem_cons.mpr ⟨noDeeper, noneDeeper⟩⟩
        · exact .inr ⟨found, isFound, isFirst.cons (Nat.lt_of_le_of_lt noDeeper deeperThanHeld),
            deeperThanHeld⟩

theorem foldl_deeper_none (entries : List (String × Path)) :
    (entries.foldl deeper none = none ∧ entries = []) ∨
      ∃ found, entries.foldl deeper none = some found ∧ IsFirstDeepest entries found := by
  cases entries with
  | nil => exact .inl ⟨rfl, rfl⟩
  | cons entry rest =>
      refine .inr ?_
      rw [List.foldl_cons, deeper]
      obtain ⟨stays, noneDeeper⟩ | ⟨found, isFound, isFirst, deeperThanEntry⟩ :=
        foldl_deeper_some rest entry
      · exact ⟨entry, stays, isFirstDeepest_head noneDeeper⟩
      · exact ⟨found, isFound, isFirst.cons deeperThanEntry⟩

/-- The first of the deepest entries that pass a test is followed and preceded by others that pass
it only if they are not as deep. -/
theorem exists_split_of_filter {keep : String × Path → Bool} {entries : List (String × Path)}
    {found : String × Path} (isFirst : IsFirstDeepest (entries.filter keep) found) :
    ∃ before behind, entries = before ++ found :: behind ∧
      (∀ entry ∈ before, keep entry = true →
        entry.2.segments.length < found.2.segments.length) ∧
      ∀ entry ∈ behind, keep entry = true →
        entry.2.segments.length ≤ found.2.segments.length := by
  obtain ⟨keptBefore, keptBehind, split, lessDeep, notDeeper⟩ := isFirst
  obtain ⟨front, back, rfl, rfl, isBack⟩ := List.filter_eq_append_iff.mp split
  obtain ⟨skipped, behind, rfl, noneKept, _, rfl⟩ := List.filter_eq_cons_iff.mp isBack
  refine ⟨front ++ skipped, behind, (List.append_assoc _ _ _).symm, ?_, ?_⟩
  · intro entry member isKept
    rcases List.mem_append.mp member with inFront | isSkipped
    · exact lessDeep entry (List.mem_filter.mpr ⟨inFront, isKept⟩)
    · exact absurd isKept (noneKept entry isSkipped)
  · intro entry member isKept
    exact notDeeper entry (List.mem_filter.mpr ⟨member, isKept⟩)

/-- A normal path is rendered in full if no directory leads to it, and otherwise with the most
specific variable. -/
theorem renderNormal_cases (anchors : PathVariables) (target : Path) :
    ((∀ entry ∈ anchors.directories.entries, ∀ below, ¬entry.2.LeadsTo below target) ∧
      anchors.renderNormal target = target.text) ∨
    ∃ name directory below, anchors.IsMostSpecific target name directory below ∧
      anchors.renderNormal target = pathToken name ++ ending below := by
  obtain ⟨isNone, noneLeads⟩ | ⟨⟨name, directory⟩, isDeepest, isFirst⟩ :=
    foldl_deeper_none (anchors.directories.entries.filter fun entry => target.isWithin entry.2)
  · refine .inl ⟨?_, ?_⟩
    · intro entry member below leads
      exact List.filter_eq_nil_iff.mp noneLeads entry member (Path.isWithin_iff.mpr ⟨below, leads⟩)
    · rw [renderNormal, deepest, isNone]
  · refine .inr ?_
    have isFound : anchors.deepest target = some (name, directory) := isDeepest
    obtain ⟨below, leads⟩ := Path.isWithin_iff.mp (mem_of_deepest isFound).2
    obtain ⟨before, behind, split, lessDeep, notDeeper⟩ := exists_split_of_filter isFirst
    refine ⟨name, directory, below, ⟨leads, before, behind, split, ?_, ?_⟩, ?_⟩
    · exact fun entry member rest isWithin =>
        lessDeep entry member (Path.isWithin_iff.mpr ⟨rest, isWithin⟩)
    · exact fun entry member rest isWithin =>
        notDeeper entry member (Path.isWithin_iff.mpr ⟨rest, isWithin⟩)
    · rw [renderNormal, isFound, ending]
      simp only [leads.eq_iff]
      split
      · rw [String.append_empty]
      · rw [leads.2, List.drop_left, String.append_assoc]

/-- A token is no text of a path that stands at a root. -/
theorem pathToken_append_ne (name rest : String) (absolute : target.isAbsolute = true) :
    pathToken name ++ rest ≠ target.text := by
  intro same
  obtain ⟨others, starts⟩ := exists_text_cons absolute
  have chars : (pathToken name ++ rest).toList = '$' :: (name ++ "$" ++ rest).toList := by
    simp [pathToken]
  rw [same, starts] at chars
  exact absurd (List.cons.inj chars).1 (by decide)

theorem joinChars_cons {separator : Char} (part : List Char) {rest : List (List Char)}
    (restSome : rest ≠ []) :
    joinChars separator (part :: rest) = part ++ separator :: joinChars separator rest := by
  rw [joinChars]
  exact restSome

theorem joinChars_append {separator : Char} {front back : List (List Char)} (frontSome : front ≠ [])
    (backSome : back ≠ []) : joinChars separator (front ++ back) =
      joinChars separator front ++ separator :: joinChars separator back := by
  induction front with
  | nil => exact absurd rfl frontSome
  | cons part rest ih =>
      cases rest with
      | nil => rw [List.singleton_append, joinChars_cons part backSome, joinChars]
      | cons other others =>
          have restSome : other :: others ≠ [] := List.cons_ne_nil _ _
          have allSome : other :: others ++ back ≠ [] := List.cons_ne_nil _ _
          rw [List.cons_append, joinChars_cons part allSome, ih restSome,
            joinChars_cons part restSome, List.append_assoc, List.cons_append]

theorem joined_append {front back : List String} (frontSome : front ≠ []) (backSome : back ≠ []) :
    joined "/" (front ++ back) = joined "/" front ++ "/" ++ joined "/" back := by
  rw [← String.toList_inj, toList_joined, List.map_append,
    joinChars_append (by simpa using frontSome) (by simpa using backSome), ← toList_joined,
    ← toList_joined, String.toList_append, String.toList_append, List.append_assoc]
  rfl

theorem text_of_leadsTo {directory : Path} {below : List String}
    (leads : directory.LeadsTo below target) (notRoot : directory.segments ≠ [])
    (absolute : directory.isAbsolute = true) :
    target.text = directory.text ++ ending below := by
  rw [ending]
  split
  · rename_i isDirectory
    rw [leads.eq_iff.mpr isDirectory, String.append_empty]
  · rename_i isBelow
    have whole := joined_append notRoot isBelow
    obtain ⟨sameRoot, segments⟩ := leads
    cases root : directory.root with
    | relative => exact absurd absolute (by simp [Path.isAbsolute, root])
    | single => simp only [Path.text, sameRoot, root, segments, whole, String.append_assoc]
    | double => simp only [Path.text, sameRoot, root, segments, whole, String.append_assoc]

end Deepest

/-! ## Paths from their renderings -/

/-- Whether the variables can be told from their tokens. -/
def IsReadable (anchors : PathVariables) : Prop :=
  ∀ entry ∈ anchors.directories.entries, '$' ∉ entry.1.toList

/-- Variables whose names hold no dollar sign but around them can be told from their tokens. -/
theorem isReadable_ofPairs (start : Path) {pairs : List (String × Option Path)}
    (noDollars : ∀ pair ∈ pairs, '$' ∉ (bareName pair.1).toList)
    (descriptorDirectory : Option Path) :
    (ofPairs start pairs descriptorDirectory).IsReadable := by
  intro entry member
  rcases List.mem_append.mp ((Keyed.mem_putAll member).resolve_right List.not_mem_nil) with
    isNamed | isOwn
  · obtain ⟨pair, isPair, rfl⟩ := List.mem_map.mp isNamed
    exact noDollars pair isPair
  · cases descriptorDirectory with
    | none => exact absurd isOwn List.not_mem_nil
    | some directory =>
        obtain rfl := List.mem_singleton.mp isOwn
        exact (by decide : '$' ∉ moduleDirectory.toList)

section Readable

variable {anchors : PathVariables}

theorem render_eq_of_libraryUrl_eq {left right : Path}
    (same : anchors.libraryUrl left = anchors.libraryUrl right) :
    anchors.render (some left) = anchors.render (some right) := by
  rw [libraryUrl, libraryUrl, fileUrl, fileUrl, ← String.toList_inj] at same
  split at same <;> split at same
  · simpa [String.toList_inj] using same
  · simp at same
  · simp at same
  · simpa [String.toList_inj] using same

theorem libraryUrl_inj {left right : Path} (readable : anchors.IsReadable)
    (leftPlain : left.IsPlain) (rightPlain : right.IsPlain)
    (same : anchors.libraryUrl left = anchors.libraryUrl right) : left = right := by
  have isSame {path : Path} (plain : path.IsPlain) : anchors.normalize (some path) = path :=
    Path.normalize_of_isPlain plain anchors.start
  have rendered := render_eq_of_libraryUrl_eq same
  rw [render, render, isSame leftPlain, isSame rightPlain] at rendered
  exact eq_of_renderNormal_eq readable leftPlain.absolute rightPlain.absolute rendered

theorem render_eq_text_iff (anchors : PathVariables) (path : Option Path) :
    anchors.render path = (anchors.normalize path).text ↔
      ∀ entry ∈ anchors.directories.entries, ∀ below,
        ¬entry.2.LeadsTo below (anchors.normalize path) := by
  have absolute := (isPlain_normalize anchors.start (spelledPath path)).absolute
  obtain ⟨noneLeads, inFull⟩ | ⟨name, _, below, isMostSpecific, withToken⟩ :=
    renderNormal_cases anchors (anchors.normalize path)
  · exact ⟨fun _ => noneLeads, fun _ => inFull⟩
  · constructor
    · intro inFull
      exact absurd (withToken.symm.trans inFull) (pathToken_append_ne name _ absolute)
    · intro noneLeads
      exact absurd isMostSpecific.leads (noneLeads _ isMostSpecific.mem_directories below)

/-- A path that a directory leads to is rendered with the most specific variable. -/
theorem exists_render_eq_token {path : Option Path} {entry : String × Path}
    (member : entry ∈ anchors.directories.entries) {rest : List String}
    (leads : entry.2.LeadsTo rest (anchors.normalize path)) : ∃ name directory below,
      anchors.IsMostSpecific (anchors.normalize path) name directory below ∧
      anchors.render path = pathToken name ++ ending below ∧
      (directory.segments ≠ [] →
        directory.text ++ ending below = (anchors.normalize path).text) := by
  have absolute := (isPlain_normalize anchors.start (spelledPath path)).absolute
  obtain ⟨noneLeads, _⟩ | ⟨name, directory, below, isMostSpecific, withToken⟩ :=
    renderNormal_cases anchors (anchors.normalize path)
  · exact absurd leads (noneLeads entry member rest)
  · refine ⟨name, directory, below, isMostSpecific, withToken, ?_⟩
    intro notRoot
    have leads := isMostSpecific.leads
    have sameStart : directory.isAbsolute = true := by rwa [Path.isAbsolute, ← leads.1]
    exact (text_of_leadsTo leads notRoot sameStart).symm

variable {left right : Option Path} (readable : anchors.IsReadable)

include readable

theorem expand_render (path : Option Path) :
    anchors.expand (anchors.render path) = anchors.normalize path :=
  expand_renderNormal readable (isPlain_normalize anchors.start (spelledPath path)).absolute

theorem render_eq_iff : anchors.render left = anchors.render right ↔
    anchors.normalize left = anchors.normalize right := by
  constructor
  · intro same
    rw [← expand_render readable left, same, expand_render readable right]
  · intro same
    rw [render, render, same]

theorem fileUrl_eq_iff : anchors.fileUrl left = anchors.fileUrl right ↔
    anchors.normalize left = anchors.normalize right := by
  rw [fileUrl, fileUrl, String.append_right_inj, render_eq_iff readable]

theorem fileUrl_inj {left right : Path} (leftPlain : left.IsPlain)
    (rightPlain : right.IsPlain)
    (same : anchors.fileUrl (some left) = anchors.fileUrl (some right)) : left = right := by
  have normalForms := (fileUrl_eq_iff readable).mp same
  rwa [normalize, normalize, spelledPath, spelledPath, Option.getD_some, Option.getD_some,
    Path.normalize_of_isPlain leftPlain, Path.normalize_of_isPlain rightPlain] at normalForms

end Readable

/-- Whether paths are rendered with the most specific variable, in full only where there is none,
and can be told from their renderings and URLs up to their normal forms. -/
structure RendersLosslessly (anchors : PathVariables) : Prop where
  inFull : ∀ path, anchors.render path = (anchors.normalize path).text ↔
    ∀ entry ∈ anchors.directories.entries, ∀ below,
      ¬entry.2.LeadsTo below (anchors.normalize path)
  withToken : ∀ path, ∀ entry ∈ anchors.directories.entries, ∀ rest,
    entry.2.LeadsTo rest (anchors.normalize path) → ∃ name directory below,
      anchors.IsMostSpecific (anchors.normalize path) name directory below ∧
      anchors.render path = pathToken name ++ ending below ∧
      (directory.segments ≠ [] →
        directory.text ++ ending below = (anchors.normalize path).text)
  restored : ∀ path, anchors.expand (anchors.render path) = anchors.normalize path
  renderings : ∀ left right, anchors.render left = anchors.render right ↔
    anchors.normalize left = anchors.normalize right
  directoryUrls : ∀ left right, anchors.fileUrl left = anchors.fileUrl right ↔
    anchors.normalize left = anchors.normalize right
  libraryUrls : ∀ left right : Path, anchors.libraryUrl left = anchors.libraryUrl right →
    anchors.normalize (some left) = anchors.normalize (some right)
  normalUrls : ∀ left right : Path, left.IsPlain → right.IsPlain →
    (anchors.fileUrl (some left) = anchors.fileUrl (some right) → left = right) ∧
      (anchors.libraryUrl left = anchors.libraryUrl right → left = right)

/-- Of each path there is one rendering for its normal form, with the most specific variable, and
the directory in place of the token gives back the normal form. -/
theorem rendering_is_lossless (start : Path) {pairs : List (String × Option Path)}
    (noDollars : ∀ pair ∈ pairs, '$' ∉ (bareName pair.1).toList)
    (descriptorDirectory : Option Path) :
    (ofPairs start pairs descriptorDirectory).RendersLosslessly := by
  have readable := isReadable_ofPairs start noDollars descriptorDirectory
  constructor
  case inFull => exact render_eq_text_iff _
  case withToken =>
    intro path entry member below leads
    exact exists_render_eq_token member leads
  case restored => exact expand_render readable
  case renderings =>
    intro left right
    exact render_eq_iff readable
  case directoryUrls =>
    intro left right
    exact fileUrl_eq_iff readable
  case libraryUrls =>
    intro left right same
    exact (render_eq_iff readable).mp (render_eq_of_libraryUrl_eq same)
  case normalUrls =>
    intro left right leftPlain rightPlain
    exact ⟨fileUrl_inj readable leftPlain rightPlain, libraryUrl_inj readable leftPlain rightPlain⟩

/-- Variables of a root of either kind, and of one directory that is spelled in two ways. -/
def nestedPairs : List (String × Option Path) :=
  [("$ROOT$", some ⟨.single, [], Path.proper_nil⟩), ("LIB", some ⟨.relative, ["jars"], by decide⟩),
    ("SAME", some ⟨.single, ["ws", "x", "..", "jars"], by decide⟩),
    ("NET", some ⟨.double, [], Path.proper_nil⟩)]

def nestedAnchors : PathVariables :=
  ofPairs Path.workspace nestedPairs (some Path.workspace)

theorem nested_rendering_is_lossless :
    (∀ pair ∈ nestedPairs, '$' ∉ (bareName pair.1).toList) ∧
      nestedAnchors.render (some ⟨.relative, ["y", "..", "jars", "a.jar"], by decide⟩) =
        "$LIB$/a.jar" ∧
      nestedAnchors.expand "$LIB$/a.jar" = ⟨.single, ["ws", "jars", "a.jar"], by decide⟩ ∧
      nestedAnchors.render (some Path.workspace) = "$MODULE_DIR$" ∧
      nestedAnchors.render (some ⟨.single, ["opt"], by decide⟩) = "$ROOT$/opt" ∧
      nestedAnchors.render (some ⟨.double, ["opt"], by decide⟩) = "$NET$/opt" := by
  have noDollars : ∀ pair ∈ nestedPairs, '$' ∉ (bareName pair.1).toList := by decide
  have lossless : nestedAnchors.RendersLosslessly := rendering_is_lossless _ noDollars _
  let archive : Path := ⟨.relative, ["y", "..", "jars", "a.jar"], by decide⟩
  have isRendered : nestedAnchors.render (some archive) = "$LIB$/a.jar" := by decide
  have restored := lossless.restored (some archive)
  rw [isRendered] at restored
  exact ⟨noDollars, isRendered, restored, by decide, by decide, by decide⟩

def dollarDirectory : Path := ⟨.single, ["y"], by decide⟩

/-- Variables of which one has a dollar sign in its name. -/
def dollarPairs : List (String × Option Path) :=
  [("A", some ⟨.single, ["x"], by decide⟩), ("A$/b", some dollarDirectory)]

end PathVariables

end IdeModules
