import IdeModules.Proofs.FileTree.PlainPaths

/-!
# What stands in a tree

Replacing a file adds directories and takes none away.  So a path that has led to a
file goes on to lead there, whatever files are replaced, and that file can be replaced
again.
-/

namespace IdeModules.FileTree

variable {tree middle after : FileTree} {path other : Path} {content : String}

/-! ## Directories that stay -/

/-- Whether every directory of a tree stands in another one. -/
structure KeepsDirectories (before after : FileTree) : Prop where
  directory : after.workingDirectory = before.workingDirectory
  stands : ∀ place, before.isDirectoryAt place = true → after.isDirectoryAt place = true

theorem KeepsDirectories.refl (tree : FileTree) : KeepsDirectories tree tree :=
  ⟨rfl, fun _ isDirectory => isDirectory⟩

theorem KeepsDirectories.trans (first : KeepsDirectories tree middle)
    (second : KeepsDirectories middle after) : KeepsDirectories tree after where
  directory := second.directory.trans first.directory
  stands place isDirectory := second.stands place (first.stands place isDirectory)

theorem keepsDirectories_put (place : Place) (entry : FileEntry) :
    KeepsDirectories tree (tree.put place entry) where
  directory := workingDirectory_put place entry
  stands _ isDirectory := isDirectoryAt_put isDirectory place entry

theorem keepsDirectories_addDirectories (tree : FileTree) (hasAdded : Bool) (place : Place)
    (segments : List String) :
    KeepsDirectories tree (tree.addDirectories hasAdded place segments).1 :=
  addDirectories_relates .refl .trans
    (fun _ => keepsDirectories_put _ _)
    tree hasAdded place segments

theorem keepsDirectories_replaceAt {bytes : ByteArray}
    (replaced : tree.replaceAt path bytes = (after, .ok ())) : KeepsDirectories tree after := by
  rcases tree.replaceAt_cases path bytes with ⟨failure, failed⟩ | ⟨_, _, isDone⟩
  · rw [failed] at replaced
    simp at replaced
  · obtain rfl := (Prod.mk.inj (isDone.symm.trans replaced)).1
    exact keepsDirectories_put _ _

/-- A file that is replaced is put at its path once directories have been added. -/
theorem exists_made_of_replace {refuses : Bool}
    (replaced : tree.replace refuses path content = (after, .ok ())) :
    ∃ made, tree.makeDirectories path.parent = (made, .ok ()) ∧
      made.replaceAt path content.toUTF8 = (after, .ok ()) := by
  unfold replace at replaced
  split at replaced
  · simp at replaced
  · rename_i made directories
    split at replaced
    · simp at replaced
    · exact ⟨made, directories, replaced⟩

theorem keepsDirectories_replace {refuses : Bool}
    (replaced : tree.replace refuses path content = (after, .ok ())) :
    KeepsDirectories tree after := by
  obtain ⟨made, directories, isPut⟩ := exists_made_of_replace replaced
  have added := keepsDirectories_addDirectories tree false (tree.startOf path.parent)
    path.parent.segments
  rw [← makeDirectories, directories] at added
  exact added.trans (keepsDirectories_replaceAt isPut)

theorem replaces_of_replace {refuses : Bool}
    (replaced : tree.replace refuses path content = (after, .ok ())) :
    Replaces path content.toUTF8 tree after := by
  obtain ⟨made, directories, isPut⟩ := exists_made_of_replace replaced
  have same := tree.sameFiles_makeDirectories path.parent
  rw [directories] at same
  exact (replaces_of_replaceAt isPut).of_sameFiles same

/-! ## Ways that stay -/

/-- Where directories stay, a way leads to the same place. -/
theorem KeepsDirectories.follow (kept : KeepsDirectories tree after) {start target : Place}
    {segments : List String} (leads : tree.follow start segments = some target) :
    after.follow start segments = some target := by
  induction segments generalizing start with
  | nil => exact leads
  | cons segment rest ih =>
      rw [FileTree.follow] at leads ⊢
      split at leads
      · rename_i isDirectory
        rw [if_pos (kept.stands start isDirectory)]
        exact ih leads
      · cases leads

theorem KeepsDirectories.placeOf (kept : KeepsDirectories tree after) {place : Place}
    (leads : tree.placeOf path = some place) : after.placeOf path = some place := by
  rw [FileTree.placeOf, startOf, kept.directory]
  exact kept.follow leads

theorem find?_eq_file_iff {bytes : ByteArray} : tree.find? path = some (.file bytes) ↔
    tree.placeOf path = some (tree.destination path) ∧
      tree.fileAt (tree.destination path) = some bytes := by
  have isFile (place : Place) :
      tree.fileAt place = some bytes ↔ tree.entryAt place = some (.file bytes) := by
    rw [fileAt]
    cases tree.entryAt place with
    | none => simp
    | some entry => cases entry <;> simp
  rw [find?, isFile]
  constructor
  · intro found
    obtain ⟨place, leads, held⟩ := Option.bind_eq_some_iff.mp found
    obtain rfl := eq_destination_of_placeOf leads
    exact ⟨leads, held⟩
  · rintro ⟨leads, held⟩
    rw [leads, Option.bind_some, held]

theorem KeepsDirectories.find? (kept : KeepsDirectories tree after) {earlier later : ByteArray}
    (found : tree.find? path = some (.file earlier))
    (held : after.fileAt (tree.destination path) = some later) :
    after.find? path = some (.file later) := by
  have sameDestination := destination_congr kept.directory path
  refine find?_eq_file_iff.mpr ⟨?_, sameDestination ▸ held⟩
  rw [sameDestination]
  exact kept.placeOf (find?_eq_file_iff.mp found).1

/-! ## Files that can be replaced -/

theorem addDirectories_of_follow (hasAdded : Bool) {start target : Place} {segments : List String}
    (leads : tree.follow start segments = some target)
    (isDirectory : tree.isDirectoryAt target = true) :
    tree.addDirectories hasAdded start segments = (tree, .ok ()) := by
  induction segments generalizing start with
  | nil => rfl
  | cons segment rest ih =>
      rw [follow] at leads
      split at leads
      · have next : tree.isDirectoryAt (Path.step start segment) = true := by
          cases rest with
          | nil =>
              obtain rfl := Option.some.inj leads
              exact isDirectory
          | cons name others =>
              rw [follow] at leads
              split at leads
              · assumption
              · cases leads
        rw [addDirectories, isDirectoryAt_iff.mp next]
        exact ih leads
      · cases leads

theorem follow_concat {start target : Place} {front : List String} {name : String}
    (leads : tree.follow start (front ++ [name]) = some target) :
    ∃ place, tree.follow start front = some place ∧ tree.isDirectoryAt place = true := by
  induction front generalizing start with
  | nil =>
      rw [List.nil_append, follow] at leads
      split at leads
      · exact ⟨start, rfl, by assumption⟩
      · cases leads
  | cons segment rest ih =>
      rw [List.cons_append, follow] at leads
      split at leads
      · rename_i isDirectory
        rw [follow, if_pos isDirectory]
        exact ih leads
      · cases leads

theorem makeDirectories_parent {place : Place} (leads : tree.placeOf path = some place) :
    tree.makeDirectories path.parent = (tree, .ok ()) := by
  rw [makeDirectories, Path.segments_parent]
  rcases List.eq_nil_or_concat path.segments with isEmpty | ⟨front, name, segments⟩
  · rw [isEmpty]
    rfl
  · rw [placeOf, segments, List.concat_eq_append] at leads
    obtain ⟨above, toAbove, isDirectory⟩ := follow_concat leads
    rw [segments, List.concat_eq_append, List.dropLast_concat]
    exact addDirectories_of_follow false toAbove isDirectory

theorem exists_replace_of_find? {bytes : ByteArray} (found : tree.find? path = some (.file bytes))
    (content : String) : ∃ files, tree.replace false path content = (files, .ok ()) := by
  obtain ⟨leads, held⟩ := find?_eq_file_iff.mp found
  have notDirectory := isDirectoryAt_eq_false_of_fileAt (Option.isSome_iff_exists.mpr ⟨_, held⟩)
  rw [replace, makeDirectories_parent leads]
  simp [replaceAt, leads, notDirectory]

theorem find?_of_replace {refuses : Bool} {bytes : ByteArray}
    (found : tree.find? other = some (.file bytes))
    (replaced : tree.replace refuses path content = (after, .ok ()))
    (elsewhere : tree.destination path ≠ tree.destination other) :
    after.find? other = some (.file bytes) := by
  have held := (replaces_of_replace replaced).files (tree.destination other)
  rw [if_neg elsewhere, (find?_eq_file_iff.mp found).2] at held
  exact (keepsDirectories_replace replaced).find? found held

/-! ## Texts -/

theorem textOf_toUTF8 (text : String) :
    textOf text.toUTF8 = .ok (String.ofList (Xml.normalizeLineEnds text.toList)) := by
  simp only [textOf, fromUTF8?_toUTF8]

theorem readText_eq_ok {text : String} (read : tree.readText path = .ok text) :
    ∃ bytes, tree.find? path = some (.file bytes) ∧ textOf bytes = .ok text := by
  unfold readText at read
  split at read
  · exact ⟨_, by assumption, read⟩
  · exact nomatch read
  · exact nomatch read

/-- Whether a path leads to a file with a text of some kind. -/
def HoldsText (tree : FileTree) (path : Path) (kind : String → Prop) : Prop :=
  ∃ text, tree.find? path = some (.file text.toUTF8) ∧ kind text

variable {kind : String → Prop}

theorem holdsText_of_replace {refuses : Bool}
    (replaced : tree.replace refuses path content = (after, .ok ())) (isKind : kind content) :
    after.HoldsText path kind :=
  ⟨content, (find?_replace replaced).1, isKind⟩

/-- A file keeps its kind when a file is replaced that is another one or gets a text of this
kind. -/
theorem HoldsText.of_replace {refuses : Bool} (holds : tree.HoldsText other kind)
    (replaced : tree.replace refuses path content = (after, .ok ()))
    (isKind : tree.destination path = tree.destination other → kind content) :
    after.HoldsText other kind := by
  obtain ⟨text, found, isText⟩ := holds
  by_cases same : tree.destination path = tree.destination other
  · have held := (replaces_of_replace replaced).files (tree.destination other)
    rw [if_pos same] at held
    exact ⟨content, (keepsDirectories_replace replaced).find? found held, isKind same⟩
  · exact ⟨text, find?_of_replace found replaced same, isText⟩

end IdeModules.FileTree
