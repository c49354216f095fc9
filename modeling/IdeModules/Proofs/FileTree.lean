import IdeModules.FileTree
import IdeModules.Proofs.Xml.LineEnds

/-!
# Replaced files

Every way through a tree ends in a directory, so what is put where no directory
stands is found there.  A file that has been replaced is found under its path with
its new content, and reading its text gives the text that was written, line ends
aside.
-/

namespace IdeModules

namespace FileTree

variable {tree : FileTree}

/-! ## Directories -/

theorem isDirectoryAt_iff {place : Place} : tree.isDirectoryAt place = true ↔
    tree.entryAt place = some .directory := by
  rw [isDirectoryAt, beq_iff_eq]

theorem isDirectoryAt_root : tree.isDirectoryAt [] = true :=
  rfl

theorem isDirectoryAt_eq_false_of_free {place : Place} (isFree : tree.entryAt place = none) :
    tree.isDirectoryAt place = false := by
  rw [isDirectoryAt, isFree]
  rfl

theorem isDirectoryAt_dropLast {place : Place} (isThere : (tree.entryAt place).isSome) :
    tree.isDirectoryAt place.dropLast = true := by
  by_cases isRoot : place = []
  · subst isRoot
    exact isDirectoryAt_root
  · rw [entryAt, entryIn, if_neg (by simpa using isRoot)] at isThere
    obtain ⟨entry, held⟩ := Option.isSome_iff_exists.mp isThere
    exact isDirectoryAt_iff.mpr (tree.rooted _ (Keyed.mem_of_get? held))

theorem isDirectoryAt_dropLast_of_directory {place : Place}
    (isDirectory : tree.isDirectoryAt place = true) :
    tree.isDirectoryAt place.dropLast = true := by
  apply isDirectoryAt_dropLast
  rw [isDirectoryAt_iff.mp isDirectory]
  rfl

theorem isDirectoryAt_dropLast_step {place : Place}
    (isDirectory : tree.isDirectoryAt place = true) (segment : String) :
    tree.isDirectoryAt (Path.step place segment).dropLast = true := by
  rw [Path.step]
  split
  · exact isDirectoryAt_dropLast_of_directory (isDirectoryAt_dropLast_of_directory isDirectory)
  · rwa [List.dropLast_concat]

theorem isDirectoryAt_startOf (tree : FileTree) (path : Path) :
    tree.isDirectoryAt (tree.startOf path) = true := by
  rw [startOf]
  split
  · exact isDirectoryAt_root
  · exact isDirectoryAt_iff.mpr tree.starts

theorem isDirectoryAt_dropLast_follow {segments : List String} {start target : Place}
    (starts : tree.isDirectoryAt start.dropLast = true)
    (leads : tree.follow start segments = some target) :
    tree.isDirectoryAt target.dropLast = true := by
  induction segments generalizing start with
  | nil =>
      obtain rfl := Option.some.inj leads
      exact starts
  | cons segment rest ih =>
      rw [follow] at leads
      split at leads
      · rename_i isDirectory
        exact ih (isDirectoryAt_dropLast_step isDirectory segment) leads
      · simp at leads

theorem isDirectoryAt_dropLast_placeOf {path : Path} {place : Place}
    (leads : tree.placeOf path = some place) : tree.isDirectoryAt place.dropLast = true :=
  isDirectoryAt_dropLast_follow
    (isDirectoryAt_dropLast_of_directory (tree.isDirectoryAt_startOf path)) leads

/-! ## Putting an entry -/

@[simp] theorem workingDirectory_put (place : Place) (entry : FileEntry) :
    (tree.put place entry).workingDirectory = tree.workingDirectory := by
  unfold put
  split <;> rfl

theorem entries_put {place : Place} (above : tree.isDirectoryAt place.dropLast = true)
    (notDirectory : tree.isDirectoryAt place = false) (entry : FileEntry) :
    (tree.put place entry).entries = Keyed.put place entry tree.entries := by
  rw [put, dif_pos ⟨above, notDirectory⟩]

theorem startOf_put (place : Place) (entry : FileEntry) (path : Path) :
    (tree.put place entry).startOf path = tree.startOf path := by
  rw [startOf, startOf, workingDirectory_put]

theorem entryAt_put_same {place : Place} (above : tree.isDirectoryAt place.dropLast = true)
    (notDirectory : tree.isDirectoryAt place = false) (entry : FileEntry) :
    (tree.put place entry).entryAt place = some entry := by
  have notRoot : place ≠ [] := by
    rintro rfl
    exact Bool.false_ne_true (notDirectory.symm.trans isDirectoryAt_root)
  rw [entryAt, entries_put above notDirectory, entryIn, if_neg (by simpa using notRoot),
    Keyed.get?_put_same]

theorem entryAt_put_other {place other : Place} (different : place ≠ other)
    (entry : FileEntry) : (tree.put place entry).entryAt other = tree.entryAt other := by
  unfold put
  split
  · rw [entryAt, entryIn, Keyed.get?_put, if_neg different]
    rfl
  · rfl

theorem isDirectoryAt_put {front : Place} (isDirectory : tree.isDirectoryAt front = true)
    (place : Place) (entry : FileEntry) : (tree.put place entry).isDirectoryAt front = true := by
  unfold put
  split
  · rename_i free
    exact isDirectoryAt_iff.mpr
      (entryIn_put (entryIn_ne_directory free.2) entry (isDirectoryAt_iff.mp isDirectory))
  · exact isDirectory

theorem follow_put (place : Place) (entry : FileEntry) {segments : List String}
    {start target : Place} (leads : tree.follow start segments = some target) :
    (tree.put place entry).follow start segments = some target := by
  induction segments generalizing start with
  | nil => exact leads
  | cons segment rest ih =>
      rw [follow] at leads ⊢
      split at leads
      · rename_i isDirectory
        rw [if_pos (isDirectoryAt_put isDirectory place entry)]
        exact ih leads
      · simp at leads

theorem workingDirectory_addDirectories (hasAdded : Bool) (place : Place)
    (segments : List String) :
    (tree.addDirectories hasAdded place segments).1.workingDirectory = tree.workingDirectory := by
  induction segments generalizing tree hasAdded place with
  | nil => rfl
  | cons segment rest ih =>
      rw [addDirectories]
      split
      · exact ih hasAdded _
      · rfl
      · rw [ih, workingDirectory_put]

/-! ## Replacing a file -/

theorem find?_replaceAt {path : Path} {content : ByteArray} {after : FileTree}
    (replaced : tree.replaceAt path content = (after, .ok ())) :
    after.find? path = some (.file content) ∧
      after.workingDirectory = tree.workingDirectory := by
  unfold replaceAt at replaced
  split at replaced
  · simp at replaced
  · rename_i place leads
    split at replaced
    · simp at replaced
    · rename_i notDirectory
      have isFree : tree.isDirectoryAt place = false := by simpa using notDirectory
      obtain rfl := (Prod.mk.inj replaced).1
      have sameWay : (tree.put place (.file content)).placeOf path = some place := by
        rw [placeOf, startOf_put]
        exact follow_put place _ leads
      constructor
      · rw [find?, sameWay, Option.bind_some,
          entryAt_put_same (isDirectoryAt_dropLast_placeOf leads) isFree]
      · exact workingDirectory_put _ _

/-- What becomes of a tree where the file at a path is replaced at once: the directories that it
needs are added, and the new file may be refused its place. -/
def replace (tree : FileTree) (refuses : Bool) (path : Path) (content : String) :
    FileTree × Except Error Unit :=
  match tree.makeDirectories path.parent with
  | (made, .error failure) => (made, .error failure)
  | (made, .ok ()) =>
    if refuses then (made, .error .notReplaced) else made.replaceAt path content.toUTF8

/-- A replaced file holds its new content. -/
theorem find?_replace {refuses : Bool} {path : Path} {content : String} {after : FileTree}
    (replaced : tree.replace refuses path content = (after, .ok ())) :
    after.find? path = some (.file content.toUTF8) ∧
      after.workingDirectory = tree.workingDirectory := by
  unfold replace at replaced
  split at replaced
  · simp at replaced
  · rename_i made directories
    have kept : made.workingDirectory = tree.workingDirectory := by
      have added := tree.workingDirectory_addDirectories false (tree.startOf path.parent)
        path.parent.segments
      rw [← makeDirectories, directories] at added
      exact added
    split at replaced
    · simp at replaced
    · obtain ⟨found, same⟩ := find?_replaceAt replaced
      exact ⟨found, same.trans kept⟩

theorem exists_replaceAt {path : Path} {content : ByteArray} {after : FileTree}
    (replaced : tree.replaceAt path content = (after, .ok ())) (other : ByteArray) :
    ∃ files, tree.replaceAt path other = (files, .ok ()) := by
  unfold replaceAt at replaced ⊢
  split at replaced
  · simp at replaced
  · split at replaced
    · simp at replaced
    · rename_i place notDirectory
      exact ⟨_, if_neg notDirectory⟩

/-- Whether a file can be replaced does not depend on its new content. -/
theorem exists_replace {refuses : Bool} {path : Path} {content : String} {after : FileTree}
    (replaced : tree.replace refuses path content = (after, .ok ())) (other : String) :
    ∃ files, tree.replace refuses path other = (files, .ok ()) := by
  unfold replace at replaced ⊢
  split at replaced
  · simp at replaced
  · split at replaced
    · simp at replaced
    · rename_i made _ allowed
      obtain ⟨files, isReplaced⟩ := exists_replaceAt replaced other.toUTF8
      exact ⟨files, (if_neg allowed).trans isReplaced⟩

/-! ## Reading a text -/

theorem fromUTF8?_toUTF8 (text : String) : String.fromUTF8? text.toUTF8 = some text := by
  have valid : text.toUTF8.IsValidUTF8 := text.isValidUTF8
  rw [String.fromUTF8?, dif_pos valid]
  rfl

theorem readText_of_find? {path : Path} {content : String}
    (found : tree.find? path = some (.file content.toUTF8)) :
    tree.readText path = .ok (String.ofList (Xml.normalizeLineEnds content.toList)) := by
  rw [readText, found]
  simp only [textOf, fromUTF8?_toUTF8]

theorem contains_of_find? {path : Path} {entry : FileEntry}
    (found : tree.find? path = some entry) : tree.contains path = true := by
  rw [contains, found]
  rfl

end FileTree

end IdeModules
