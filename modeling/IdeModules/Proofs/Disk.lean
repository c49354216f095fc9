import IdeModules.Disk
import IdeModules.Proofs.FileTree.PlainPaths

/-!
# Files that are replaced through temporary ones

Whatever step a disk refuses, either the file is replaced or every file is as it was, and the
temporary file is gone in both cases.  On a disk that refuses nothing the file is replaced as if
there were no temporary one.
-/

namespace IdeModules

namespace FileTree

variable {tree made after : FileTree} {place : Place} {path : Path}

theorem followedBy_ok (made : FileTree) (next : FileTree → FileTree × Except Error Unit) :
    followedBy (made, .ok ()) next = next made :=
  rfl

/-! ## The temporary file -/

theorem get?_of_entryAt_none (isFree : tree.entryAt place = none) :
    Keyed.get? place tree.entries = none := by
  rw [entryAt, entryIn] at isFree
  split at isFree
  · simp at isFree
  · exact isFree

theorem entries_discard (notDirectory : tree.isDirectoryAt place = false) :
    (tree.discard place).entries = Keyed.erase place tree.entries := by
  rw [discard, dif_pos notDirectory]

theorem workingDirectory_discard (tree : FileTree) (place : Place) :
    (tree.discard place).workingDirectory = tree.workingDirectory := by
  unfold discard
  split <;> rfl

theorem isDirectoryAt_put_file (above : tree.isDirectoryAt place.dropLast = true)
    (notDirectory : tree.isDirectoryAt place = false) (content : ByteArray) :
    (tree.put place (.file content)).isDirectoryAt place = false := by
  rw [isDirectoryAt, entryAt_put_same above notDirectory]
  rfl

theorem discard_put (above : tree.isDirectoryAt place.dropLast = true)
    (isFree : tree.entryAt place = none) (content : ByteArray) :
    (tree.put place (.file content)).discard place = tree := by
  have notDirectory := isDirectoryAt_eq_false_of_free isFree
  let keep : Place → Bool := fun key => key ≠ place
  have taken : keep place = false := by simp [keep]
  apply FileTree.ext
  · rw [workingDirectory_discard, workingDirectory_put]
  · rw [entries_discard (isDirectoryAt_put_file above notDirectory content),
      entries_put above notDirectory]
    exact (Keyed.filter_put taken _ tree.entries).trans
      (Keyed.erase_of_get?_none (get?_of_entryAt_none isFree))

theorem put_put (above : tree.isDirectoryAt place.dropLast = true)
    (notDirectory : tree.isDirectoryAt place = false) (first second : ByteArray) :
    (tree.put place (.file first)).put place (.file second) =
      tree.put place (.file second) := by
  apply FileTree.ext
  · rw [workingDirectory_put, workingDirectory_put, workingDirectory_put]
  · rw [entries_put (isDirectoryAt_put above _ _)
      (isDirectoryAt_put_file above notDirectory first), entries_put above notDirectory,
      entries_put above notDirectory, Keyed.put_put]

/-- A filled temporary file is moved as if it were put at the path, or it stays. -/
theorem moveFile_put (above : tree.isDirectoryAt place.dropLast = true)
    (isFree : tree.entryAt place = none) (content : ByteArray) :
    (tree.put place (.file content)).moveFile none place path =
      match tree.replaceAt path content with
      | (moved, .ok ()) => (moved, .ok ())
      | (_, .error failure) => (tree.put place (.file content), .error failure) := by
  have filled : (tree.put place (.file content)).fileAt place = some content := by
    rw [fileAt_put_file above (isDirectoryAt_eq_false_of_free isFree), if_pos rfl]
  rcases replaced : tree.replaceAt path content with ⟨after, failure | done⟩ <;>
    simp only [moveFile, filled, discard_put above isFree, replaced]

/-- A temporary file that is filled and moved leaves the file at the path, or no trace. -/
theorem cleanedUp_temporary (above : tree.isDirectoryAt place.dropLast = true)
    (isFree : tree.entryAt place = none) (refusal : Option (ByteArray × Error))
    (refusesMove : Option Error) (content : ByteArray) :
    cleanedUp place
        (followedBy ((tree.put place (.file .empty)).fillFile refusal place content)
          fun filled => filled.moveFile refusesMove place path) =
      match refusal, refusesMove with
      | some (_, failure), _ => (tree, .error failure)
      | none, some failure => (tree, .error failure)
      | none, none => tree.replaceAt path content := by
  have refilled := put_put above (isDirectoryAt_eq_false_of_free isFree) .empty
  rcases refusal with _ | ⟨part, failure⟩
  · rw [fillFile, refilled]
    rcases refusesMove with _ | failure
    · rw [followedBy, moveFile_put above isFree]
      rcases replaced : tree.replaceAt path content with ⟨after, failure | done⟩
      · obtain rfl := eq_of_replaceAt_error replaced
        simp only [cleanedUp, discard_put above isFree]
      · rfl
    · simp only [followedBy, moveFile, cleanedUp, discard_put above isFree]
  · simp only [fillFile, refilled, followedBy, cleanedUp, discard_put above isFree]

theorem createFile_of_free (above : tree.isDirectoryAt place.dropLast = true)
    (isFree : tree.entryAt place = none) :
    tree.createFile none place = (tree.put place (.file .empty), .ok ()) := by
  rw [createFile, isFree]
  exact if_pos above

theorem createFile_cases (tree : FileTree) (refusal : Option Error) (place : Place) :
    (∃ failure, tree.createFile refusal place = (tree, .error failure)) ∨
      tree.isDirectoryAt place.dropLast = true ∧ tree.entryAt place = none ∧
        tree.createFile refusal place = (tree.put place (.file .empty), .ok ()) := by
  rcases refusal with _ | failure
  · cases held : tree.entryAt place with
    | none =>
        cases above : tree.isDirectoryAt place.dropLast with
        | true => exact .inr ⟨rfl, rfl, createFile_of_free above held⟩
        | false => exact .inl ⟨.notReplaced, by simp [createFile, held, above]⟩
    | some entry => exact .inl ⟨.fileExists, by rw [createFile, held]⟩
  · exact .inl ⟨failure, rfl⟩

/-! ## What a disk leaves -/

/-- Whether a step has put a file at a path, or has ended with an error and has kept all
files. -/
def ReplacesOrKeeps (path : Path) (content : ByteArray) (before : FileTree) :
    FileTree × Except Error Unit → Prop
  | (after, .ok ()) => Replaces path content before after
  | (after, .error _) => SameFiles before after

theorem replacesOrKeeps_replaceAt (tree : FileTree) (path : Path) (content : ByteArray) :
    ReplacesOrKeeps path content tree (tree.replaceAt path content) := by
  rcases replaced : tree.replaceAt path content with ⟨after, failure | done⟩
  · obtain rfl := eq_of_replaceAt_error replaced
    exact SameFiles.refl _
  · exact replaces_of_replaceAt replaced

theorem ReplacesOrKeeps.of_sameFiles {content : ByteArray} {step : FileTree × Except Error Unit}
    (same : SameFiles tree made) (ended : ReplacesOrKeeps path content made step) :
    ReplacesOrKeeps path content tree step := by
  rcases step with ⟨after, failure | done⟩
  · exact SameFiles.trans same ended
  · exact Replaces.of_sameFiles same ended

theorem replacesOrKeeps_followedBy {content : ByteArray} {step : FileTree × Except Error Unit}
    {next : FileTree → FileTree × Except Error Unit} (same : SameFiles tree step.1)
    (rest : ReplacesOrKeeps path content step.1 (next step.1)) :
    ReplacesOrKeeps path content tree (followedBy step next) := by
  rcases step with ⟨made, failure | done⟩
  · exact same
  · exact .of_sameFiles same rest

theorem sameFiles_makeDirectoriesOn (tree : FileTree) (refusal : Option (Nat × Error))
    (path : Path) : SameFiles tree (tree.makeDirectoriesOn refusal path).1 := by
  rcases refusal with _ | ⟨count, failure⟩
  · exact sameFiles_makeDirectories tree path
  · exact sameFiles_makeDirectories tree _

/-- A file is replaced through a temporary one, or the tree stays as it is. -/
theorem replaceFrom_cases (tree : FileTree) (refusals : Refusals) (temporary : Place) (path : Path)
    (content : ByteArray) :
    (∃ failure, tree.replaceFrom refusals temporary path content = (tree, .error failure)) ∨
      tree.replaceFrom refusals temporary path content = tree.replaceAt path content := by
  rw [replaceFrom]
  rcases tree.createFile_cases refusals.temporary temporary with
    ⟨failure, failed⟩ | ⟨above, isFree, created⟩
  · rw [failed]
    exact .inl ⟨failure, rfl⟩
  · rw [created, followedBy_ok, cleanedUp_temporary above isFree]
    split
    · exact .inl ⟨_, rfl⟩
    · exact .inl ⟨_, rfl⟩
    · exact .inr rfl

theorem replacesOrKeeps_replaceFrom (tree : FileTree) (refusals : Refusals) (temporary : Place)
    (path : Path) (content : ByteArray) :
    ReplacesOrKeeps path content tree (tree.replaceFrom refusals temporary path content) := by
  rcases tree.replaceFrom_cases refusals temporary path content with ⟨failure, failed⟩ | same
  · rw [failed]
    exact SameFiles.refl tree
  · rw [same]
    exact replacesOrKeeps_replaceAt tree path content

/-- A disk replaces a file, or it keeps every file and leaves no other one. -/
theorem replacesOrKeeps_replaceThrough (tree : FileTree) (disk : Disk) (path : Path)
    (content : String) :
    ReplacesOrKeeps path content.toUTF8 tree (tree.replaceThrough disk path content) :=
  replacesOrKeeps_followedBy (sameFiles_makeDirectoriesOn tree _ _)
    (replacesOrKeeps_replaceFrom _ _ _ _ _)

/-! ## A disk that refuses nothing -/

theorem isDirectoryAt_of_addDirectories {hasAdded : Bool} {segments : List String}
    (isDirectory : tree.isDirectoryAt place = true)
    (added : tree.addDirectories hasAdded place segments = (made, .ok ())) :
    made.isDirectoryAt (segments.foldl Path.step place) = true := by
  induction segments generalizing tree hasAdded place with
  | nil =>
      obtain rfl := (Prod.mk.inj added).1
      exact isDirectory
  | cons segment rest ih =>
      rw [addDirectories] at added
      split at added
      · rename_i isThere
        exact ih (isDirectoryAt_iff.mpr isThere) added
      · simp at added
      · rename_i isFree
        have isAdded := entryAt_put_same (isDirectoryAt_dropLast_step isDirectory segment)
          (isDirectoryAt_eq_false_of_free isFree) .directory
        exact ih (isDirectoryAt_iff.mpr isAdded) added

theorem isDirectoryAt_of_makeDirectories (added : tree.makeDirectories path = (made, .ok ())) :
    made.isDirectoryAt (made.destination path) = true := by
  have same := sameFiles_makeDirectories tree path
  rw [added] at same
  rw [destination_congr same.directory]
  exact isDirectoryAt_of_addDirectories (tree.isDirectoryAt_startOf path) added

theorem entryAt_freshEnding (tree : FileTree) (place : Place) (front : String) :
    tree.entryAt (place ++ [front ++ tree.freshEnding]) = none := by
  have notRoot : (place ++ [front ++ tree.freshEnding]).isEmpty = false := by simp
  rw [entryAt, entryIn, notRoot, if_neg Bool.false_ne_true]
  cases held : Keyed.get? (place ++ [front ++ tree.freshEnding]) tree.entries with
  | none => rfl
  | some entry =>
      -- The ending is longer than all the names of the tree together.
      have member := List.mem_map_of_mem (f := fun entry => (entry.1.getLastD "").toList)
        (Keyed.mem_of_get? held)
      have bound := (List.sublist_flatten_of_mem member).length_le
      have ending : ".tmp".length = 4 := rfl
      rw [← List.flatMap_def] at bound
      simp only [List.getLastD_concat, String.length_toList, String.length_append, freshEnding,
        String.length_ofList, List.length_map, ending] at bound
      omega

/-- On a plain disk a file is replaced as if there were no temporary one. -/
theorem replaceThrough_plain (tree : FileTree) (refuses : Bool) (path : Path)
    (content : String) :
    tree.replaceThrough (.plain refuses) path content = tree.replace refuses path content := by
  rw [replaceThrough, replace]
  simp only [Disk.plain, makeDirectoriesOn]
  rcases added : tree.makeDirectories path.parent with ⟨made, failure | done⟩
  · rfl
  · have isFree := made.entryAt_freshEnding (made.destination path.parent)
      ("." ++ path.name ++ ".")
    have above : made.isDirectoryAt (made.destination path.parent ++
        ["." ++ path.name ++ "." ++ made.freshEnding]).dropLast = true := by
      rw [List.dropLast_concat]
      exact isDirectoryAt_of_makeDirectories added
    rw [followedBy_ok, replaceFrom, createFile_of_free above isFree, followedBy_ok,
      cleanedUp_temporary above isFree]
    cases refuses <;> rfl

end FileTree

end IdeModules
