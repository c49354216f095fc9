import IdeModules.Proofs.FileTree

/-!
# Places of files

A path can lead to one place only, whatever a tree holds.  Adding directories leaves
every file as it is, and putting a file at a path leaves every file at another place
as it is.
-/

namespace IdeModules

namespace FileTree

variable {tree made after : FileTree} {path : Path}

/-! ## Where a path leads -/

theorem eq_foldl_of_follow {start target : Place} {segments : List String}
    (leads : tree.follow start segments = some target) :
    target = segments.foldl Path.step start := by
  induction segments generalizing start with
  | nil => exact (Option.some.inj leads).symm
  | cons segment rest ih =>
      rw [follow] at leads
      split at leads
      · exact ih leads
      · simp at leads

theorem eq_destination_of_placeOf {place : Place} (leads : tree.placeOf path = some place) :
    place = tree.destination path :=
  eq_foldl_of_follow leads

theorem destination_congr (sameDirectory : made.workingDirectory = tree.workingDirectory)
    (path : Path) : made.destination path = tree.destination path := by
  rw [destination, destination, startOf, startOf, sameDirectory]

/-- A path leads to a place that ends in its last segment, unless that leads back. -/
theorem destination_concat (tree : FileTree) {directory : Path} {name : String}
    (sameRoot : path.root = directory.root) (split : path.segments = directory.segments ++ [name])
    (isName : name ≠ "..") : tree.destination path = tree.destination directory ++ [name] := by
  have sameStart : tree.startOf path = tree.startOf directory := by
    rw [startOf, startOf, Path.isAbsolute, Path.isAbsolute, sameRoot]
  have stepped (walked : Place) : Path.step walked name = walked ++ [name] := if_neg isName
  rw [destination, split, List.foldl_append, List.foldl_cons, List.foldl_nil, stepped, sameStart]
  rfl

/-! ## Files -/

/-- Whether two trees have the same files. -/
structure SameFiles (before after : FileTree) : Prop where
  directory : after.workingDirectory = before.workingDirectory
  files : ∀ place, after.fileAt place = before.fileAt place

theorem SameFiles.refl (tree : FileTree) : SameFiles tree tree :=
  ⟨rfl, fun _ => rfl⟩

theorem SameFiles.trans (first : SameFiles tree made) (second : SameFiles made after) :
    SameFiles tree after where
  directory := second.directory.trans first.directory
  files place := (second.files place).trans (first.files place)

/-- Whether a tree has a file with a content where a path leads, and the files of another tree
elsewhere. -/
structure Replaces (path : Path) (content : ByteArray) (before after : FileTree) : Prop where
  directory : after.workingDirectory = before.workingDirectory
  found : after.find? path = some (.file content)
  files : ∀ place, after.fileAt place =
    if before.destination path = place then some content else before.fileAt place

theorem Replaces.of_sameFiles {content : ByteArray} (same : SameFiles tree made)
    (replaced : Replaces path content made after) : Replaces path content tree after where
  directory := replaced.directory.trans same.directory
  found := replaced.found
  files place := by
    rw [replaced.files, destination_congr same.directory, same.files]

theorem fileAt_of_entryAt {place : Place} {content : ByteArray}
    (isFile : tree.entryAt place = some (.file content)) :
    tree.fileAt place = some content := by
  rw [fileAt, isFile]

theorem fileAt_of_entryAt_none {place : Place} (isFree : tree.entryAt place = none) :
    tree.fileAt place = none := by
  rw [fileAt, isFree]

theorem fileAt_put_file {place : Place} (above : tree.isDirectoryAt place.dropLast = true)
    (notDirectory : tree.isDirectoryAt place = false) (content : ByteArray) (other : Place) :
    (tree.put place (.file content)).fileAt other =
      if place = other then some content else tree.fileAt other := by
  by_cases same : place = other
  · subst same
    rw [if_pos rfl, fileAt_of_entryAt (entryAt_put_same above notDirectory _)]
  · rw [if_neg same, fileAt, fileAt, entryAt_put_other same]

theorem sameFiles_put_directory {place : Place} (isFree : tree.entryAt place = none) :
    SameFiles tree (tree.put place .directory) where
  directory := workingDirectory_put place .directory
  files other := by
    by_cases same : place = other
    · subst same
      cases above : tree.isDirectoryAt place.dropLast with
      | true =>
          rw [fileAt_of_entryAt_none isFree, fileAt,
            entryAt_put_same above (isDirectoryAt_eq_false_of_free isFree)]
      | false => rw [put, dif_neg (by simp [above])]
    · rw [fileAt, fileAt, entryAt_put_other same]

/-- What holds between a tree and one with a directory more, where nothing stands, holds between
trees before and after directories are added. -/
theorem addDirectories_relates {relates : FileTree → FileTree → Prop}
    (refl : ∀ tree, relates tree tree)
    (trans : ∀ {first second third}, relates first second → relates second third →
      relates first third)
    (added : ∀ {tree : FileTree} {place : Place}, tree.entryAt place = none →
      relates tree (tree.put place .directory))
    (tree : FileTree) (hasAdded : Bool) (place : Place) (segments : List String) :
    relates tree (tree.addDirectories hasAdded place segments).1 := by
  induction segments generalizing tree hasAdded place with
  | nil => exact refl tree
  | cons segment rest ih =>
      rw [addDirectories]
      split
      · exact ih _ hasAdded _
      · exact refl tree
      · rename_i isFree
        exact trans (added isFree) (ih _ true _)

theorem sameFiles_makeDirectories (tree : FileTree) (path : Path) :
    SameFiles tree (tree.makeDirectories path).1 :=
  addDirectories_relates .refl .trans sameFiles_put_directory tree false _ _

/-! ## Putting a file at a path -/

theorem replaceAt_cases (tree : FileTree) (path : Path) (content : ByteArray) :
    (∃ failure, tree.replaceAt path content = (tree, .error failure)) ∨
      tree.placeOf path = some (tree.destination path) ∧
        tree.isDirectoryAt (tree.destination path) = false ∧
        tree.replaceAt path content =
          (tree.put (tree.destination path) (.file content), .ok ()) := by
  rw [replaceAt]
  split
  · exact .inl ⟨_, rfl⟩
  · rename_i place leads
    obtain rfl := eq_destination_of_placeOf leads
    split
    · exact .inl ⟨_, rfl⟩
    · rename_i notDirectory
      exact .inr ⟨leads, by simpa using notDirectory, rfl⟩

theorem eq_of_replaceAt_error {content : ByteArray} {failure : Error}
    (failed : tree.replaceAt path content = (after, .error failure)) : after = tree := by
  rcases tree.replaceAt_cases path content with ⟨other, isError⟩ | ⟨_, _, isDone⟩
  · exact (Prod.mk.inj (failed.symm.trans isError)).1
  · rw [isDone] at failed
    simp at failed

theorem replaces_of_replaceAt {content : ByteArray}
    (replaced : tree.replaceAt path content = (after, .ok ())) :
    Replaces path content tree after := by
  rcases tree.replaceAt_cases path content with ⟨failure, failed⟩ | ⟨leads, notDirectory, isDone⟩
  · rw [failed] at replaced
    simp at replaced
  · obtain ⟨found, sameDirectory⟩ := find?_replaceAt replaced
    obtain rfl := (Prod.mk.inj (isDone.symm.trans replaced)).1
    exact ⟨sameDirectory, found,
      fileAt_put_file (isDirectoryAt_dropLast_placeOf leads) notDirectory content⟩

end FileTree

end IdeModules
