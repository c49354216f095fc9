import IdeModules.Proofs.FileTree.Places
import Mathlib.Data.List.Induction

/-!
# Plain paths

A path that is plain, which means absolute and without double dots, finds what stands at its
segments, since everything on the way to an entry of a tree is a directory.  A file is replaced at a
plain path as a whole: either it and the directories on its way are there, or nothing has
changed.
-/

namespace IdeModules

/-- Whether a path starts at the root and never leads back. -/
structure Path.IsPlain (path : Path) : Prop where
  absolute : path.isAbsolute = true
  forward : ".." ∉ path.segments

namespace FileTree

variable {tree made after : FileTree} {path : Path} {place front : Place}

theorem fileAt_eq_none_of_isDirectoryAt (isDirectory : tree.isDirectoryAt place = true) :
    tree.fileAt place = none := by
  rw [fileAt, isDirectoryAt_iff.mp isDirectory]

/-- Everything on the way to an entry of a tree is a directory. -/
theorem isDirectoryAt_of_isOnWay (isOnWay : front <+: place) (isBefore : front ≠ place)
    (isThere : (tree.entryAt place).isSome) : tree.isDirectoryAt front = true := by
  obtain ⟨rest, rfl⟩ := isOnWay
  induction rest using List.reverseRecOn with
  | nil => simp at isBefore
  | append_singleton rest name ih =>
      rw [← List.append_assoc] at isThere
      have above := isDirectoryAt_dropLast isThere
      rw [List.dropLast_concat] at above
      by_cases isLast : rest = []
      · rwa [isLast, List.append_nil] at above
      · apply ih (by simpa using isLast)
        rw [isDirectoryAt_iff.mp above]
        rfl

/-- Nothing stands beyond what is no directory. -/
theorem entryAt_eq_none_of_isOnWay (isOnWay : front <+: place) (isBefore : front ≠ place)
    (notDirectory : tree.isDirectoryAt front = false) :
    tree.entryAt place = none := by
  by_contra isThere
  have isDirectory :=
    isDirectoryAt_of_isOnWay isOnWay isBefore (Option.isSome_iff_ne_none.mpr isThere)
  rw [notDirectory] at isDirectory
  exact Bool.false_ne_true isDirectory

theorem isDirectoryAt_eq_false_of_fileAt (isFile : (tree.fileAt place).isSome) :
    tree.isDirectoryAt place = false := by
  by_contra isDirectory
  rw [fileAt_eq_none_of_isDirectoryAt (by simpa using isDirectory)] at isFile
  exact Bool.false_ne_true isFile

theorem ne_of_isPrefix {other : Place} (isOnWay : front <+: place)
    (isElsewhere : ¬other <+: place) : front ≠ other := by
  rintro rfl
  exact isElsewhere isOnWay

/-! ## Finding -/

/-- A segment that does not lead back leads on, and so do those behind it. -/
theorem step_of_forward {segment : String} {rest : List String} (forward : ".." ∉ segment :: rest)
    (start : Place) : Path.step start segment = start ++ [segment] ∧ ".." ∉ rest := by
  rw [List.mem_cons, not_or] at forward
  exact ⟨if_neg (Ne.symm forward.1), forward.2⟩

theorem foldl_step_of_forward {segments : List String} (forward : ".." ∉ segments)
    (start : Place) : segments.foldl Path.step start = start ++ segments := by
  induction segments generalizing start with
  | nil => simp
  | cons segment rest ih =>
      obtain ⟨stepped, forward⟩ := step_of_forward forward start
      rw [List.foldl_cons, stepped, ih forward, List.append_assoc]
      rfl

theorem startOf_of_isPlain (plain : path.IsPlain) : tree.startOf path = [] :=
  if_pos plain.absolute

theorem destination_of_isPlain (plain : path.IsPlain) : tree.destination path = path.segments := by
  rw [destination, startOf_of_isPlain plain, foldl_step_of_forward plain.forward, List.nil_append]

theorem follow_of_directories {segments : List String} (forward : ".." ∉ segments)
    (start : Place)
    (ways : ∀ front, front <+: segments → front ≠ segments →
      tree.isDirectoryAt (start ++ front) = true) :
    tree.follow start segments = some (start ++ segments) := by
  induction segments generalizing start with
  | nil => simp [follow]
  | cons segment rest ih =>
      obtain ⟨stepped, forward⟩ := step_of_forward forward start
      have here := ways [] List.nil_prefix (List.cons_ne_nil _ _).symm
      rw [List.append_nil] at here
      rw [follow, if_pos here, stepped, ih forward, List.append_assoc]
      · rfl
      · intro front isOnWay isBefore
        rw [List.append_assoc]
        exact ways (segment :: front) ((List.prefix_cons_inj segment).mpr isOnWay)
          (by simpa using isBefore)

theorem placeOf_of_directories (plain : path.IsPlain)
    (ways : ∀ front, front <+: path.segments → front ≠ path.segments →
      tree.isDirectoryAt front = true) :
    tree.placeOf path = some path.segments := by
  rw [placeOf, startOf_of_isPlain plain]
  exact follow_of_directories plain.forward [] ways

theorem find?_of_isPlain (plain : path.IsPlain) :
    tree.find? path = tree.entryAt path.segments := by
  cases held : tree.entryAt path.segments with
  | some entry =>
      have leads := placeOf_of_directories plain fun front isOnWay isBefore =>
        isDirectoryAt_of_isOnWay isOnWay isBefore (by rw [held]; rfl)
      rw [find?, leads, Option.bind_some, held]
  | none =>
      rw [find?]
      cases leads : tree.placeOf path with
      | none => rfl
      | some place =>
          rw [Option.bind_some, eq_destination_of_placeOf leads, destination_of_isPlain plain, held]

/-! ## Adding directories -/

/-- Whether a tree has directories up to a place, and is another tree elsewhere. -/
structure Opens (place : Place) (before after : FileTree) : Prop where
  directory : after.workingDirectory = before.workingDirectory
  ways : ∀ front, front <+: place → after.isDirectoryAt front = true
  clear : ∀ front, front <+: place → before.fileAt front = none
  rest : ∀ other, ¬other <+: place → after.entryAt other = before.entryAt other

theorem opens_addDirectories {segments : List String} (forward : ".." ∉ segments)
    {hasAdded : Bool} {start : Place}
    (ways : ∀ front, front <+: start → tree.isDirectoryAt front = true)
    (added : tree.addDirectories hasAdded start segments = (after, .ok ())) :
    Opens (start ++ segments) tree after := by
  induction segments generalizing tree hasAdded start with
  | nil =>
      obtain rfl := (Prod.mk.inj added).1
      rw [List.append_nil]
      exact ⟨rfl, ways, fun front isOnWay => fileAt_eq_none_of_isDirectoryAt (ways front isOnWay),
        fun _ _ => rfl⟩
  | cons segment rest ih =>
      obtain ⟨stepped, forward⟩ := step_of_forward forward start
      have whole : start ++ segment :: rest = start ++ [segment] ++ rest := by simp
      rw [addDirectories, stepped] at added
      rw [whole]
      split at added
      · rename_i isThere
        apply ih forward _ added
        intro front isOnWay
        rcases List.prefix_concat_iff.mp isOnWay with rfl | above
        · exact isDirectoryAt_iff.mpr isThere
        · exact ways front above
      · simp at added
      · rename_i isFree
        have above : tree.isDirectoryAt (start ++ [segment]).dropLast = true := by
          rw [List.dropLast_concat]
          exact ways start (List.prefix_refl start)
        have isNext : start ++ [segment] <+: start ++ [segment] ++ rest := List.prefix_append _ _
        have same := sameFiles_put_directory isFree
        have waysOn (front : Place) (isOnWay : front <+: start ++ [segment]) :
            (tree.put (start ++ [segment]) .directory).isDirectoryAt front = true := by
          rcases List.prefix_concat_iff.mp isOnWay with rfl | isAbove
          · exact isDirectoryAt_iff.mpr
              (entryAt_put_same above (isDirectoryAt_eq_false_of_free isFree) .directory)
          · exact isDirectoryAt_put (ways front isAbove) _ _
        have opened := ih forward waysOn added
        exact {
          directory := opened.directory.trans same.directory
          ways := opened.ways
          clear := fun front isOnWay => (same.files front).symm.trans (opened.clear front isOnWay)
          rest := fun other isElsewhere => (opened.rest other isElsewhere).trans
            (entryAt_put_other (ne_of_isPrefix isNext isElsewhere) _) }

theorem addDirectories_of_directories {segments : List String} (forward : ".." ∉ segments)
    {hasAdded : Bool} {start : Place}
    (ways : ∀ front, front <+: segments → tree.isDirectoryAt (start ++ front) = true) :
    tree.addDirectories hasAdded start segments = (tree, .ok ()) := by
  induction segments generalizing start with
  | nil => rfl
  | cons segment rest ih =>
      obtain ⟨stepped, forward⟩ := step_of_forward forward start
      have here := isDirectoryAt_iff.mp
        (ways [segment] ((List.prefix_cons_inj segment).mpr List.nil_prefix))
      rw [addDirectories, stepped, here]
      apply ih forward
      intro front isOnWay
      rw [List.append_assoc]
      exact ways (segment :: front) ((List.prefix_cons_inj segment).mpr isOnWay)

/-- Where nothing stands, directories can be added. -/
theorem addDirectories_of_free {segments : List String} (forward : ".." ∉ segments)
    {hasAdded : Bool} {start : Place}
    (free : ∀ front, front <+: segments → front ≠ [] → tree.entryAt (start ++ front) = none) :
    (tree.addDirectories hasAdded start segments).2 = .ok () := by
  induction segments generalizing tree hasAdded start with
  | nil => rfl
  | cons segment rest ih =>
      obtain ⟨stepped, forward⟩ := step_of_forward forward start
      have here := free [segment] ((List.prefix_cons_inj segment).mpr List.nil_prefix)
        (List.cons_ne_nil _ _)
      rw [addDirectories, stepped, here]
      apply ih forward
      intro front isOnWay notEmpty
      have different : start ++ [segment] ≠ start ++ [segment] ++ front := by simpa using notEmpty
      rw [entryAt_put_other different, List.append_assoc]
      exact free (segment :: front) ((List.prefix_cons_inj segment).mpr isOnWay)
        (List.cons_ne_nil _ _)

/-- What is raised where a file is in the way of directories: it stands at their end or before. -/
def wayError (tree : FileTree) (place : Place) : Error :=
  if (tree.fileAt place).isSome then .fileExists else .notDirectory

/-- Directories are added, or a file is in the way and nothing has changed. -/
theorem addDirectories_of_error {segments : List String} (forward : ".." ∉ segments)
    {start : Place} {failure : Error}
    (added : tree.addDirectories false start segments = (after, .error failure)) :
    after = tree ∧ failure = tree.wayError (start ++ segments) ∧
      ∃ front, front <+: start ++ segments ∧ (tree.fileAt front).isSome := by
  induction segments generalizing start with
  | nil => simp [addDirectories] at added
  | cons segment rest ih =>
      obtain ⟨stepped, forward⟩ := step_of_forward forward start
      have whole : start ++ segment :: rest = start ++ [segment] ++ rest := by simp
      rw [addDirectories, stepped] at added
      rw [whole]
      split at added
      · exact ih forward added
      · rename_i content isFile
        obtain ⟨rfl, isError⟩ := Prod.mk.inj added
        have isThere : (tree.fileAt (start ++ [segment])).isSome := by
          rw [fileAt_of_entryAt isFile]
          rfl
        refine ⟨rfl, ?_, start ++ [segment], List.prefix_append _ _, isThere⟩
        cases rest with
        | nil =>
            rw [wayError, List.append_nil, if_pos isThere]
            exact (Except.error.inj isError).symm
        | cons other others =>
            have beyond := entryAt_eq_none_of_isOnWay
              (List.prefix_append (start ++ [segment]) (other :: others)) (by simp)
              (isDirectoryAt_eq_false_of_fileAt isThere)
            rw [wayError, fileAt_of_entryAt_none beyond]
            exact (Except.error.inj isError).symm
      · rename_i isFree
        have notDirectory := isDirectoryAt_eq_false_of_free isFree
        have allAdded : ((tree.put (start ++ [segment]) .directory).addDirectories true
            (start ++ [segment]) rest).2 = .ok () := by
          apply addDirectories_of_free forward
          intro front _ notEmpty
          have different : start ++ [segment] ≠ start ++ [segment] ++ front := by
            simpa using notEmpty
          rw [entryAt_put_other different]
          exact entryAt_eq_none_of_isOnWay (List.prefix_append _ _) different notDirectory
        rw [added] at allAdded
        simp at allAdded

/-- The directories of a plain path are added, or a file is in the way and nothing
has changed. -/
theorem makeDirectories_cases (plain : path.IsPlain) :
    (∃ front, front <+: path.segments ∧ (tree.fileAt front).isSome ∧
        tree.makeDirectories path = (tree, .error (tree.wayError path.segments))) ∨
      ∃ made, Opens path.segments tree made ∧ tree.makeDirectories path = (made, .ok ()) := by
  rw [makeDirectories, startOf_of_isPlain plain]
  rcases added : tree.addDirectories false [] path.segments with ⟨made, failure | done⟩
  · obtain ⟨rfl, rfl, front, isOnWay, isFile⟩ := addDirectories_of_error plain.forward added
    exact .inl ⟨front, isOnWay, isFile, rfl⟩
  · have root (front : Place) (isOnWay : front <+: []) : tree.isDirectoryAt front = true := by
      rw [List.prefix_nil.mp isOnWay]
      rfl
    exact .inr ⟨made, opens_addDirectories plain.forward root added, rfl⟩

/-! ## Replacing -/

/-- Whether a tree has a file at a place and directories on the way to it, and is another tree
elsewhere. -/
structure Places (place : Place) (content : ByteArray) (before after : FileTree) : Prop where
  directory : after.workingDirectory = before.workingDirectory
  file : after.entryAt place = some (.file content)
  free : before.isDirectoryAt place = false
  ways : ∀ front, front <+: place → front ≠ place → after.isDirectoryAt front = true
  clear : ∀ front, front <+: place → front ≠ place → before.fileAt front = none
  rest : ∀ other, ¬other <+: place → after.entryAt other = before.entryAt other

/-- A place without its last segment, under which the others on the way to it stand. -/
theorem prefix_dropLast_iff (notEmpty : place ≠ []) :
    front <+: place.dropLast ↔ front <+: place ∧ front ≠ place := by
  have whole := List.dropLast_concat_getLast notEmpty
  constructor
  · intro isOnWay
    have shorter := isOnWay.length_le
    refine ⟨isOnWay.trans (List.dropLast_prefix place), ?_⟩
    rintro rfl
    rw [List.length_dropLast] at shorter
    have nonempty := List.length_pos_iff.mpr notEmpty
    omega
  · rintro ⟨isOnWay, isBefore⟩
    rw [← whole] at isOnWay
    rcases List.prefix_concat_iff.mp isOnWay with same | above
    · exact absurd (same.trans whole) isBefore
    · exact above

theorem isPlain_parent (plain : path.IsPlain) : path.parent.IsPlain where
  absolute := plain.absolute
  forward member := plain.forward (List.dropLast_subset _ member)

/-- Where a directory stands at the segments of a path, nothing is missing on its way. -/
theorem makeDirectories_of_isDirectoryAt (plain : path.IsPlain)
    (notRoot : path.segments ≠ []) (isDirectory : tree.isDirectoryAt path.segments = true) :
    tree.makeDirectories path.parent = (tree, .ok ()) := by
  have isThere : (tree.entryAt path.segments).isSome := by
    rw [isDirectoryAt_iff.mp isDirectory]
    rfl
  rw [makeDirectories, startOf_of_isPlain (isPlain_parent plain)]
  apply addDirectories_of_directories (isPlain_parent plain).forward
  intro front isOnWay
  obtain ⟨isAbove, isBefore⟩ := (prefix_dropLast_iff notRoot).mp isOnWay
  exact isDirectoryAt_of_isOnWay isAbove isBefore isThere

/-- Once the directories of a plain path are there, a file is put at it unless a directory
stands there. -/
theorem replaceAt_of_opens (plain : path.IsPlain) (notRoot : path.segments ≠ [])
    (opened : Opens path.segments.dropLast tree made) (content : ByteArray) :
    tree.isDirectoryAt path.segments = true ∧
        made.replaceAt path content = (made, .error .isDirectory) ∨
      ∃ after, Places path.segments content tree after ∧
        made.replaceAt path content = (after, .ok ()) := by
  have above {front : Place} (isOnWay : front <+: path.segments)
      (isBefore : front ≠ path.segments) : front <+: path.segments.dropLast :=
    (prefix_dropLast_iff notRoot).mpr ⟨isOnWay, isBefore⟩
  have notAbove : ¬path.segments <+: path.segments.dropLast :=
    fun isOnWay => ((prefix_dropLast_iff notRoot).mp isOnWay).2 rfl
  have sameThere : made.isDirectoryAt path.segments = tree.isDirectoryAt path.segments := by
    rw [isDirectoryAt, opened.rest _ notAbove, isDirectoryAt]
  have leads := placeOf_of_directories plain fun front isOnWay isBefore =>
    opened.ways front (above isOnWay isBefore)
  rw [replaceAt, leads]
  simp only [sameThere]
  cases isDirectory : tree.isDirectoryAt path.segments with
  | true => exact .inl ⟨rfl, rfl⟩
  | false =>
      refine .inr ⟨_, ?_, if_neg Bool.false_ne_true⟩
      exact {
        directory := (workingDirectory_put _ _).trans opened.directory
        file := entryAt_put_same (opened.ways _ (List.prefix_refl _))
          (sameThere.trans isDirectory) _
        free := isDirectory
        ways := fun front isOnWay isBefore => by
          rw [isDirectoryAt_iff, entryAt_put_other (Ne.symm isBefore)]
          exact isDirectoryAt_iff.mp (opened.ways front (above isOnWay isBefore))
        clear := fun front isOnWay isBefore => opened.clear front (above isOnWay isBefore)
        rest := fun other isElsewhere => by
          rw [entryAt_put_other (ne_of_isPrefix (List.prefix_refl _) isElsewhere)]
          exact opened.rest other fun isOnWay =>
            isElsewhere (isOnWay.trans (List.dropLast_prefix _)) }

/-- A file is replaced at a plain path, unless a file is in the way or a directory
stands there; then nothing has changed. -/
theorem replace_cases (plain : path.IsPlain)
    (notRoot : path.segments ≠ []) (content : String) :
    (∃ front, front <+: path.segments ∧ front ≠ path.segments ∧ (tree.fileAt front).isSome ∧
        tree.replace false path content =
          (tree, .error (tree.wayError path.segments.dropLast))) ∨
      (∀ front, front <+: path.segments → front ≠ path.segments → tree.fileAt front = none) ∧
        tree.isDirectoryAt path.segments = true ∧
        tree.replace false path content = (tree, .error .isDirectory) ∨
      ∃ after, Places path.segments content.toUTF8 tree after ∧
        tree.replace false path content = (after, .ok ()) := by
  rcases makeDirectories_cases (isPlain_parent plain) with
    ⟨front, isOnWay, isFile, failed⟩ | ⟨made, opened, isMade⟩
  · obtain ⟨isAbove, isBefore⟩ := (prefix_dropLast_iff notRoot).mp isOnWay
    refine .inl ⟨front, isAbove, isBefore, isFile, ?_⟩
    rw [replace, failed]
    rfl
  have replaced : tree.replace false path content = made.replaceAt path content.toUTF8 := by
    rw [replace, isMade]
    rfl
  rcases replaceAt_of_opens plain notRoot opened content.toUTF8 with
    ⟨isDirectory, failed⟩ | ⟨after, places, isPlaced⟩
  · have nothingMissing := makeDirectories_of_isDirectoryAt plain notRoot isDirectory
    obtain rfl := (Prod.mk.inj (isMade.symm.trans nothingMissing)).1
    exact .inr (.inl ⟨fun front isOnWay isBefore =>
      opened.clear front ((prefix_dropLast_iff notRoot).mpr ⟨isOnWay, isBefore⟩), isDirectory,
        replaced.trans failed⟩)
  · exact .inr (.inr ⟨after, places, replaced.trans isPlaced⟩)

theorem places_of_replace (plain : path.IsPlain)
    (notRoot : path.segments ≠ []) {content : String}
    (replaced : tree.replace false path content = (after, .ok ())) :
    Places path.segments content.toUTF8 tree after := by
  rcases replace_cases plain notRoot content with
    ⟨_, _, _, _, failed⟩ | ⟨_, _, failed⟩ | ⟨made, places, isPlaced⟩
  · exact nomatch (Prod.mk.inj (failed.symm.trans replaced)).2
  · exact nomatch (Prod.mk.inj (failed.symm.trans replaced)).2
  · obtain rfl := (Prod.mk.inj (isPlaced.symm.trans replaced)).1
    exact places

theorem eq_of_replace_error (plain : path.IsPlain)
    (notRoot : path.segments ≠ []) {content : String} {failure : Error}
    (failed : (tree.replace false path content).2 = .error failure) :
    (tree.replace false path content).1 = tree := by
  rcases replace_cases plain notRoot content with
    ⟨_, _, _, _, ended⟩ | ⟨_, _, ended⟩ | ⟨_, _, ended⟩
  · rw [ended]
  · rw [ended]
  · rw [ended] at failed
    exact nomatch failed

/-- Whether a file can be replaced depends on the files on its way and on what stands there. -/
theorem replace_snd_eq {other : FileTree} (plain : path.IsPlain) (notRoot : path.segments ≠ [])
    (sameWay : ∀ front, front <+: path.segments → front ≠ path.segments →
      tree.fileAt front = other.fileAt front)
    (sameThere : tree.isDirectoryAt path.segments = other.isDirectoryAt path.segments)
    (content : String) :
    (tree.replace false path content).2 = (other.replace false path content).2 := by
  rcases replace_cases plain notRoot content with
    ⟨front, isOnWay, isBefore, isFile, ended⟩ | ⟨clear, isDirectory, ended⟩ | ⟨_, places, ended⟩ <;>
  rcases replace_cases plain notRoot content with
    ⟨front', isOnWay', isBefore', isFile', ended'⟩ | ⟨clear', isDirectory', ended'⟩ |
      ⟨_, places', ended'⟩ <;>
  rw [ended, ended']
  · obtain ⟨isLast, isNotAll⟩ := (prefix_dropLast_iff notRoot).mp (List.prefix_refl _)
    rw [wayError, wayError, sameWay _ isLast isNotAll]
  · rw [sameWay front isOnWay isBefore, clear' front isOnWay isBefore] at isFile
    exact nomatch isFile
  · rw [sameWay front isOnWay isBefore, places'.clear front isOnWay isBefore] at isFile
    exact nomatch isFile
  · rw [← sameWay front' isOnWay' isBefore', clear front' isOnWay' isBefore'] at isFile'
    exact nomatch isFile'
  · rw [sameThere, places'.free] at isDirectory
    exact nomatch isDirectory
  · rw [← sameWay front' isOnWay' isBefore', places.clear front' isOnWay' isBefore'] at isFile'
    exact nomatch isFile'
  · rw [← sameThere, places.free] at isDirectory'
    exact nomatch isDirectory'

theorem entryAt_of_places {other final : FileTree} {content : ByteArray}
    (places : Places place content tree after) (otherPlaces : Places place content other final)
    (same : ∀ place, tree.entryAt place = other.entryAt place) (somewhere : Place) :
    after.entryAt somewhere = final.entryAt somewhere := by
  by_cases isOnWay : somewhere <+: place
  · by_cases isTarget : somewhere = place
    · rw [isTarget, places.file, otherPlaces.file]
    · rw [isDirectoryAt_iff.mp (places.ways somewhere isOnWay isTarget),
        isDirectoryAt_iff.mp (otherPlaces.ways somewhere isOnWay isTarget)]
  · rw [places.rest somewhere isOnWay, otherPlaces.rest somewhere isOnWay, same]

theorem replace_congr {other : FileTree} (plain : path.IsPlain) (notRoot : path.segments ≠ [])
    (same : ∀ place, tree.entryAt place = other.entryAt place) (content : String) :
    (tree.replace false path content).2 = (other.replace false path content).2 ∧
      ∀ place, (tree.replace false path content).1.entryAt place =
        (other.replace false path content).1.entryAt place := by
  have sameFile (front : Place) : tree.fileAt front = other.fileAt front := by
    rw [fileAt, same, fileAt]
  have sameThere : tree.isDirectoryAt path.segments = other.isDirectoryAt path.segments := by
    rw [isDirectoryAt, same, isDirectoryAt]
  have sameEnd := replace_snd_eq plain notRoot (fun front _ _ => sameFile front) sameThere content
  constructor
  · exact sameEnd
  rcases ended : (tree.replace false path content).2 with failure | done
  · rw [eq_of_replace_error plain notRoot ended,
      eq_of_replace_error plain notRoot (sameEnd.symm.trans ended)]
    exact same
  · have places := places_of_replace plain notRoot (Prod.ext rfl ended)
    have otherPlaces := places_of_replace plain notRoot (Prod.ext rfl (sameEnd.symm.trans ended))
    exact entryAt_of_places places otherPlaces same

end FileTree

end IdeModules
