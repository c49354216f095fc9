import IdeModules.Proofs.Drafts
import IdeModules.Proofs.Targets

/-!
# Results over a file tree

Results are written over a tree, each at a place of its own.  If no place is on the way to another
one, what a module looks at is as it was before any of them, and the tree that is left
does not depend on their order.
-/

namespace IdeModules

/-- Whether neither of two places is the other one or on the way to it. -/
def Apart (left right : Place) : Prop :=
  ¬left <+: right ∧ ¬right <+: left

theorem Apart.symm {left right : Place} (apart : Apart left right) : Apart right left :=
  And.symm apart

namespace FileTree

/-- Whether a tree holds the files of results and the directories on their ways, and is
another tree elsewhere. -/
structure Overlay (results : List GenerationResult) (before after : FileTree) : Prop where
  directory : after.workingDirectory = before.workingDirectory
  files : ∀ result ∈ results,
    after.entryAt result.path.segments = some (.file result.content.toUTF8)
  ways : ∀ result ∈ results, ∀ front, front <+: result.path.segments →
    front ≠ result.path.segments → after.isDirectoryAt front = true
  clear : ∀ result ∈ results, ∀ front, front <+: result.path.segments →
    front ≠ result.path.segments → before.fileAt front = none
  rest : ∀ place, (∀ result ∈ results, ¬place <+: result.path.segments) →
    after.entryAt place = before.entryAt place

variable {results others : List GenerationResult} {before middle after : FileTree}
  {place front : Place}

theorem overlay_nil (before : FileTree) : Overlay [] before before where
  directory := rfl
  files _ member := absurd member List.not_mem_nil
  ways _ member := absurd member List.not_mem_nil
  clear _ member := absurd member List.not_mem_nil
  rest _ _ := rfl

theorem Overlay.of_mem_iff (overlay : Overlay results before after)
    (same : ∀ result, result ∈ others ↔ result ∈ results) : Overlay others before after where
  directory := overlay.directory
  files result member := overlay.files result ((same result).mp member)
  ways result member := overlay.ways result ((same result).mp member)
  clear result member := overlay.clear result ((same result).mp member)
  rest place elsewhere :=
    overlay.rest place fun result member => elsewhere result ((same result).mpr member)

/-- The tree under results does not depend on their order. -/
theorem Overlay.entryAt_eq {final : FileTree} (overlay : Overlay results before after)
    (other : Overlay others before final) (same : ∀ result, result ∈ others ↔ result ∈ results)
    (place : Place) : final.entryAt place = after.entryAt place := by
  have again := other.of_mem_iff fun result => (same result).symm
  by_cases isOnWay : ∃ result ∈ results, place <+: result.path.segments
  · obtain ⟨result, member, isOnWay⟩ := isOnWay
    by_cases isTarget : place = result.path.segments
    · rw [isTarget, again.files result member, overlay.files result member]
    · rw [isDirectoryAt_iff.mp (again.ways result member place isOnWay isTarget),
        isDirectoryAt_iff.mp (overlay.ways result member place isOnWay isTarget)]
  · have elsewhere (result : GenerationResult) (member : result ∈ results) :
        ¬place <+: result.path.segments := fun onWay => isOnWay ⟨result, member, onWay⟩
    rw [again.rest place elsewhere, overlay.rest place elsewhere]

/-! ## What a module looks at -/

theorem Overlay.entryAt_of_apart (overlay : Overlay results before after)
    (apart : ∀ result ∈ results, Apart place result.path.segments) :
    after.entryAt place = before.entryAt place :=
  overlay.rest place fun result member => (apart result member).1

/-- The files on the way to a place are those of the tree before. -/
theorem Overlay.fileAt_of_apart (overlay : Overlay results before after)
    (apart : ∀ result ∈ results, Apart place result.path.segments) (isOnWay : front <+: place) :
    after.fileAt front = before.fileAt front := by
  by_cases isShared : ∃ result ∈ results, front <+: result.path.segments
  · obtain ⟨result, member, isShared⟩ := isShared
    have isBefore : front ≠ result.path.segments := by
      rintro rfl
      exact (apart result member).2 isOnWay
    rw [overlay.clear result member front isShared isBefore,
      fileAt_eq_none_of_isDirectoryAt (overlay.ways result member front isShared isBefore)]
  · have same := overlay.rest front fun result member isOn => isShared ⟨result, member, isOn⟩
    rw [fileAt, same, fileAt]

theorem Overlay.find?_eq (overlay : Overlay results before after) {path : Path}
    (plain : path.IsPlain)
    (apart : ∀ result ∈ results, Apart path.segments result.path.segments) :
    after.find? path = before.find? path := by
  rw [find?_of_isPlain plain, find?_of_isPlain plain,
    overlay.entryAt_of_apart apart]

theorem Overlay.replace_snd_eq (overlay : Overlay results before after) {path : Path}
    (plain : path.IsPlain) (notRoot : path.segments ≠ [])
    (apart : ∀ result ∈ results, Apart path.segments result.path.segments) (content : String) :
    (after.replace false path content).2 = (before.replace false path content).2 := by
  have sameThere : after.isDirectoryAt path.segments = before.isDirectoryAt path.segments := by
    rw [isDirectoryAt, isDirectoryAt, overlay.entryAt_of_apart apart]
  exact FileTree.replace_snd_eq plain notRoot
    (fun front isOnWay _ => overlay.fileAt_of_apart apart isOnWay) sameThere content

/-! ## One more result -/

/-- A file that is placed apart from results adds one to them. -/
theorem Overlay.cons {result : GenerationResult} (overlay : Overlay results before middle)
    (places : Places result.path.segments result.content.toUTF8 middle after)
    (apart : ∀ other ∈ results, Apart result.path.segments other.path.segments) :
    Overlay (result :: results) before after where
  directory := places.directory.trans overlay.directory
  files other member := by
    rcases List.mem_cons.mp member with rfl | isEarlier
    · exact places.file
    · rw [places.rest _ (apart other isEarlier).2]
      exact overlay.files other isEarlier
  ways other member front isOnWay isBefore := by
    rcases List.mem_cons.mp member with rfl | isEarlier
    · exact places.ways front isOnWay isBefore
    · have isDirectory := overlay.ways other isEarlier front isOnWay isBefore
      by_cases isShared : front <+: result.path.segments
      · refine places.ways front isShared ?_
        rintro rfl
        exact (apart other isEarlier).1 isOnWay
      · rwa [isDirectoryAt, places.rest front isShared]
  clear other member front isOnWay isBefore := by
    rcases List.mem_cons.mp member with rfl | isEarlier
    · rw [← overlay.fileAt_of_apart apart isOnWay]
      exact places.clear front isOnWay isBefore
    · exact overlay.clear other isEarlier front isOnWay isBefore
  rest place elsewhere := by
    rw [places.rest place (elsewhere result List.mem_cons_self)]
    exact overlay.rest place fun other member => elsewhere other (List.mem_cons_of_mem _ member)

/-- A file can be placed beside results only if it is apart from them. -/
theorem Overlay.apart_of_places {content : ByteArray} (overlay : Overlay results before middle)
    (places : Places place content middle after)
    (differs : ∀ result ∈ results, place ≠ result.path.segments) :
    ∀ result ∈ results, Apart place result.path.segments := by
  intro result member
  constructor
  · intro isOnWay
    have isDirectory := overlay.ways result member place isOnWay (differs result member)
    rw [places.free] at isDirectory
    exact nomatch isDirectory
  · intro isOnWay
    have isFree := places.clear _ isOnWay (differs result member).symm
    rw [fileAt_of_entryAt (overlay.files result member)] at isFree
    exact nomatch isFree

end FileTree

/-! ## Loading -/

theorem FileTree.readText_congr {files other : FileTree} {path : Path}
    (same : files.find? path = other.find? path) : files.readText path = other.readText path := by
  rw [readText, readText, same]

theorem FileTree.contains_congr {files other : FileTree} {path : Path}
    (same : files.find? path = other.find? path) : files.contains path = other.contains path := by
  rw [contains, contains, same]

theorem Descriptor.load_congr {files other : FileTree} {path : Path}
    (same : files.find? path = other.find? path) (name : Json.Value) :
    load files path name = load other path name := by
  rw [load, load, FileTree.contains_congr same, readFile, readFile, FileTree.readText_congr same]

theorem Build.workspaceText_congr {build : Build} {files other : FileTree}
    (sameDirectory : files.workingDirectory = other.workingDirectory)
    (same : files.find? build.modulesPath = other.find? build.modulesPath)
    (results : List GenerationResult) :
    build.workspaceText files results = build.workspaceText other results := by
  rw [workspaceText, workspaceText, existingWorkspace, existingWorkspace,
    FileTree.contains_congr same, FileTree.readText_congr same, sameDirectory]

theorem ModuleSettings.ownDraftOn_congr {files other : FileTree} {settings : ModuleSettings}
    (sameDirectory : files.workingDirectory = other.workingDirectory)
    (same : files.find? settings.descriptorPath = other.find? settings.descriptorPath)
    (hooks : Keyed String Hooks) (options : RunOptions) :
    settings.ownDraftOn hooks options files = settings.ownDraftOn hooks options other := by
  rw [ownDraftOn, ownDraftOn, sameDirectory, Descriptor.load_congr same]

end IdeModules
