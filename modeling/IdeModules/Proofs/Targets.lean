import IdeModules.Proofs.BuildData
import IdeModules.Proofs.FileTree.PlainPaths
import IdeModules.Workspace

/-!
# Targets of modules

The target of a module is the place of its descriptor, whose name has an ending of its own.  So
no module has the list of all modules as its target, whatever the paths of a build are.
-/

namespace IdeModules

theorem append_iml_ne (name : String) {other : String}
    (differs : ¬".iml".toList <:+ other.toList) : name ++ ".iml" ≠ other := by
  rintro rfl
  exact differs ⟨name.toList, String.toList_append.symm⟩

theorem isSegment_append_iml (name : String) : Path.isSegment (name ++ ".iml") = true := by
  have notEmpty : name ++ ".iml" ≠ "" := append_iml_ne name (by decide)
  have notDot : name ++ ".iml" ≠ "." := append_iml_ne name (by decide)
  simp [Path.isSegment, notEmpty, notDot]

theorem exists_segments_append_iml (text : String) :
    ∃ front name, (Path.ofText (text ++ ".iml")).segments = front ++ [name ++ ".iml"] := by
  obtain ⟨front, last, _, parts⟩ :=
    splitChars_append_ending (show '/' ∉ ".iml".toList by decide) text.toList
  refine ⟨(front.map String.ofList).filter Path.isSegment, String.ofList last, ?_⟩
  have ending : String.ofList (last ++ ".iml".toList) = String.ofList last ++ ".iml" := by
    rw [String.ofList_append, String.ofList_toList]
  rw [Path.segments_ofText, pieces, String.toList_append, parts, List.map_append,
    List.filter_append, List.map_cons, List.map_nil, ending,
    List.filter_cons_of_pos (isSegment_append_iml _), List.filter_nil]

namespace ModuleSettings

theorem exists_segments_descriptorPath (settings : ModuleSettings) :
    ∃ front name, settings.descriptorPath.segments = front ++ [name ++ ".iml"] := by
  obtain ⟨front, name, segments⟩ := exists_segments_append_iml settings.name.display
  rw [descriptorPath, Path.below, Path.join]
  split
  · exact ⟨front, name, segments⟩
  · exact ⟨(settings.generateTo.getD settings.projectDirectory).segments ++ front, name, by
      rw [Path.segments_append, segments, List.append_assoc]⟩

theorem exists_destination (settings : ModuleSettings) (tree : FileTree) :
    ∃ front name, tree.destination settings.descriptorPath = front ++ [name ++ ".iml"] := by
  obtain ⟨front, name, segments⟩ := settings.exists_segments_descriptorPath
  have isName : name ++ ".iml" ≠ ".." := append_iml_ne name (by decide)
  have sameRoot : settings.descriptorPath.root = settings.descriptorPath.parent.root := rfl
  have split : settings.descriptorPath.segments =
      settings.descriptorPath.parent.segments ++ [name ++ ".iml"] := by
    rw [Path.segments_parent, segments, List.dropLast_concat]
  exact ⟨_, name, tree.destination_concat sameRoot split isName⟩

end ModuleSettings

namespace Build

theorem modulesPath_eq (build : Build) :
    build.modulesPath = (build.rootDirectory.append ⟨.relative, [".idea"], by decide⟩).append
      ⟨.relative, ["modules.xml"], by decide⟩ := by
  have directory : Path.ofText ".idea" = ⟨.relative, [".idea"], by decide⟩ := by decide +kernel
  have file : Path.ofText "modules.xml" = ⟨.relative, ["modules.xml"], by decide⟩ := by
    decide +kernel
  rw [modulesPath, Path.below, Path.below, directory, file]
  rfl

/-- The place of the list of the modules of a build. -/
def listPlace (build : Build) (files : FileTree) : Place :=
  files.destination build.modulesPath

/-- The list of the modules of a build is not the target of any module. -/
theorem destination_ne_listPlace (build : Build) (settings : ModuleSettings)
    (tree other : FileTree) :
    tree.destination settings.descriptorPath ≠ build.listPlace other := by
  obtain ⟨front, name, target⟩ := settings.exists_destination tree
  have isList : other.destination build.modulesPath =
      other.destination (build.rootDirectory.append ⟨.relative, [".idea"], by decide⟩) ++
        ["modules.xml"] := by
    rw [build.modulesPath_eq]
    exact other.destination_concat rfl rfl (by decide)
  rw [target, listPlace, isList]
  intro same
  have last := congrArg (fun place => place.getLast?) same
  simp only [List.getLast?_concat, Option.some.injEq] at last
  exact append_iml_ne name (by decide) last

end Build

/-! ## Plain targets -/

theorem not_mem_foldl_step {segments walked : List String} (forward : ".." ∉ walked) :
    ".." ∉ segments.foldl Path.step walked := by
  induction segments generalizing walked with
  | nil => exact forward
  | cons segment rest ih =>
      apply ih
      rw [Path.step]
      split
      · exact fun member => forward (List.dropLast_subset _ member)
      · rename_i different
        simpa [forward] using Ne.symm different

theorem isPlain_normalize (start path : Path) : (Path.normalize start path).IsPlain where
  absolute := by
    rw [Path.isAbsolute, Path.normalize]
    split <;> rfl
  forward := not_mem_foldl_step List.not_mem_nil

theorem isPlain_append {base path : Path} (plain : base.IsPlain) (forward : ".." ∉ path.segments) :
    (base.append path).IsPlain where
  absolute := plain.absolute
  forward := by
    rw [Path.segments_append, List.mem_append, not_or]
    exact ⟨plain.forward, forward⟩

theorem isPlain_modulesPath {build : Build} (plain : build.rootDirectory.IsPlain) :
    build.modulesPath.IsPlain := by
  rw [build.modulesPath_eq]
  exact isPlain_append (isPlain_append plain (by decide)) (by decide)

theorem modulesPath_ne_nil (build : Build) : build.modulesPath.segments ≠ [] := by
  rw [build.modulesPath_eq]
  exact List.concat_ne_nil _ _

theorem descriptorPath_ne_nil (settings : ModuleSettings) :
    settings.descriptorPath.segments ≠ [] := by
  obtain ⟨front, name, segments⟩ := settings.exists_segments_descriptorPath
  rw [segments]
  exact List.concat_ne_nil _ _

theorem segments_ofText_iml {text : String} (noSlash : '/' ∉ text.toList) :
    (Path.ofText (text ++ ".iml")).segments = [text ++ ".iml"] := by
  have absent : '/' ∉ (text ++ ".iml").toList := by
    rw [String.toList_append, List.mem_append, not_or]
    exact ⟨noSlash, by decide⟩
  rw [Path.segments_ofText, pieces, splitChars_of_not_mem absent, List.map_singleton,
    String.ofList_toList, List.filter_cons_of_pos (isSegment_append_iml text), List.filter_nil]

theorem isAbsolute_ofText_iml {text : String} (noSlash : '/' ∉ text.toList) :
    (Path.ofText (text ++ ".iml")).isAbsolute = false := by
  have absent : '/' ∉ (text ++ ".iml").toList := by
    rw [String.toList_append, List.mem_append, not_or]
    exact ⟨noSlash, by decide⟩
  have isRelative : Path.rootOf (text ++ ".iml").toList = .relative := by
    rw [Path.rootOf.eq_def]
    split <;> rename_i isText <;> simp [isText] at absent ⊢
  rw [Path.isAbsolute, Path.ofText, isRelative]
  rfl

namespace ModuleSettings

/-- The directory that the descriptor of a module is written to. -/
def targetDirectory (settings : ModuleSettings) : Path :=
  settings.generateTo.getD settings.projectDirectory

theorem descriptorPath_eq {settings : ModuleSettings}
    (noSlash : '/' ∉ settings.name.display.toList) :
    settings.descriptorPath =
      settings.targetDirectory.append (Path.ofText (settings.name.display ++ ".iml")) := by
  rw [descriptorPath, Path.below, Path.join, isAbsolute_ofText_iml noSlash]
  rfl

theorem isPlain_descriptorPath {settings : ModuleSettings}
    (plain : settings.targetDirectory.IsPlain) (noSlash : '/' ∉ settings.name.display.toList) :
    settings.descriptorPath.IsPlain := by
  have isName := append_iml_ne settings.name.display (show ¬".iml".toList <:+ "..".toList by decide)
  rw [descriptorPath_eq noSlash]
  apply isPlain_append plain
  rw [segments_ofText_iml noSlash, List.mem_singleton]
  exact Ne.symm isName

end ModuleSettings

/-! ## Builds from data -/

namespace Build

theorem modules_of_ofData {isDirectory : Path → Bool} {start directory source : Path}
    {data : Json.Value} {build : Build}
    (read : ofData isDirectory start directory source data = .ok build) :
    build.rootDirectory = Path.normalize start directory ∧ ∀ settings ∈ build.modules,
      ∃ value idea, IsReadFrom isDirectory (Path.normalize start directory) value idea
        settings := by
  obtain ⟨rootDirectory, ⟨_, _, areModules⟩, _⟩ := isBuildFrom_of_ofData read
  constructor
  · exact rootDirectory
  · intro settings member
    obtain ⟨value, _, isModule⟩ := exists_of_mem_mapM areModules member
    exact ⟨value, exists_isReadFrom isModule⟩

section Holding

-- A property of paths that a path keeps which is read from a text inside another one.
variable {holds : Path → Prop}
  (closed : ∀ base text, holds base → holds (Path.normalize base (Path.ofText text)))

include closed

theorem holds_of_pathIn {base path : Path} {value : Json.Value} (isBase : holds base)
    (read : pathIn base value = .ok (some path)) : holds path := by
  cases value with
  | str text =>
      obtain rfl := Option.some.inj (Except.ok.inj read)
      exact closed base text isBase
  | _ => exact nomatch read

theorem holds_of_projectDirectoryOf {isDirectory : Path → Bool} {root path : Path}
    {value : Json.Value} (isRoot : holds root)
    (read : projectDirectoryOf isDirectory root value = .ok path) : holds path := by
  simp only [projectDirectoryOf, except_bind_eq_ok_iff] at read
  obtain ⟨_, _, found, isFound, read⟩ := read
  split at read
  · exact nomatch read
  · split at read
    · obtain rfl := Except.ok.inj read
      exact holds_of_pathIn closed isRoot isFound
    · exact nomatch read

/-- What holds of paths that are read from texts holds of the directory of a module's target. -/
theorem holds_of_isReadFrom {isDirectory : Path → Bool} {root : Path} {value idea : Json.Value}
    {settings : ModuleSettings} (isRoot : holds root)
    (isRead : IsReadFrom isDirectory root value idea settings) :
    holds settings.targetDirectory := by
  have holdsBase := holds_of_projectDirectoryOf closed isRoot isRead.directory
  cases generateTo : settings.generateTo with
  | none => rwa [ModuleSettings.targetDirectory, generateTo]
  | some path =>
      have isGenerateTo := isRead.generateTo
      rw [generateTo] at isGenerateTo
      obtain ⟨_, _, isPath⟩ := except_bind_ok isGenerateTo
      rw [ModuleSettings.targetDirectory, generateTo]
      exact holds_of_pathIn closed holdsBase isPath

theorem holds_of_ofData {isDirectory : Path → Bool} {start directory source : Path}
    {data : Json.Value} {build : Build} (isRoot : holds (Path.normalize start directory))
    (read : ofData isDirectory start directory source data = .ok build) :
    holds build.rootDirectory ∧ ∀ settings ∈ build.modules, holds settings.targetDirectory := by
  obtain ⟨rootDirectory, areModules⟩ := modules_of_ofData read
  constructor
  · exact rootDirectory ▸ isRoot
  · intro settings member
    obtain ⟨_, _, isRead⟩ := areModules settings member
    exact holds_of_isReadFrom closed isRoot isRead

end Holding

/-- In a build that is read from data, every module has a plain directory for its target, and the
root is plain. -/
theorem isPlain_of_ofData {isDirectory : Path → Bool} {start directory source : Path}
    {data : Json.Value} {build : Build}
    (read : ofData isDirectory start directory source data = .ok build) :
    build.rootDirectory.IsPlain ∧
      ∀ settings ∈ build.modules, settings.targetDirectory.IsPlain :=
  holds_of_ofData (fun _ _ _ => isPlain_normalize _ _) (isPlain_normalize _ _) read

/-- The paths of the targets of a build and of the list of its modules are plain, if the build is
read from data and the names of its modules are no paths. -/
theorem isPlain_targets {isDirectory : Path → Bool} {start directory source : Path}
    {data : Json.Value} {build : Build}
    (read : ofData isDirectory start directory source data = .ok build)
    (noSlash : ∀ settings ∈ build.modules, '/' ∉ settings.name.display.toList) :
    build.modulesPath.IsPlain ∧ ∀ settings ∈ build.modules, settings.descriptorPath.IsPlain := by
  obtain ⟨root, directories⟩ := isPlain_of_ofData read
  exact ⟨isPlain_modulesPath root, fun settings member =>
    ModuleSettings.isPlain_descriptorPath (directories settings member) (noSlash settings member)⟩

theorem selected_nil (build : Build) : build.selected [] = build.modules :=
  rfl

theorem selected_sublist (build : Build) (only : List String) :
    (build.selected only).Sublist build.modules := by
  rw [selected]
  split
  · exact List.Sublist.refl _
  · exact List.filter_sublist

end Build

end IdeModules
