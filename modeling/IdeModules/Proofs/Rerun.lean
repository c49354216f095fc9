import IdeModules.Proofs.FileTree.Standing
import IdeModules.Proofs.Preparation
import IdeModules.Proofs.Previews
import IdeModules.Proofs.Workspace

/-!
# Repeated runs

What a run of a build has written is read again, the descriptors as well as the list of all
modules, so a repeated run does not fail.  This takes characters that documents may hold
in all that is written, and names that every document allows in the files that the run has found.
-/

namespace IdeModules

open Xml

/-! ## Texts that are read again -/

/-- Whether a text is read as a descriptor with names that every document allows. -/
def IsDescriptorText (text : String) : Prop :=
  ∃ root, readDocument true text = .ok root ∧ root.name = Name.plain "module" ∧
    root.Meets plainNames

/-- Whether a text is read as a workspace file. -/
def IsWorkspaceText (text : String) : Prop :=
  ∃ root, readDocument false text = .ok root

/-- Whether the bytes of a file are read as a tree only that has names that every document
allows. -/
def HoldsPlainNames (keepsComments : Bool) (bytes : ByteArray) : Prop :=
  ∀ text root, FileTree.textOf bytes = .ok text → readDocument keepsComments text = .ok root →
    root.Meets plainNames

/-- Whether a file where a path leads, if there is one, is read with names only that every document
allows. -/
def FileTree.HasPlainNames (tree : FileTree) (keepsComments : Bool) (path : Path) : Prop :=
  ∀ bytes, tree.fileAt (tree.destination path) = some bytes → HoldsPlainNames keepsComments bytes

theorem FileTree.hasPlainNames_of_free {tree : FileTree} {keepsComments : Bool} {path : Path}
    (isFree : (tree.fileAt (tree.destination path)).isNone = true) :
    tree.HasPlainNames keepsComments path := by
  intro bytes held
  rw [held] at isFree
  exact nomatch isFree

theorem IsDescriptorText.holdsPlainNames {text : String} (isText : IsDescriptorText text) :
    HoldsPlainNames true text.toUTF8 := by
  obtain ⟨root, isRead, _, namesPlain⟩ := isText
  intro other found isOther read
  obtain rfl := Except.ok.inj ((FileTree.textOf_toUTF8 text).symm.trans isOther)
  rw [readDocument_normalized, isRead] at read
  exact Except.ok.inj read ▸ namesPlain

theorem FileTree.HasPlainNames.of_replace {files written : FileTree} {path other : Path}
    {content : String} (plain : files.HasPlainNames true other)
    (replaced : files.replace false path content = (written, .ok ()))
    (isText : IsDescriptorText content) : written.HasPlainNames true other := by
  have replaces := FileTree.replaces_of_replace replaced
  intro bytes held
  rw [FileTree.destination_congr replaces.directory, replaces.files] at held
  split at held
  · exact Option.some.inj held ▸ isText.holdsPlainNames
  · exact plain bytes held

theorem plainNames_templateRoot : templateRoot.Meets plainNames := by
  simp only [templateRoot, Element.make, Element.meets_iff, meets_ofElement, plainNames,
    Name.IsLegible, Name.plain, List.map_cons, List.map_nil, List.forall_mem_cons,
    List.not_mem_nil, false_implies, implies_true, and_true, true_and]
  decide

theorem plainNames_workspaceRoot : Build.workspaceRoot.Meets plainNames := by
  simp only [Build.workspaceRoot, Element.make, Element.meets_iff, meets_ofElement, plainNames,
    Name.IsLegible, Name.plain, List.map_cons, List.map_nil, List.forall_mem_cons,
    List.not_mem_nil, false_implies, implies_true, and_true, true_and]
  decide

namespace Descriptor

theorem readFile_eq_ok {files : FileTree} {path : Path} {persisted : Descriptor}
    (read : readFile files path = .ok persisted) :
    ∃ bytes text root, files.find? path = some (.file bytes) ∧
      FileTree.textOf bytes = .ok text ∧ readDocument true text = .ok root ∧
      root.name = Name.plain "module" ∧ persisted = ofElement (.str path.stem) root := by
  unfold readFile at read
  split at read
  · exact nomatch read
  · exact nomatch read
  · rename_i text isText
    obtain ⟨bytes, found, isTextOf⟩ := FileTree.readText_eq_ok isText
    obtain ⟨root, isRead, isModule, isOf⟩ := ofText_eq_ok read
    exact ⟨bytes, text, root, found, isTextOf, isRead, isModule, isOf⟩

/-- The tree that a descriptor is loaded with is that of a module, and every document allows its
names if it allows those of the file. -/
theorem plainNames_of_load {files : FileTree} {path : Path} {name : Json.Value} {root : Element}
    {persisted : Descriptor} (plain : files.HasPlainNames true path)
    (loaded : load files path name = .ok persisted) (isTree : persisted.tree = some root) :
    root.name = Name.plain "module" ∧ root.Meets plainNames := by
  obtain ⟨known, other, isOf, _, origin⟩ := load_eq_ok loaded
  obtain rfl : other = root := by
    rw [isOf, tree_ofElement] at isTree
    exact Option.some.inj isTree
  rcases origin with fromFile | rfl
  · obtain ⟨bytes, text, found, isFile, isText, isRead, isModule, isPersisted⟩ :=
      readFile_eq_ok fromFile
    obtain rfl : found = other := by
      rw [isPersisted, tree_ofElement] at isTree
      exact Option.some.inj isTree
    exact ⟨isModule, plain bytes (FileTree.find?_eq_file_iff.mp isFile).2 text found isText isRead⟩
  · exact ⟨rfl, plainNames_templateRoot⟩

theorem isDescriptorText_writeTo {descriptor : Descriptor} {root : Element}
    (isModule : root.name = Name.plain "module") (isRead : root.Meets accepted)
    (namesPlain : root.Meets plainNames) (values : descriptor.HasOnly isXmlChar) :
    IsDescriptorText (document (descriptor.writeTo root).indent) := by
  obtain ⟨isSound, admitted⟩ := isRead.ofBoth
  have writtenSound := sound_indent ((keeps_sound isXmlChar_of_ascii values).writeTo isSound)
  have writtenPlain := plainNames_indent_writeTo values namesPlain
  refine ⟨_, readDocument_document writtenSound writtenPlain
    (admittedValues_indent_writeTo values admitted), ?_,
    (Element.meets_change_text_iff fun _ => trivial).mpr writtenPlain⟩
  rw [← isModule, ← descriptor.name_writeTo root]
  rfl

end Descriptor

/-! ## Modules -/

namespace ModuleSettings

variable {settings : ModuleSettings} {options : RunOptions} {owner : String}
  {world after : World} {result : GenerationResult}

/-- Whether a run for a module generates a layout and a descriptor that can be written. -/
structure Generates (settings : ModuleSettings) (options : RunOptions) (start : Path)
    (layout : Layout) (generated : Descriptor) (lines : List String) : Prop where
  laidOut : settings.layout (settings.anchors start options.shared) = .ok layout
  made : Descriptor.generate settings (settings.anchors start options.shared) options.context
    layout = .ok (generated, lines)
  isWritten : settings.jdkName.isEmpty = true ∨ jdkAttribute settings.jdkName ≠ .unwritable

/-- Whether a run for a module generates no text but of characters of some kind, and names the
development kit by a text or by what is written like one. -/
structure GeneratesOnly (allowed : Char → Bool) (settings : ModuleSettings) (options : RunOptions)
    (start : Path) : Prop where
  plain : IsPlainlyWritten settings.jdkName
  values : ∀ layout generated lines,
    settings.Generates options start layout generated lines → generated.asText.HasOnly allowed

/-- What is merged with a generated descriptor is written as a text that is read again. -/
theorem Generates.isDescriptorText {start : Path} {layout : Layout} {generated : Descriptor}
    {lines : List String} (generates : settings.Generates options start layout generated lines)
    (only : settings.GeneratesOnly isXmlChar options start) {root : Element}
    (isRead : root.Meets accepted) (isModule : root.name = Name.plain "module")
    (namesPlain : root.Meets plainNames) (name : Json.Value) :
    let merged := (Descriptor.ofElement name root).merge generated
    merged.write.2 = .ok (document (merged.writeTo root).indent) ∧
      IsDescriptorText (document (merged.writeTo root).indent) := by
  intro merged
  obtain ⟨_, _, _, areFiles⟩ := layout_cases generates.laidOut
  obtain ⟨scopes, level, isGenerated, _⟩ := Descriptor.generate_eq areFiles generates.made
  have isRoot : generated.asText.root = some layout.root := by rw [isGenerated]; rfl
  have sameKit : merged.jdkName = settings.jdkName := by
    show generated.jdkName = _
    rw [isGenerated]
    rfl
  have isTree : merged.tree = some root := Descriptor.tree_ofElement name root
  have isWritten := generates.isWritten
  have plain := only.plain
  rw [← sameKit] at isWritten plain
  have written := Descriptor.write_of_isWritten isTree isWritten isRead.ofBoth.1
  have asText : merged.asText = (Descriptor.ofElement name root).merge generated.asText := rfl
  have values : merged.asText.HasOnly isXmlChar := asText ▸ Descriptor.hasOnly_merge
    (Descriptor.hasOnly_excludes_ofElement isRead name)
    (only.values layout generated lines generates) isRoot
  refine ⟨written, ?_⟩
  rw [Descriptor.eq_document_of_serialize isRead.ofBoth.1 plain
    ((Descriptor.write_of_tree isTree).symm.trans written)]
  exact Descriptor.isDescriptorText_writeTo isModule isRead namesPlain values

/-- A run that generates texts which documents may hold writes a text that is read again. -/
theorem isDescriptorText_of_gives_run
    (only : settings.GeneratesOnly isXmlChar options world.files.workingDirectory)
    (plain : world.files.HasPlainNames true settings.descriptorPath)
    (given : Gives (settings.run owner Hooks.none options) world result after) :
    IsDescriptorText result.content ∧ ∃ layout generated lines,
      settings.Generates options world.files.workingDirectory layout generated lines := by
  obtain ⟨steps, isContent⟩ := exists_steps given
  obtain ⟨name, root, isOf, isRead, _⟩ := steps.exists_tree
  have isTree : steps.persisted.tree = some root := by
    rw [isOf]
    exact Descriptor.tree_ofElement name root
  obtain ⟨isModule, namesPlain⟩ := Descriptor.plainNames_of_load plain steps.loaded isTree
  have serialized := steps.serialized isOf
  have isWritten := Descriptor.isWritten_of_writable
    (Descriptor.serialize_eq_ok_iff.mp serialized).1
  have sameKit : steps.merged.jdkName = settings.jdkName := steps.generated_cases.2.1
  rw [sameKit] at isWritten
  have generates : settings.Generates options world.files.workingDirectory steps.layout
      steps.generated steps.lines := ⟨steps.laidOut, steps.made, isWritten⟩
  obtain ⟨_, isText⟩ := generates.isDescriptorText only isRead isModule namesPlain name
  rw [← isContent, ← (Descriptor.serialize_eq_ok_iff.mp serialized).2, Steps.merged, isOf]
  exact ⟨isText, _, _, _, generates⟩

/-- A module whose descriptor is read can be run again. -/
theorem Generates.exists_gives_again {layout : Layout} {generated : Descriptor}
    {lines : List String}
    (generates : settings.Generates options world.files.workingDirectory layout generated lines)
    (only : settings.GeneratesOnly isXmlChar options world.files.workingDirectory)
    (holds : world.files.HoldsText settings.descriptorPath IsDescriptorText)
    (isWet : options.isDry = false) (owner : String) :
    ∃ result after, Gives (settings.run owner Hooks.none options) world result after ∧
      IsDescriptorText result.content ∧
      world.files.replace false settings.descriptorPath result.content = (after.files, .ok ()) := by
  obtain ⟨text, found, root, isRead, isModule, namesPlain⟩ := holds
  let known : Json.Value := .str settings.descriptorPath.stem
  let merged := (Descriptor.ofElement known root).merge generated
  obtain ⟨written, isText⟩ := generates.isDescriptorText only (accepted_of_readDocument isRead)
    isModule namesPlain known
  obtain ⟨files, replaced⟩ := FileTree.exists_replace_of_find? found
    (document (merged.writeTo root).indent)
  let steps : settings.Steps options world.files files := {
    layout := layout
    generated := generated
    lines := lines
    persisted := Descriptor.ofElement known root
    content := document (merged.writeTo root).indent
    laidOut := generates.laidOut
    made := generates.made
    loaded := Descriptor.load_of_readFile (Descriptor.readFile_of_find? found isRead isModule)
      settings.name
    written := written
    dry := fun isDry => nomatch isWet.symm.trans isDry
    saved := fun _ => replaced }
  obtain ⟨result, after, given, isContent, reached⟩ := steps.exists_gives owner
  refine ⟨result, after, given, ?_, ?_⟩
  · rw [isContent]
    exact isText
  · rw [isContent, reached]
    exact replaced

end ModuleSettings

/-! ## Builds -/

namespace Build

variable {build : Build} {options : Options} {world after : World}
  {results : List GenerationResult}

/-- Whether a run of a build comes to what it generates for a module. -/
def Reaches (build : Build) (options : Options) (start : Path) (settings : ModuleSettings) :
    Prop :=
  hooksOf [] settings = .ok Hooks.none ∧
    ∃ layout generated lines,
      settings.Generates (build.moduleOptions options) start layout generated lines

/-- Whether a build generates no text for its modules, and lists none, but of characters of some
kind. -/
structure WritesOnly (allowed : Char → Bool) (build : Build) (options : Options) (start : Path) :
    Prop where
  descriptors : ∀ settings ∈ build.modules,
    settings.GeneratesOnly allowed (build.moduleOptions options) start
  list : ∀ settings ∈ build.modules,
    (build.listedAt start settings.descriptorPath).HasOnly allowed

theorem gives_runModule_iff {settings : ModuleSettings} {result : GenerationResult} :
    Gives (build.runModule [] options settings) world result after ↔
      hooksOf [] settings = .ok Hooks.none ∧
        Gives (settings.run settings.name.display Hooks.none (build.moduleOptions options)) world
          result after := by
  have isNone {found : Hooks} (isFound : hooksOf [] settings = .ok found) : found = Hooks.none := by
    unfold hooksOf at isFound
    split at isFound
    · exact (Except.ok.inj isFound).symm
    · cases named : keyOf settings.name with
      | error failure =>
          rw [named] at isFound
          exact nomatch isFound
      | ok key =>
          rw [named] at isFound
          exact (Except.ok.inj isFound).symm
  unfold runModule runModuleOn
  simp only [gives_bind_iff, gives_ofResult_iff]
  constructor
  · rintro ⟨found, _, ⟨isFound, rfl⟩, given⟩
    obtain rfl := isNone isFound
    exact ⟨isFound, given⟩
  · rintro ⟨isFound, given⟩
    exact ⟨Hooks.none, world, ⟨isFound, rfl⟩, given⟩

/-- Modules that are run one after the other leave descriptors that are read again. -/
theorem holdsText_of_gives_mapM {modules : List ModuleSettings} (isWet : options.isDry = false)
    (only : ∀ settings ∈ modules, settings.GeneratesOnly isXmlChar (build.moduleOptions options)
      world.files.workingDirectory)
    (plain : ∀ settings ∈ modules, world.files.HasPlainNames true settings.descriptorPath)
    (given : Gives (modules.mapM (build.runModule [] options)) world results after) :
    (∀ settings ∈ modules,
        build.Reaches options world.files.workingDirectory settings ∧
          after.files.HoldsText settings.descriptorPath IsDescriptorText) ∧
      (∀ path, world.files.HoldsText path IsDescriptorText →
        after.files.HoldsText path IsDescriptorText) ∧
      after.files.workingDirectory = world.files.workingDirectory := by
  induction modules generalizing world results with
  | nil =>
      obtain ⟨rfl, rfl⟩ := gives_pure_iff.mp given
      exact ⟨fun _ member => absurd member List.not_mem_nil, fun _ holds => holds, rfl⟩
  | cons settings rest ih =>
      obtain ⟨result, others, middle, rfl, first, restGiven⟩ := gives_mapM_cons_iff.mp given
      rw [List.forall_mem_cons] at only plain
      obtain ⟨noHooks, ran⟩ := gives_runModule_iff.mp first
      obtain ⟨isText, generates⟩ :=
        ModuleSettings.isDescriptorText_of_gives_run only.1 plain.1 ran
      have isModuleWet : (build.moduleOptions options).isDry = false := isWet
      have replaced := ModuleSettings.replace_of_gives_run isModuleWet ran
      have sameDirectory := (FileTree.find?_replace replaced).2
      obtain ⟨restHold, kept, restDirectory⟩ := ih
        (sameDirectory ▸ only.2)
        (fun later member => (plain.2 later member).of_replace replaced isText) restGiven
      rw [sameDirectory] at restHold
      refine ⟨List.forall_mem_cons.mpr ⟨⟨⟨noHooks, generates⟩, kept _ ?_⟩, restHold⟩,
        fun path holds => kept path (holds.of_replace replaced fun _ => isText),
        restDirectory.trans sameDirectory⟩
      exact FileTree.holdsText_of_replace replaced isText

/-- Modules whose descriptors are read are run again, and leave the list of all modules alone. -/
theorem exists_gives_mapM_again {modules : List ModuleSettings} (isWet : options.isDry = false)
    (only : ∀ settings ∈ modules, settings.GeneratesOnly isXmlChar (build.moduleOptions options)
      world.files.workingDirectory)
    (each : ∀ settings ∈ modules,
      build.Reaches options world.files.workingDirectory settings ∧
        world.files.HoldsText settings.descriptorPath IsDescriptorText) :
    ∃ results after, Gives (modules.mapM (build.runModule [] options)) world results after ∧
      ∀ kind, world.files.HoldsText build.modulesPath kind →
        after.files.HoldsText build.modulesPath kind := by
  induction modules generalizing world with
  | nil => exact ⟨[], world, gives_pure_iff.mpr ⟨rfl, rfl⟩, fun _ holds => holds⟩
  | cons settings rest ih =>
      rw [List.forall_mem_cons] at only each
      obtain ⟨⟨⟨noHooks, _, _, _, generates⟩, holds⟩, others⟩ := each
      obtain ⟨result, middle, ran, isText, replaced⟩ :=
        generates.exists_gives_again only.1 holds isWet settings.name.display
      have sameDirectory := (FileTree.find?_replace replaced).2
      obtain ⟨results, after, given, keptList⟩ := ih (sameDirectory ▸ only.2)
        fun later member => ⟨sameDirectory ▸ (others later member).1,
          (others later member).2.of_replace replaced fun _ => isText⟩
      refine ⟨result :: results, after, gives_mapM_cons_iff.mpr
        ⟨result, results, middle, rfl, gives_runModule_iff.mpr ⟨noHooks, ran⟩, given⟩,
        ?_⟩
      intro kind isList
      apply keptList kind
      apply isList.of_replace replaced
      intro same
      exact absurd same (build.destination_ne_listPlace settings _ _)

/-! ## The list of all modules -/

/-- A list that is made of characters which documents may hold is read again. -/
theorem isWorkspaceText_of_workspaceText {files : FileTree} {text : String}
    (only : ∀ result ∈ results,
      (build.listed files.workingDirectory result).HasOnly isXmlChar)
    (plain : files.HasPlainNames false build.modulesPath)
    (isText : build.workspaceText files results = .ok text) : IsWorkspaceText text := by
  obtain ⟨existing, isExisting, written⟩ := workspaceText_eq_ok_iff.mp isText
  obtain ⟨root, isRead, rfl⟩ := workspaceDocument_eq_ok_iff.mp written
  have namesPlain : root.Meets plainNames := by
    have ofTemplate (start : workspaceStart existing = workspaceTemplate) :
        root.Meets plainNames := by
      rw [start, readDocument_workspaceTemplate] at isRead
      exact Except.ok.inj isRead ▸ plainNames_workspaceRoot
    rcases existingWorkspace_cases isExisting with rfl | ⟨found, rfl, isFound⟩
    · exact ofTemplate rfl
    · by_cases isEmpty : found = ""
      · exact ofTemplate (isEmpty ▸ workspaceStart_empty)
      · rw [workspaceStart_of_ne isEmpty] at isRead
        obtain ⟨bytes, isFile, isTextOf⟩ := FileTree.readText_eq_ok isFound
        exact plain bytes (FileTree.find?_eq_file_iff.mp isFile).2 found root isTextOf isRead
  exact (IsWorkspace.of_readDocument isRead).exists_read namesPlain
    (accepted_of_readDocument isRead).ofBoth.2 (List.forall_mem_map.mpr only) false

theorem exists_workspaceText {files : FileTree}
    (holds : files.HoldsText build.modulesPath IsWorkspaceText)
    (results : List GenerationResult) : ∃ text, build.workspaceText files results = .ok text := by
  obtain ⟨text, found, root, isRead⟩ := holds
  let settled := String.ofList (normalizeLineEnds text.toList)
  have isExisting : build.existingWorkspace files = .ok (some settled) := by
    rw [existingWorkspace, if_pos (FileTree.contains_of_find? found),
      FileTree.readText_of_find? found]
    rfl
  obtain ⟨start, isStart⟩ : ∃ start, readDocument false (workspaceStart (some settled)) =
      .ok start := by
    by_cases isEmpty : settled = ""
    · exact ⟨workspaceRoot, isEmpty ▸ readDocument_workspaceTemplate⟩
    · exact ⟨root, by rw [workspaceStart_of_ne isEmpty, readDocument_normalized, isRead]⟩
  exact ⟨_, workspaceText_eq_ok_iff.mpr ⟨_, isExisting,
    workspaceDocument_eq_ok_iff.mpr ⟨start, isStart, rfl⟩⟩⟩

/-! ## Runs -/

theorem exists_gives_run_again (isWet : options.isDry = false) (isAll : options.only = [])
    (only : ∀ settings ∈ build.modules, settings.GeneratesOnly isXmlChar
      (build.moduleOptions options) world.files.workingDirectory)
    (each : ∀ settings ∈ build.modules,
      build.Reaches options world.files.workingDirectory settings ∧
        world.files.HoldsText settings.descriptorPath IsDescriptorText)
    (holdsList : world.files.HoldsText build.modulesPath IsWorkspaceText) :
    ∃ results after, Gives (build.run [] options) world results after := by
  obtain ⟨results, middle, given, keptList⟩ := exists_gives_mapM_again isWet only each
  have isList := keptList IsWorkspaceText holdsList
  obtain ⟨text, isText⟩ := exists_workspaceText isList results
  obtain ⟨_, found, _⟩ := isList
  obtain ⟨files, saved⟩ := FileTree.exists_replace_of_find? found text
  exact ⟨results, _, (gives_run_all_iff isWet isAll).mpr
    ⟨middle, text, files, (gives_runModules_all_iff isAll).mpr given, isText, saved, rfl⟩⟩

/-- A run of all modules of a build without callbacks leaves descriptors that are read and a list
that is written over, so that it can be repeated.  What it writes is made of characters that
documents may hold, and the names in the files that it has found are allowed by every document. -/
theorem written_files_are_read_again (isWet : options.isDry = false) (isAll : options.only = [])
    (only : build.WritesOnly isXmlChar options world.files.workingDirectory)
    (plain : ∀ settings ∈ build.modules, world.files.HasPlainNames true settings.descriptorPath)
    (plainList : world.files.HasPlainNames false build.modulesPath)
    (given : Gives (build.run [] options) world results after) :
    (∀ result ∈ results, ∃ found, Descriptor.readFile after.files result.path = .ok found) ∧
      (∀ others, ∃ text, build.workspaceText after.files others = .ok text) ∧
      ∃ again twice, Gives (build.run [] options) after again twice := by
  obtain ⟨middle, text, files, modulesGiven, isText, saved, rfl⟩ :=
    (gives_run_all_iff isWet isAll).mp given
  obtain ⟨each, _, sameDirectory⟩ := holdsText_of_gives_mapM isWet only.descriptors plain
    ((gives_runModules_all_iff isAll).mp modulesGiven)
  -- The modules have left the list as it was, and it is written over.
  have middlePlain : middle.files.HasPlainNames false build.modulesPath := by
    intro bytes held
    rw [FileTree.destination_congr sameDirectory] at held
    exact plainList bytes ((keeps_list_of_gives_runModules modulesGiven).symm.trans held)
  have onlyListed : ∀ result ∈ results,
      (build.listed middle.files.workingDirectory result).HasOnly isXmlChar := by
    intro result member
    obtain ⟨settings, isModule, isTarget⟩ :=
      exists_settings_of_gives_runModules modulesGiven member
    rw [listed_eq, sameDirectory, ← isTarget]
    exact only.list settings isModule
  have isList := isWorkspaceText_of_workspaceText onlyListed middlePlain isText
  have holdsList : files.HoldsText build.modulesPath IsWorkspaceText :=
    FileTree.holdsText_of_replace saved isList
  have holds : ∀ settings ∈ build.modules,
      files.HoldsText settings.descriptorPath IsDescriptorText := fun settings member =>
    (each settings member).2.of_replace saved fun same =>
      absurd same.symm (build.destination_ne_listPlace settings _ _)
  have finalDirectory : files.workingDirectory = world.files.workingDirectory :=
    (FileTree.find?_replace saved).2.trans sameDirectory
  refine ⟨?_, exists_workspaceText holdsList, ?_⟩
  · intro result member
    obtain ⟨settings, isModule, isTarget⟩ :=
      exists_settings_of_gives_runModules modulesGiven member
    obtain ⟨_, found, root, isRead, isDescriptor, _⟩ := holds settings isModule
    rw [← isTarget]
    exact ⟨_, Descriptor.readFile_of_find? found isRead isDescriptor⟩
  · apply exists_gives_run_again isWet isAll (finalDirectory ▸ only.descriptors) _ holdsList
    intro settings member
    exact ⟨finalDirectory ▸ (each settings member).1, holds settings member⟩

/-! ## Modules with development kits -/

/-- The first module of the pair with a development kit. -/
def kitModule (kit : String) : ModuleSettings :=
  { pairModule "a" with jdkName := .str kit }

def kitBuild (kits : List String) : Build :=
  ⟨Path.workspace, kits.map kitModule, none, ∅⟩

def kitData (kits : List String) : Json.Value :=
  .obj [("modules", .arr (kits.map fun kit => .obj [("projectDir", .str "a"),
    ("javaPlugin", .bool false), ("idea", .obj [("jdkName", .str kit)])]))]

def kitDescriptor (kit : String) : Descriptor :=
  Descriptor.ofLayout (kitModule kit) dependentLayout

def kitTree (kit : String) : Element :=
  (((Descriptor.ofElement .null templateRoot).merge (kitDescriptor kit)).writeTo
    templateRoot).indent

section Kits

variable {kit : String} {kits : List String}

theorem layout_pairModule : (pairModule "a").layout
    ((pairModule "a").anchors Path.workspace ∅) = .ok dependentLayout := by
  let anchors := (pairModule "a").anchors Path.workspace ∅
  have root : ContentRoot.mk (anchors.fileUrl (some ((pairModule "a").home anchors)))
      ((pairModule "a").sourceFolders anchors) ((pairModule "a").excludedFolders anchors) =
        dependentLayout.root := by
    decide +kernel
  exact congrArg (fun found => Except.ok (Layout.mk found ⟨true, none, none⟩ [] [])) root

theorem generates_kitModule : (kitModule kit).Generates
    ((kitBuild kits).moduleOptions pairOptions) Path.workspace dependentLayout
      (kitDescriptor kit) [] :=
  ⟨layout_pairModule, rfl, .inr nofun⟩

theorem generatesOnly_kitModule (notEmpty : kit ≠ "") (isKit : HasOnly isXmlChar kit) :
    (kitModule kit).GeneratesOnly isXmlChar ((kitBuild kits).moduleOptions pairOptions)
      Path.workspace := by
  refine ⟨(fun _ isVerbatim => nomatch isVerbatim), ?_⟩
  intro layout generated lines generates
  have known : (kitModule kit).Generates ((kitBuild kits).moduleOptions pairOptions)
      Path.workspace dependentLayout (kitDescriptor kit) [] := generates_kitModule
  obtain rfl := Except.ok.inj (known.laidOut.symm.trans generates.laidOut)
  obtain ⟨rfl, _⟩ := Prod.mk.inj (Except.ok.inj (known.made.symm.trans generates.made))
  rw [Descriptor.asText_of_text (.inr ⟨kit, rfl, notEmpty⟩)]
  have parts := hasOnly_dependent isKit (show HasOnly isXmlChar "" from rfl)
  exact ⟨parts.root, nofun, nofun, .inr ⟨kit, rfl, isKit⟩, nofun, fun _ member => nomatch member⟩

theorem replace_kitModule (content : String) :
    pairFiles.replace false (kitModule kit).descriptorPath content =
      (pairFilesAfter content, .ok ()) :=
  replace_pairFiles content

/-- The first one of such modules is run, since it finds no descriptor. -/
theorem exists_gives_kitModule : ∃ result after,
    Gives ((kitBuild kits).runModule [] pairOptions (kitModule kit)) (World.ofFiles pairFiles)
      result after ∧
    after.files = pairFilesAfter (document (kitTree kit)) := by
  have missing : ¬pairFiles.contains (kitModule kit).descriptorPath = true := by
    have isPath : (kitModule kit).descriptorPath = ⟨.single, ["ws", "a", "a.iml"], by decide⟩ :=
      descriptorPath_pair.1
    rw [isPath]
    decide +kernel
  obtain ⟨known, loaded⟩ := load_of_missing missing (kitModule kit).name
  have isWritten : jdkAttribute (kitDescriptor kit).jdkName ≠ .unwritable := nofun
  have isSound := (accepted_of_readDocument (readDocument_templateText true)).ofBoth.1
  let steps : (kitModule kit).Steps ((kitBuild kits).moduleOptions pairOptions)
      (World.ofFiles pairFiles).files (pairFilesAfter (document (kitTree kit))) := {
    layout := dependentLayout
    generated := kitDescriptor kit
    lines := []
    persisted := Descriptor.ofElement known templateRoot
    content := document (kitTree kit)
    laidOut := layout_pairModule
    made := rfl
    loaded := loaded
    written := Descriptor.write_of_isWritten (Descriptor.tree_ofElement known templateRoot)
      (.inr isWritten) isSound
    dry := nofun
    saved := fun _ => replace_kitModule _ }
  obtain ⟨result, after, given, _, reached⟩ := steps.exists_gives (kitModule kit).name.display
  exact ⟨result, after, gives_runModule_iff.mpr ⟨rfl, given⟩, reached⟩

theorem exists_gives_kitList {content : String} (onFiles : world.files = pairFilesAfter content)
    (results : List GenerationResult) :
    ∃ text after, (kitBuild kits).workspaceText world.files results = .ok text ∧
      world.files.replace false (kitBuild kits).modulesPath text = (after.files, .ok ()) ∧
      Gives ((kitBuild kits).listOn (.plain false) pairOptions results) world () after := by
  have isNew : world.files.contains (kitBuild kits).modulesPath = false := by
    rw [onFiles, modulesPath_eq]
    rfl
  have isExisting : (kitBuild kits).existingWorkspace world.files = .ok none := by
    rw [existingWorkspace, isNew]
    rfl
  obtain ⟨text, isText⟩ : ∃ text, (kitBuild kits).workspaceText world.files results = .ok text :=
    ⟨_, workspaceText_eq_ok_iff.mpr ⟨none, isExisting,
      workspaceDocument_eq_ok_iff.mpr ⟨workspaceRoot, readDocument_workspaceTemplate, rfl⟩⟩⟩
  obtain ⟨files, saved⟩ : ∃ files,
      world.files.replace false (kitBuild kits).modulesPath text = (files, .ok ()) := by
    rw [onFiles, modulesPath_eq]
    exact ⟨_, rfl⟩
  have lists : (!pairOptions.isDry && pairOptions.only.isEmpty) = true := rfl
  exact ⟨text, { world with files := files }, isText, saved,
    (gives_listOn_iff lists).mpr ⟨text, files, isText, saved, rfl⟩⟩

theorem exists_gives_kitBuild (kit : String) : ∃ result after,
    Gives ((kitBuild [kit]).run [] pairOptions) (World.ofFiles pairFiles) [result] after ∧
    result.path = (kitModule kit).descriptorPath ∧
    after.files.find? (kitModule kit).descriptorPath =
      some (.file (document (kitTree kit)).toUTF8) := by
  obtain ⟨result, middle, given, reached⟩ := exists_gives_kitModule
  obtain ⟨text, after, _, saved, listed⟩ := exists_gives_kitList reached [result]
  have ran : Gives ((kitBuild [kit]).runModules [] pairOptions) (World.ofFiles pairFiles)
      [result] middle :=
    gives_runModules_iff.mpr (gives_mapM_cons_iff.mpr
      ⟨result, [], middle, rfl, given, gives_pure_iff.mpr ⟨rfl, rfl⟩⟩)
  have written : middle.files.HoldsText (kitModule kit).descriptorPath
      (· = document (kitTree kit)) := by
    rw [reached]
    exact FileTree.holdsText_of_replace (replace_kitModule _) rfl
  obtain ⟨_, found, rfl⟩ := written.of_replace saved fun same =>
    absurd same.symm (destination_ne_listPlace _ _ _ _)
  exact ⟨result, after, gives_run_iff.mpr ⟨middle, ran, listed⟩,
    List.head_eq_of_cons_eq (paths_of_gives_runModules ran), found⟩

end Kits

/-- The descriptors and the list of a build with a development kit are read again. -/
theorem kit_files_are_read_again : ∃ results once again twice,
    Gives ((kitBuild ["17"]).run [] pairOptions) (World.ofFiles pairFiles) results once ∧
      (∀ result ∈ results, ∃ found, Descriptor.readFile once.files result.path = .ok found) ∧
      Gives ((kitBuild ["17"]).run [] pairOptions) once again twice := by
  obtain ⟨result, once, given, _⟩ := exists_gives_kitBuild "17"
  have isWet : pairOptions.isDry = false := rfl
  have isAll : pairOptions.only = [] := rfl
  have only : (kitBuild ["17"]).WritesOnly isXmlChar pairOptions
      (World.ofFiles pairFiles).files.workingDirectory := by
    constructor
    · exact List.forall_mem_singleton.mpr (generatesOnly_kitModule (by decide) rfl)
    · refine List.forall_mem_singleton.mpr ⟨?_, ?_⟩
      · rw [HasOnly]
        decide +kernel
      · rw [HasOnly]
        decide +kernel
  have noDescriptors : ∀ settings ∈ (kitBuild ["17"]).modules,
      (World.ofFiles pairFiles).files.HasPlainNames true settings.descriptorPath := by
    refine List.forall_mem_singleton.mpr (FileTree.hasPlainNames_of_free ?_)
    decide +kernel
  have noList :
      (World.ofFiles pairFiles).files.HasPlainNames false (kitBuild ["17"]).modulesPath :=
    FileTree.hasPlainNames_of_free (by decide +kernel)
  obtain ⟨areRead, _, again, twice, repeated⟩ := written_files_are_read_again isWet isAll
    only noDescriptors noList given
  exact ⟨[result], once, again, twice, given, areRead, repeated⟩

/-! ## A control character -/

theorem ofData_kitData : ofData pairFiles.isDirectory Path.workspace
    Path.here ⟨.relative, ["build.json"], by decide⟩ (kitData ["\x01"]) =
      .ok (kitBuild ["\x01"]) := by
  rfl

theorem not_read_kitTree (found : Element) :
    readDocument true (document (kitTree "\x01")) ≠ .ok found := by
  intro read
  have isText : (kitDescriptor "\x01").jdkName = .null ∨
      ∃ kit, (kitDescriptor "\x01").jdkName = .str kit ∧ kit ≠ "" :=
    .inr ⟨"\x01", rfl, by decide⟩
  have isSound : (kitTree "\x01").Meets sound := Descriptor.sound_indent_writeTo _ isText
    (accepted_of_readDocument (readDocument_templateText true)).ofBoth.1
  have legible := (isLegible_rootPieces isSound "").mpr (legible_of_readDocument isSound read)
  have refused : (rootPieces (kitTree "\x01") "").all (·.markup.isLegible) = false := by
    decide +kernel
  exact Bool.false_ne_true (refused.symm.trans legible)

/-- A build with a control character in the name of a development kit is accepted and run, but the
descriptor that it writes is not read, so it is not run again. -/
theorem control_character_is_not_read_again :
    ofData pairFiles.isDirectory Path.workspace Path.here ⟨.relative, ["build.json"], by decide⟩
        (kitData ["\x01"]) = .ok (kitBuild ["\x01"]) ∧
      ∃ results once,
        Gives ((kitBuild ["\x01"]).run [] pairOptions) (World.ofFiles pairFiles) results once ∧
        (∃ result ∈ results, ∀ found,
          Descriptor.readFile once.files result.path ≠ .ok found) ∧
        ∀ again twice, ¬Gives ((kitBuild ["\x01"]).run [] pairOptions) once again twice := by
  obtain ⟨result, once, given, isPath, written⟩ := exists_gives_kitBuild "\x01"
  have unread (found : Descriptor) :
      Descriptor.readFile once.files (kitModule "\x01").descriptorPath ≠ .ok found := by
    intro read
    obtain ⟨bytes, text, root, isFile, isText, isRead, _⟩ := Descriptor.readFile_eq_ok read
    obtain rfl := FileEntry.file.inj (Option.some.inj (written.symm.trans isFile))
    obtain rfl := Except.ok.inj ((FileTree.textOf_toUTF8 _).symm.trans isText)
    rw [readDocument_normalized] at isRead
    exact not_read_kitTree root isRead
  refine ⟨ofData_kitData, [result], once, given,
    ⟨result, List.mem_singleton_self result, isPath ▸ unread⟩, ?_⟩
  intro again twice repeated
  obtain ⟨_, modulesGiven, _⟩ := gives_run_iff.mp repeated
  have inOrder : Gives ([kitModule "\x01"].mapM ((kitBuild ["\x01"]).runModule [] pairOptions))
      once again _ := gives_runModules_iff.mp modulesGiven
  obtain ⟨_, _, _, _, first, _⟩ := gives_mapM_cons_iff.mp inOrder
  obtain ⟨steps, _⟩ := ModuleSettings.exists_steps (gives_runModule_iff.mp first).2
  have loaded := steps.loaded
  rw [Descriptor.load, if_pos (FileTree.contains_of_find? written)] at loaded
  exact unread _ loaded

end Build

end IdeModules
