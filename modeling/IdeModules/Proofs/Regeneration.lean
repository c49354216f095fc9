import IdeModules.Proofs.Generation

/-!
# Running a module again

A run starts from the file that an earlier one left, or from one that something
else has written.  It leaves there what it does not manage, and a second run
with the same arguments does not change a byte.
-/

namespace IdeModules

open Xml

namespace ModuleSettings

variable {settings : ModuleSettings} {options : RunOptions} {owner : String}

/-! ## Generated and written state -/

namespace Steps

variable {before after : FileTree} (steps : settings.Steps options before after)

def merged : Descriptor :=
  steps.persisted.merge steps.generated

theorem generated_cases :
    steps.generated.root = some steps.layout.root ∧ steps.generated.jdkName = settings.jdkName ∧
      steps.layout.root.excludedFolders.Nodup := by
  obtain ⟨_, excludesNodup, _, areFiles⟩ := layout_cases steps.laidOut
  obtain ⟨scopes, level, isGenerated, _⟩ := Descriptor.generate_eq areFiles steps.made
  rw [isGenerated]
  exact ⟨rfl, rfl, excludesNodup⟩

/-- A run starts from an accepted tree: that of the file, or that of the template. -/
theorem exists_tree :
    ∃ name root, steps.persisted = Descriptor.ofElement name root ∧ root.Meets accepted ∧
      (Descriptor.readFile before settings.descriptorPath = .ok steps.persisted ∨
        root = templateRoot) :=
  Descriptor.load_eq_ok steps.loaded

theorem serialized {name : Json.Value} {root : Element}
    (isOf : steps.persisted = Descriptor.ofElement name root) :
    serialize (steps.merged.writeTo root).indent = .ok steps.content := by
  have isTree : steps.merged.tree = some root := by
    rw [merged, isOf]
    exact Descriptor.tree_ofElement name root
  rw [← Descriptor.write_of_tree isTree]
  exact steps.written

theorem isPlainlyWritten_merged (plain : IsPlainlyWritten settings.jdkName) :
    IsPlainlyWritten steps.merged.jdkName := by
  have same : steps.merged.jdkName = settings.jdkName := steps.generated_cases.2.1
  rw [same]
  exact plain

/-- A written file is found with its text, and is read as a descriptor of that. -/
theorem load_after (isWet : options.isDry = false) :
    after.find? settings.descriptorPath = some (.file steps.content.toUTF8) ∧
      after.workingDirectory = before.workingDirectory ∧
      ∀ persisted, Descriptor.load after settings.descriptorPath settings.name = .ok persisted →
        ∃ name root, readDocument true steps.content = .ok root ∧
          persisted = Descriptor.ofElement name root := by
  obtain ⟨found, directory⟩ := FileTree.find?_replace (steps.saved isWet)
  refine ⟨found, directory, ?_⟩
  intro persisted loaded
  rw [Descriptor.load, if_pos (FileTree.contains_of_find? found), Descriptor.readFile,
    FileTree.readText_of_find? found] at loaded
  obtain ⟨root, isRead, _, isOf⟩ := Descriptor.ofText_eq_ok loaded
  rw [readDocument_normalized] at isRead
  exact ⟨_, root, isRead, isOf⟩

end Steps

/-! ## A second run -/

theorem change_settling_of_withoutReturns {root : Element} (noReturns : root.Meets withoutReturns) :
    root.change settling = root := by
  apply Element.change_untouched
  refine noReturns.imp ?_ ?_ ?_
  · exact fun _ _ _ _ _ => rfl
  · intro content absent
    show String.ofList (normalizeLineEnds content.toList) = content
    rw [normalizeLineEnds_of_not_mem absent, String.ofList_toList]
  · exact fun _ _ => trivial

theorem withoutReturns_indent_writeTo (descriptor : Descriptor) {root : Element}
    (noReturns : root.Meets withoutReturns) :
    (descriptor.asText.writeTo root).indent.Meets withoutReturns := by
  have keeps : descriptor.asText.Keeps withoutReturns :=
    Descriptor.keeps_withoutReturns (fun _ _ => rfl) descriptor.hasOnly_asText
  refine (keeps.writeTo noReturns).indent ?_
  intro depth
  simp [withoutReturns, lineIndent]

namespace Steps

variable {first second third : FileTree} (steps : settings.Steps options first second)

theorem generated_eq {start after : FileTree} (again : settings.Steps options start after)
    (sameDirectory : start.workingDirectory = first.workingDirectory) :
    again.layout = steps.layout ∧ again.generated = steps.generated := by
  have sameAnchors : settings.anchorsOn start options = settings.anchorsOn first options := by
    rw [anchorsOn, sameDirectory, anchorsOn]
  have sameLayout : again.layout = steps.layout := by
    have laidOut := again.laidOut
    rw [sameAnchors, steps.laidOut] at laidOut
    exact (Except.ok.inj laidOut).symm
  have made := again.made
  rw [sameAnchors, sameLayout, steps.made] at made
  exact ⟨sameLayout, (Prod.mk.inj (Except.ok.inj made)).1.symm⟩

variable (again : settings.Steps options second third)

theorem content_again (plain : IsPlainlyWritten settings.jdkName)
    (noReturns : ∀ persisted root,
      Descriptor.readFile first settings.descriptorPath = .ok persisted →
        persisted.tree = some root → root.Meets withoutReturns)
    (isWet : options.isDry = false) : again.content = steps.content := by
  obtain ⟨name, root, isOf, isRead, origin⟩ := steps.exists_tree
  obtain ⟨isRoot, _, excludesNodup⟩ := steps.generated_cases
  have isSound := isRead.ofBoth.1
  have rootSettled : root.Meets withoutReturns := by
    rcases origin with fromFile | rfl
    · refine noReturns steps.persisted root fromFile ?_
      rw [isOf]
      exact Descriptor.tree_ofElement name root
    · exact withoutReturns_templateRoot
  have persistedNodup : steps.persisted.excludes.Nodup := by
    rw [isOf]
    exact Descriptor.excludes_ofElement name root
  -- The second run reads the tree that the first one has written.
  have text := Descriptor.eq_document_of_serialize isSound
    (steps.isPlainlyWritten_merged plain) (steps.serialized isOf)
  obtain ⟨_, sameDirectory, reread⟩ := steps.load_after isWet
  obtain ⟨nameAgain, rootAgain, isReadAgain, isOfAgain⟩ := reread again.persisted again.loaded
  have sameTree : rootAgain = (steps.merged.asText.writeTo root).indent := by
    rw [Descriptor.eq_of_read_serialized isSound (steps.isPlainlyWritten_merged plain)
      (steps.serialized isOf) isReadAgain]
    exact change_settling_of_withoutReturns
      (withoutReturns_indent_writeTo steps.merged rootSettled)
  -- It writes the same state into that tree, which does not change.
  have textAgain := Descriptor.eq_document_of_serialize
    (accepted_of_readDocument isReadAgain).ofBoth.1
    (again.isPlainlyWritten_merged plain) (again.serialized isOfAgain)
  rw [textAgain, text, merged, isOfAgain, (steps.generated_eq again sameDirectory).2, sameTree]
  exact congrArg document (Descriptor.indent_writeTo_merge_written isRoot persistedNodup
    excludesNodup nameAgain root)

end Steps

/-! ## Runs of a dependent module -/

def dependentFiles (text : String) : FileTree where
  workingDirectory := Path.workspace
  entries := [(["ws"], .directory), (["ws", "a.iml"], .file text.toUTF8)]
  rooted := by simp [entryIn, Keyed.get?]
  starts := rfl

def dependentOptions : RunOptions := ⟨⟨none, false⟩, ∅, false, false⟩

section Dependent

variable {jdkName : Json.Value} {text content : String} {root : Element}

theorem descriptorPath_dependent (version : Option String) :
    (dependentSettings jdkName version).descriptorPath = ⟨.single, ["ws", "a.iml"], by decide⟩ := by
  show Path.below Path.workspace ((Json.Value.str "a").display ++ ".iml") = _
  decide +kernel

theorem find?_dependentFiles (text : String) :
    (dependentFiles text).find? ⟨.single, ["ws", "a.iml"], by decide⟩ =
      some (.file text.toUTF8) := by
  rfl

theorem replace_dependentFiles (text content : String) :
    (dependentFiles text).replace false ⟨.single, ["ws", "a.iml"], by decide⟩ content =
      (dependentFiles content, .ok ()) := by
  rfl

theorem readFile_dependentFiles (read : readDocument true text = .ok root)
    (isModule : root.name = Name.plain "module") :
    Descriptor.readFile (dependentFiles text) ⟨.single, ["ws", "a.iml"], by decide⟩ =
      .ok (Descriptor.ofElement (.str "a") root) := by
  have named : Path.stem ⟨.single, ["ws", "a.iml"], by decide⟩ = "a" := by decide +kernel
  rw [Descriptor.readFile_of_find? (find?_dependentFiles text) read isModule, named]

/-- A dependent module is run successfully if its descriptor is read and written. -/
theorem exists_dependentRun {world : World} (hasText : world.files = dependentFiles text)
    (read : readDocument true text = .ok root) (isModule : root.name = Name.plain "module")
    (written : (dependentMerged jdkName (some "1") root).write.2 = .ok content) :
    ∃ result after,
      Gives ((dependentSettings jdkName (some "1")).run "" Hooks.none dependentOptions)
        world result after ∧
      result.content = content ∧ after.files = dependentFiles content := by
  obtain ⟨lines, made⟩ := generate_dependent jdkName (.inl rfl)
  have loaded := Descriptor.load_of_readFile (readFile_dependentFiles read isModule)
    (dependentSettings jdkName (some "1")).name
  let steps : (dependentSettings jdkName (some "1")).Steps dependentOptions world.files
      (dependentFiles content) := {
    layout := dependentLayout
    generated := dependentDescriptor jdkName (some "1")
    lines := lines
    persisted := Descriptor.ofElement (.str "a") root
    content := content
    laidOut := by
      rw [hasText]
      exact layout_dependent jdkName
    made := by
      rw [hasText]
      exact made
    loaded := by
      rw [hasText, descriptorPath_dependent]
      exact loaded
    written := written
    dry := nofun
    saved := by
      intro _
      rw [hasText, descriptorPath_dependent]
      exact replace_dependentFiles text content }
  exact steps.exists_gives ""

theorem withoutReturns_foreignRoot : foreignRoot.Meets withoutReturns := by
  simp [foreignRoot, Element.withChildren, Element.meets_iff, meets_ofElement, Element.make,
    withoutReturns]

/-- The world of a dependent module that has not been run yet. -/
def dependentWorld : World :=
  World.ofFiles (dependentFiles foreignText)

theorem readFile_dependentWorld (jdkName : Json.Value) :
    Descriptor.readFile dependentWorld.files
        (dependentSettings jdkName (some "1")).descriptorPath =
      .ok (Descriptor.ofElement (.str "a") foreignRoot) := by
  rw [descriptorPath_dependent]
  exact readFile_dependentFiles readDocument_foreign rfl

theorem noReturns_dependentWorld (jdkName : Json.Value) (persisted : Descriptor) (root : Element)
    (read : Descriptor.readFile dependentWorld.files
      (dependentSettings jdkName (some "1")).descriptorPath = .ok persisted)
    (isTree : persisted.tree = some root) : root.Meets withoutReturns := by
  obtain rfl := Except.ok.inj ((readFile_dependentWorld jdkName).symm.trans read)
  rw [Descriptor.tree_ofElement] at isTree
  obtain rfl := Option.some.inj isTree
  exact withoutReturns_foreignRoot

theorem isPlainlyWritten_dependent :
    IsPlainlyWritten (dependentSettings (.str "17") (some "1")).jdkName := by
  intro content written
  exact absurd written nofun

/-- A dependent module that is run on a legible descriptor leaves one. -/
theorem exists_legibleRun {world : World} {jdkName : String} (nonempty : jdkName ≠ "")
    (admitted : HasOnly isXmlChar jdkName) (hasText : world.files = dependentFiles text)
    (read : readDocument true text = .ok root) (isModule : root.name = Name.plain "module")
    (legible : root.Meets plainNames) :
    ∃ result after written,
      Gives ((dependentSettings (.str jdkName) (some "1")).run "" Hooks.none dependentOptions)
        world result after ∧
      after.files = dependentFiles result.content ∧
      readDocument true result.content = .ok written ∧
      written.name = Name.plain "module" ∧ written.Meets plainNames := by
  have isRead := accepted_of_readDocument read
  have isText : (dependentMerged (.str jdkName) (some "1") root).jdkName = .null ∨
      ∃ name, (dependentMerged (.str jdkName) (some "1") root).jdkName = .str name ∧
        name ≠ "" := .inr ⟨jdkName, rfl, nonempty⟩
  have values : (dependentMerged (.str jdkName) (some "1") root).HasOnly isXmlChar :=
    Descriptor.hasOnly_merge (Descriptor.hasOnly_excludes_ofElement isRead _)
      (hasOnly_dependent admitted rfl) rfl
  have saved := Descriptor.write_eq_document _ isText tree_dependentMerged isRead.ofBoth.1
  obtain ⟨content, found, written, reread, _⟩ := Descriptor.exists_reread _ isText
    tree_dependentMerged isModule isRead legible values ⟨.relative, ["a.iml"], by decide⟩
  obtain rfl := Except.ok.inj (written.symm.trans saved)
  obtain ⟨tree, isReadAgain, isTreeModule, _⟩ := Descriptor.ofText_eq_ok reread
  have isLegible := plainNames_of_readDocument
    (Descriptor.sound_indent_writeTo _ isText isRead.ofBoth.1) isReadAgain
  obtain ⟨result, after, done, isContent, hasContent⟩ :=
    exists_dependentRun hasText read isModule saved
  rw [← isContent] at isReadAgain hasContent
  exact ⟨result, after, tree, done, hasContent, isReadAgain, isTreeModule, isLegible⟩

/-- A dependent module is run twice, and what its first run writes is read. -/
theorem exists_dependentRuns :
    ∃ result once again twice written,
      Gives ((dependentSettings (.str "17") (some "1")).run "" Hooks.none dependentOptions)
        dependentWorld result once ∧
      Gives ((dependentSettings (.str "17") (some "1")).run "" Hooks.none dependentOptions)
        once again twice ∧
      readDocument true result.content = .ok written := by
  obtain ⟨result, once, root, first, hasContent, isRead, isModule, legible⟩ :=
    exists_legibleRun (show "17" ≠ "" by decide) rfl
      (show dependentWorld.files = dependentFiles foreignText from rfl) readDocument_foreign rfl
      plainNames_foreignRoot
  obtain ⟨again, twice, _, second, _⟩ :=
    exists_legibleRun (show "17" ≠ "" by decide) rfl hasContent isRead isModule legible
  exact ⟨result, once, again, twice, root, first, second, isRead⟩

end Dependent

/-! ## A development kit with markup -/

/-- A list that is shown as the end of an element and the start of other ones. -/
def injectingJdk : Json.Value :=
  .arr [.str "\"/></component><a/><component name=\"q\"><x y=\""]

def injectingTree (root : Element) : Element :=
  ((dependentMerged injectingJdk (some "1") root).writeTo root).indent

theorem write_injecting {root : Element} (hasForm : (injectingTree root).isWritable = true) :
    (dependentMerged injectingJdk (some "1") root).write.2 =
      .ok (document (injectingTree root)) := by
  rw [Descriptor.write_of_tree tree_dependentMerged]
  exact if_pos hasForm

theorem Xml.toList_document_eq (root : Element) :
    (document root).toList = declarationLine.toList ++ printRoot root ++ "\n".toList := by
  rw [document, String.toList_append, String.toList_append, String.toList_ofList]

theorem document_ne_of_length {left right : Element}
    (differ : (printRoot left).length ≠ (printRoot right).length) :
    document left ≠ document right := by
  intro same
  have lengths := congrArg (fun text => text.toList.length) same
  simp only [Xml.toList_document_eq, List.length_append] at lengths
  omega

/-- The written elements are read as such, and written again beside themselves. -/
theorem exists_injected :
    ∃ root, readDocument true (document (injectingTree foreignRoot)) = .ok root ∧
      root.name = Name.plain "module" ∧ (injectingTree root).isWritable = true ∧
      document (injectingTree root) ≠ document (injectingTree foreignRoot) ∧
      ¬KeepsUnmanaged foreignRoot root := by
  have evaluated : (do
      let root ← readChars true
        (declarationLine.toList ++ printRoot (injectingTree foreignRoot) ++ "\n".toList)
      pure (decide (root.name = Name.plain "module" ∧ (injectingTree root).isWritable = true ∧
        (printRoot (injectingTree root)).length ≠
          (printRoot (injectingTree foreignRoot)).length ∧
        bare (root.children.eraseP (isComponent rootManager)) ≠
          bare (foreignRoot.children.eraseP (isComponent rootManager))))) = Except.ok true := by
    decide +kernel
  obtain ⟨root, isRead, holds⟩ := except_bind_eq_ok_iff.mp evaluated
  obtain ⟨isModule, hasForm, lengths, others⟩ := of_decide_eq_true (Except.ok.inj holds)
  refine ⟨root, ?_, isModule, hasForm, document_ne_of_length lengths, ?_⟩
  · rw [readDocument_eq_readChars, Xml.toList_document_eq, isRead]
  · exact fun keeps => others keeps.others

theorem writable_injecting : (injectingTree foreignRoot).isWritable = true := by
  decide +kernel

/-! ## The bytes of a second run -/

/-- A second run with the same arguments leaves every byte of the descriptor as it is. -/
theorem second_run_keeps_bytes {world once twice : World} {result again : GenerationResult}
    (plain : IsPlainlyWritten settings.jdkName)
    (noReturns : ∀ persisted root,
      Descriptor.readFile world.files settings.descriptorPath = .ok persisted →
        persisted.tree = some root → root.Meets withoutReturns)
    (firstRun : Gives (settings.run owner Hooks.none options) world result once)
    (secondRun : Gives (settings.run owner Hooks.none options) once again twice) :
    twice.files.find? settings.descriptorPath = once.files.find? settings.descriptorPath := by
  obtain ⟨first, _⟩ := exists_steps firstRun
  obtain ⟨second, _⟩ := exists_steps secondRun
  cases isDry : options.isDry with
  | true => rw [second.dry isDry]
  | false =>
      rw [(first.load_after isDry).1, (second.load_after isDry).1,
        first.content_again second plain noReturns isDry]

theorem dependent_second_run_keeps_bytes :
    ∃ result once again twice,
      Gives ((dependentSettings (.str "17") (some "1")).run "" Hooks.none dependentOptions)
        dependentWorld result once ∧
      Gives ((dependentSettings (.str "17") (some "1")).run "" Hooks.none dependentOptions)
        once again twice ∧
      twice.files.find? (dependentSettings (.str "17") (some "1")).descriptorPath =
        once.files.find? (dependentSettings (.str "17") (some "1")).descriptorPath := by
  obtain ⟨result, once, again, twice, _, first, second, _⟩ := exists_dependentRuns
  have kept := second_run_keeps_bytes isPlainlyWritten_dependent
    (noReturns_dependentWorld (.str "17")) first second
  exact ⟨result, once, again, twice, first, second, kept⟩

theorem injecting_second_run_changes_bytes :
    ∃ result once again twice,
      Descriptor.readFile dependentWorld.files
          (dependentSettings injectingJdk (some "1")).descriptorPath =
        .ok (Descriptor.ofElement (.str "a") foreignRoot) ∧
      foreignRoot.Meets withoutReturns ∧
      Gives ((dependentSettings injectingJdk (some "1")).run "" Hooks.none dependentOptions)
        dependentWorld result once ∧
      Gives ((dependentSettings injectingJdk (some "1")).run "" Hooks.none dependentOptions)
        once again twice ∧
      twice.files.find? (dependentSettings injectingJdk (some "1")).descriptorPath ≠
        once.files.find? (dependentSettings injectingJdk (some "1")).descriptorPath := by
  have hasText : dependentWorld.files = dependentFiles foreignText := rfl
  obtain ⟨root, isRead, isModule, hasForm, differ, _⟩ := exists_injected
  obtain ⟨result, once, first, _, hasContent⟩ := exists_dependentRun hasText
    readDocument_foreign rfl (write_injecting writable_injecting)
  obtain ⟨again, twice, second, _, hasOther⟩ := exists_dependentRun hasContent isRead isModule
    (write_injecting hasForm)
  refine ⟨result, once, again, twice, readFile_dependentWorld injectingJdk,
    withoutReturns_foreignRoot, first, second, ?_⟩
  rw [hasOther, hasContent, descriptorPath_dependent, find?_dependentFiles,
    find?_dependentFiles]
  intro same
  have texts := congrArg String.fromUTF8? (FileEntry.file.inj (Option.some.inj same))
  rw [FileTree.fromUTF8?_toUTF8, FileTree.fromUTF8?_toUTF8] at texts
  exact differ (Option.some.inj texts)

/-! ## What a run leaves alone -/

/-- What a module's descriptor holds beside its managed state survives a run: the written text is
read as a tree that keeps it, and the file holds that text unless the run is dry. -/
theorem run_keeps_unmanaged {world after : World} {result : GenerationResult}
    {persisted : Descriptor} {existing written : Element}
    (plain : IsPlainlyWritten settings.jdkName)
    (read : Descriptor.readFile world.files settings.descriptorPath = .ok persisted)
    (isTree : persisted.tree = some existing)
    (done : Gives (settings.run owner Hooks.none options) world result after)
    (reread : readDocument true result.content = .ok written) :
    KeepsUnmanaged existing written ∧
      (options.isDry = false → after.files.find? settings.descriptorPath =
        some (.file result.content.toUTF8)) := by
  obtain ⟨steps, sameContent⟩ := exists_steps done
  rw [← sameContent] at reread ⊢
  refine ⟨?_, fun isWet => (steps.load_after isWet).1⟩
  have isPersisted : steps.persisted = persisted := Except.ok.inj
    (steps.loaded.symm.trans (Descriptor.load_of_readFile read settings.name))
  obtain ⟨name, root, isOf, isRead, _⟩ := steps.exists_tree
  obtain rfl : root = existing := by
    rw [← isPersisted, isOf, Descriptor.tree_ofElement] at isTree
    exact Option.some.inj isTree
  have hasRoot : steps.merged.asText.root.isSome = true := rfl
  rw [Descriptor.eq_of_read_serialized isRead.ofBoth.1 (steps.isPlainlyWritten_merged plain)
    (steps.serialized isOf) reread]
  exact (steps.merged.asText.keepsUnmanaged_writeTo hasRoot root).of_same
    (Descriptor.withoutTexts_settled _).symm

theorem dependent_run_keeps_unmanaged :
    ∃ result after written,
      Gives ((dependentSettings (.str "17") (some "1")).run "" Hooks.none dependentOptions)
        dependentWorld result after ∧
      readDocument true result.content = .ok written ∧ KeepsUnmanaged foreignRoot written := by
  obtain ⟨result, after, _, _, written, done, _, reread⟩ := exists_dependentRuns
  have kept := run_keeps_unmanaged isPlainlyWritten_dependent
    (readFile_dependentWorld (.str "17")) (Descriptor.tree_ofElement (.str "a") foreignRoot) done
    reread
  exact ⟨result, after, written, done, reread, kept.1⟩

theorem injecting_run_changes_unmanaged :
    ∃ result after written,
      Descriptor.readFile dependentWorld.files
          (dependentSettings injectingJdk (some "1")).descriptorPath =
        .ok (Descriptor.ofElement (.str "a") foreignRoot) ∧
      Gives ((dependentSettings injectingJdk (some "1")).run "" Hooks.none dependentOptions)
        dependentWorld result after ∧
      readDocument true result.content = .ok written ∧ ¬KeepsUnmanaged foreignRoot written := by
  have hasText : dependentWorld.files = dependentFiles foreignText := rfl
  obtain ⟨root, isRead, _, _, _, changed⟩ := exists_injected
  obtain ⟨result, after, done, isContent, _⟩ := exists_dependentRun hasText
    readDocument_foreign rfl (write_injecting writable_injecting)
  rw [← isContent] at isRead
  exact ⟨result, after, root, readFile_dependentWorld injectingJdk, done, isRead, changed⟩

end ModuleSettings

end IdeModules
