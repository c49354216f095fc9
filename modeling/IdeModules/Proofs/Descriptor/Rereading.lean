import IdeModules.Proofs.Descriptor.Merging
import Mathlib.Data.List.Permutation

/-!
# Saved descriptors are read again

A merged descriptor that is saved is read back as it was, provided that
documents can hold its names and values, that no version is empty and that its
development kit is a text.
-/

namespace IdeModules

open Xml

/-- Whether the parts of a placeholder can be told apart in its name. -/
def Library.IsSeparable : Library → Prop
  | .files .. => True
  | .unresolved _ group name version => ' ' ∉ group.toList ∧ ' ' ∉ name.toList ∧
    ∀ found, version = some found → ' ' ∉ found.toList ∧ found ≠ ""
  | .otherModule .. => True

namespace Descriptor

variable {persisted generated : Descriptor}

/-! ## Saving a merged descriptor -/

/-- Whether a descriptor is written without loss: its values are made of characters that
documents hold, its development kit is a text or missing, its scopes have names, and the parts
of its placeholders can be told apart. -/
structure IsLossless (descriptor : Descriptor) : Prop where
  values : descriptor.HasOnly isXmlChar
  jdkName : descriptor.jdkName = .null ∨ ∃ name, descriptor.jdkName = .str name ∧ name ≠ ""
  scopes : ∀ name ∈ Keyed.keys descriptor.scopes, name ≠ ""
  placeholders : ∀ library ∈ descriptor.libraries, library.IsSeparable

section Generated

variable {settings : ModuleSettings} {anchors : PathVariables} {context : ProjectContext}
  {layout : Layout} {lines : List String}

theorem isRegular_of_separable {library : Library} (nonempty : library.scope ≠ "")
    (hasUrls : library.HasUrls) (isSeparable : library.IsSeparable) : library.IsRegular := by
  cases library with
  | files scope classes javadoc sources => exact ⟨nonempty, hasUrls⟩
  | unresolved scope group name version => exact ⟨nonempty, isSeparable⟩
  | otherModule scope name => exact nonempty

/-- A merged descriptor is read back as it is if the generated side is written without loss. -/
theorem isReadable_merge (laidOut : settings.layout anchors = .ok layout)
    (made : generate settings anchors context layout = .ok (generated, lines))
    (lossless : generated.IsLossless) (persistedNodup : persisted.excludes.Nodup) :
    (persisted.merge generated).IsReadable := by
  obtain ⟨sourcesNodup, excludesNodup, outputsMade, areFiles⟩ :=
    ModuleSettings.layout_cases laidOut
  obtain ⟨scopes, level, isGenerated, inOrder, haveUrls⟩ := generate_eq areFiles made
  have isRoot : generated.root = some layout.root := by rw [isGenerated]; rfl
  have outputs : generated.ownUrl generated.outputUrl = generated.outputUrl ∧
      generated.ownUrl generated.testOutputUrl = generated.testOutputUrl := by
    have url : generated.outputUrl = layout.outputs.output := by rw [isGenerated]; rfl
    have testUrl : generated.testOutputUrl = layout.outputs.testOutput := by
      rw [isGenerated]; rfl
    have inherits : generated.inheritsOutput = layout.outputs.inherits := by
      rw [isGenerated]; rfl
    rw [ownUrl, ownUrl, url, testUrl, inherits]
    rcases ModuleSettings.outputUrls_cases outputsMade with none | ⟨output, testOutput, own, h, h'⟩
    · rw [none]
      exact ⟨rfl, rfl⟩
    · rw [own]
      simp [Option.filter, h, h']
  have placed : generated.scopes = scopes := by rw [isGenerated]
  constructor
  · intro root found
    obtain rfl := Option.some.inj ((root_merge isRoot).symm.trans found)
    exact ⟨sourcesNodup, nodup_mergedExcludes persistedNodup excludesNodup⟩
  · exact outputs.1
  · exact outputs.2
  · exact lossless.jdkName
  · show InReadingOrder generated.scopes
    rw [placed]
    exact inOrder
  · intro library member
    have known : library ∈ generated.libraries := member
    obtain ⟨held, heldMember, inHeld⟩ := List.mem_flatten.mp member
    obtain ⟨entry, isEntry, rfl⟩ := List.mem_map.mp heldMember
    have isOwn : library.scope = entry.1 :=
      (inOrder.own entry (placed ▸ isEntry)).2 library inHeld
    refine isRegular_of_separable ?_ (haveUrls library ?_) (lossless.placeholders library known)
    · rw [isOwn]
      exact lossless.scopes entry.1 (List.mem_map_of_mem isEntry)
    · rw [← placed]
      exact member

end Generated

/-! ## Reading back -/

theorem write_of_tree {descriptor : Descriptor} {root : Element}
    (isTree : descriptor.tree = some root) :
    descriptor.write.2 = serialize (descriptor.writeTo root).indent := by
  have starting : descriptor.startingTree = .ok root := by rw [startingTree, isTree]
  rw [write, writtenTree, starting]
  rfl

/-- A descriptor with a written development kit has a document in every sound tree. -/
theorem write_of_isWritten {descriptor : Descriptor} {root : Element}
    (isTree : descriptor.tree = some root)
    (isWritten : descriptor.jdkName.isEmpty = true ∨
      jdkAttribute descriptor.jdkName ≠ .unwritable) (isSound : root.Meets sound) :
    descriptor.write.2 = .ok (document (descriptor.writeTo root).indent) := by
  rw [write_of_tree isTree]
  exact if_pos (descriptor.writable_of_isWritten isWritten isSound)

theorem tree_write {descriptor : Descriptor} {root : Element}
    (isTree : descriptor.tree = some root) :
    descriptor.write.1.tree = some (descriptor.writeTo root).indent := by
  have starting : descriptor.startingTree = .ok root := by rw [startingTree, isTree]
  rw [write, writtenTree, starting]
  rfl

theorem withoutTexts_settled (root : Element) :
    (root.indent.change settling).change withoutTexts = root.change withoutTexts := by
  rw [Element.change_change, ← Element.change_indent_withoutTexts]
  rfl

theorem asText_of_text {descriptor : Descriptor}
    (isText : descriptor.jdkName = .null ∨
      ∃ name, descriptor.jdkName = .str name ∧ name ≠ "") :
    descriptor.asText = descriptor := by
  have same : jdkText descriptor.jdkName = descriptor.jdkName := by
    rcases isText with isNull | ⟨name, isName, nonempty⟩
    · rw [isNull]
      rfl
    · have named : ¬(Json.Value.str name).isEmpty = true := fun empty =>
        nonempty ((isEmpty_str name).mp empty)
      rw [isName, jdkText, if_neg named]
      rfl
  rw [asText, same]

theorem writable_of_textual {root : Element} (isTextual : root.Meets textual) :
    root.isWritable = true :=
  (Element.isWritable_iff root).mpr (meets_writable_of_textual isTextual)

theorem plainNames_indent_writeTo {descriptor : Descriptor} {root : Element}
    (values : descriptor.HasOnly isXmlChar) (namesPlain : root.Meets plainNames) :
    (descriptor.writeTo root).indent.Meets plainNames :=
  (Element.meets_indent_iff fun _ => trivial).mpr
    ((keeps_plainNames isXmlChar_of_ascii values).writeTo namesPlain)

theorem admittedValues_indent_writeTo {descriptor : Descriptor} {root : Element}
    (values : descriptor.HasOnly isXmlChar) (admitted : root.Meets admittedValues) :
    (descriptor.writeTo root).indent.Meets admittedValues :=
  (Element.meets_indent_iff fun _ => trivial).mpr ((keeps_admittedValues values).writeTo admitted)

section Reread

variable (descriptor : Descriptor) {root : Element}
  (isText : descriptor.jdkName = .null ∨ ∃ name, descriptor.jdkName = .str name ∧ name ≠ "")

include isText

theorem sound_indent_writeTo (isSound : root.Meets sound) :
    (descriptor.writeTo root).indent.Meets sound := by
  have sameDescriptor := asText_of_text isText
  rw [← sameDescriptor]
  exact sound_indent_asText isSound

theorem write_eq_document (isTree : descriptor.tree = some root) (isSound : root.Meets sound) :
    descriptor.write.2 = .ok (document (descriptor.writeTo root).indent) := by
  rw [write_of_tree isTree]
  exact if_pos (writable_of_textual (textual_of_sound
    (descriptor.sound_indent_writeTo isText isSound)))

/-- A descriptor that is written into a legible tree is read back. -/
theorem exists_reread (isTree : descriptor.tree = some root)
    (isModule : root.name = Name.plain "module") (isRead : root.Meets accepted)
    (legible : root.Meets plainNames) (values : descriptor.HasOnly isXmlChar) (path : Path) :
    ∃ content found, descriptor.write.2 = .ok content ∧
      ofText path descriptor.name content = .ok found ∧
      found.withoutTree =
        (ofElement descriptor.name (descriptor.writeTo root)).withoutTree := by
  obtain ⟨isSound, admitted⟩ := isRead.ofBoth
  have writtenSound := descriptor.sound_indent_writeTo isText isSound
  have keepsName : ((descriptor.writeTo root).indent.change settling).name =
      Name.plain "module" := by
    rw [← isModule, ← descriptor.name_writeTo root]
    rfl
  refine ⟨_, ofElement descriptor.name ((descriptor.writeTo root).indent.change settling),
    descriptor.write_eq_document isText isTree isSound, ?_, ?_⟩
  · rw [ofText, readDocument_document writtenSound (plainNames_indent_writeTo values legible)
      (admittedValues_indent_writeTo values admitted)]
    exact if_pos keepsName
  · exact withoutTree_ofElement (withoutTexts_settled _) _

theorem plainNames_of_reread (isTree : descriptor.tree = some root)
    (isSound : root.Meets sound) {content : String} {path : Path} {name : Json.Value}
    {found : Descriptor} (written : descriptor.write.2 = .ok content)
    (read : ofText path name content = .ok found) :
    (descriptor.writeTo root).Meets plainNames := by
  rw [descriptor.write_eq_document isText isTree isSound] at written
  obtain rfl := Except.ok.inj written
  obtain ⟨foundRoot, isRead, _⟩ := ofText_eq_ok read
  exact (Element.meets_indent_iff fun _ => trivial).mp
    (legible_of_readDocument (descriptor.sound_indent_writeTo isText isSound) isRead).1

end Reread

theorem isText_asText (descriptor : Descriptor) :
    descriptor.asText.jdkName = .null ∨
      ∃ name, descriptor.asText.jdkName = .str name ∧ name ≠ "" := by
  show jdkText descriptor.jdkName = .null ∨ ∃ name, jdkText descriptor.jdkName = .str name ∧
    name ≠ ""
  unfold jdkText
  split
  · exact .inl rfl
  · rename_i named
    split
    · rename_i content isContent
      refine .inr ⟨content, rfl, ?_⟩
      rintro rfl
      exact named (eq_str_of_jdkAttribute isContent ▸ rfl)
    · rename_i content isContent
      exact .inr ⟨content, rfl, verbatim_ne_empty isContent⟩
    · exact .inl rfl

theorem write_asText (descriptor : Descriptor) {root : Element}
    (isTree : descriptor.tree = some root)
    (isSound : root.Meets sound) (plain : IsPlainlyWritten descriptor.jdkName)
    (hasForm : (descriptor.writeTo root).indent.isWritable = true) :
    descriptor.write.2 = descriptor.asText.write.2 := by
  have serialized : serialize (descriptor.writeTo root).indent =
      .ok (document (descriptor.writeTo root).indent) := if_pos hasForm
  have isTextTree : descriptor.asText.tree = some root := isTree
  rw [write_of_tree isTree, descriptor.asText.write_eq_document descriptor.isText_asText
    isTextTree isSound, serialized, eq_document_of_serialize isSound plain serialized]

/-- A descriptor that is written without loss into a legible tree is read back as it was. -/
theorem exists_read_back (descriptor : Descriptor) {root : Element}
    (isTree : descriptor.tree = some root) (isModule : root.name = Name.plain "module")
    (isRead : root.Meets accepted) (legible : root.Meets plainNames)
    (values : descriptor.HasOnly isXmlChar) (isReadable : descriptor.IsReadable) (path : Path) :
    ∃ content found, descriptor.write.2 = .ok content ∧
      ofText path descriptor.name content = .ok found ∧
      found.withoutTree = descriptor.withoutTree := by
  obtain ⟨content, found, written, reread, same⟩ := descriptor.exists_reread isReadable.jdkName
    isTree isModule isRead legible values path
  refine ⟨content, found, written, reread, ?_⟩
  rw [same, ofElement_writeTo _ isReadable]

theorem orderEntries_of_withoutTree {left right : Descriptor}
    (same : left.withoutTree = right.withoutTree) : left.orderEntries = right.orderEntries := by
  show left.withoutTree.orderEntries = right.withoutTree.orderEntries
  rw [same]

end Descriptor

/-! ## A module with a placeholder -/

/-- The settings of a module with a placeholder and another module among its libraries. -/
def dependentSettings (jdkName : Json.Value) (version : Option String) : ModuleSettings :=
  let placeholder := UnresolvedDependency.make "g" "n" version .null .null
  { ModuleSettings.ofNameAndDirectory (.str "a") Path.workspace with
    configurations := [("compile", { Configuration.empty "compile" with
      unresolved := [placeholder]
      references := [.project (.str ":b")] })]
    jdkName := jdkName }

def dependentAnchors : PathVariables :=
  (dependentSettings .null none).anchors Path.workspace ∅

def dependentLayout : Layout where
  root := ⟨"file://$MODULE_DIR$", [],
    ["file://$MODULE_DIR$/.gradle", "file://$MODULE_DIR$/build"]⟩
  outputs := ⟨true, none, none⟩
  generatedLibraries := []
  tasks := []

def dependentLibraries (version : Option String) : ScopedLibraries :=
  [("COMPILE", [.unresolved "COMPILE" "g" "n" version, .otherModule "COMPILE" "b"])]

def dependentDescriptor (jdkName : Json.Value) (version : Option String) : Descriptor :=
  { Descriptor.ofName (.str "a") with
    root := some dependentLayout.root
    jdkName := jdkName
    scopes := dependentLibraries version }

section Dependent

variable (jdkName : Json.Value) {version : Option String}

theorem layout_dependent : (dependentSettings jdkName version).layout dependentAnchors =
    .ok dependentLayout :=
  rfl

theorem generate_dependent (known : version = some "1" ∨ version = some "") :
    ∃ lines, Descriptor.generate (dependentSettings jdkName version) dependentAnchors
      ⟨none, false⟩ dependentLayout = .ok (dependentDescriptor jdkName version, lines) := by
  have built : (dependentSettings jdkName version).libraries dependentAnchors standardScopes =
      .ok (dependentLibraries version) := by
    rcases known with rfl | rfl
    · cbv
    · cbv
  exact ⟨_, Descriptor.generate_of_libraries rfl rfl built ⟨none, false⟩⟩

end Dependent

def foreignRoot : Element :=
  (Element.make "module" []).withChildren [Element.make "b" [("c", "d")]]

def foreignText : String := "<module><b c=\"d\"/></module>"

theorem readDocument_foreign : readDocument true foreignText = .ok foreignRoot := by
  rw [readDocument_eq_readChars]
  decide +kernel

theorem ofText_foreign (path : Path) :
    Descriptor.ofText path (.str "a") foreignText =
      .ok (Descriptor.ofElement (.str "a") foreignRoot) := by
  rw [Descriptor.ofText, readDocument_foreign]
  rfl

theorem mem_libraries_dependent {jdkName : Json.Value} {version : Option String}
    {library : Library} (member : library ∈ (dependentDescriptor jdkName version).libraries) :
    library = .unresolved "COMPILE" "g" "n" version ∨ library = .otherModule "COMPILE" "b" := by
  simpa [Descriptor.libraries, dependentDescriptor, dependentLibraries, Keyed.values] using member

theorem hasOnly_dependent {jdkName version : String} (jdk : HasOnly isXmlChar jdkName)
    (found : HasOnly isXmlChar version) :
    (dependentDescriptor (.str jdkName) (some version)).HasOnly isXmlChar := by
  have only : ∀ text : String, text.toList.all isPrintableAscii = true →
      HasOnly isXmlChar text := fun text => hasOnly_of_ascii Descriptor.isXmlChar_of_ascii
  constructor
  · rintro root isRoot
    obtain rfl := Option.some.inj isRoot
    constructor
    · exact only _ (by decide)
    · simp [dependentLayout]
    · simp only [dependentLayout, List.forall_mem_cons]
      exact ⟨only _ (by decide), only _ (by decide), by simp⟩
  · simp [dependentDescriptor, Descriptor.ofName]
  · simp [dependentDescriptor, Descriptor.ofName]
  · exact .inr ⟨jdkName, rfl, jdk⟩
  · simp [dependentDescriptor, Descriptor.ofName]
  · intro library member
    rcases mem_libraries_dependent member with rfl | rfl
    · refine ⟨only _ (by decide), only _ (by decide), only _ (by decide), ?_⟩
      intro other same
      exact Option.some.inj same ▸ found
    · exact ⟨only _ (by decide), only _ (by decide)⟩

theorem lossless_dependent : (dependentDescriptor (.str "17") (some "1")).IsLossless := by
  constructor
  · exact hasOnly_dependent rfl rfl
  · exact .inr ⟨"17", rfl, by decide⟩
  · simp [dependentDescriptor, dependentLibraries, Keyed.keys]
  · intro library member
    rcases mem_libraries_dependent member with rfl | rfl
    · simp [Library.IsSeparable]
    · trivial

theorem plainNames_foreignRoot : foreignRoot.Meets plainNames := by
  have value : HasOnly (fun _ => true) "d" := rfl
  have child : (Element.make "b" [("c", "d")]).Meets (made fun _ => true) :=
    made_make ["c"] (by decide) rfl (by simpa using value)
  have whole : foreignRoot.Meets (made fun _ => true) :=
    made_withChildren (made_make [] (by decide) rfl (by simp)) (by simpa using child)
  exact (meets_ofElement.mp (plainNames_of_made (made_ofElement whole))).1

/-! ## Saved and read again -/

/-- What is merged and saved is read back: every part of the managed state, and with it the
order entries, are those that were written. -/
theorem merged_descriptor_is_read_back {settings : ModuleSettings} {anchors : PathVariables}
    {context : ProjectContext} {layout : Layout} {persisted generated : Descriptor}
    {lines : List String} {name : Json.Value} {path : Path} {text : String}
    (read : Descriptor.ofText path name text = .ok persisted)
    (legible : ∀ root, persisted.tree = some root → root.Meets plainNames)
    (laidOut : settings.layout anchors = .ok layout)
    (made : Descriptor.generate settings anchors context layout = .ok (generated, lines))
    (lossless : generated.IsLossless) (savedPath : Path) :
    ∃ content found, (persisted.merge generated).write.2 = .ok content ∧
      Descriptor.ofText savedPath (persisted.merge generated).name content = .ok found ∧
      found.withoutTree = (persisted.merge generated).withoutTree ∧
      found.orderEntries = (persisted.merge generated).orderEntries := by
  obtain ⟨root, isRead, isModule, rfl⟩ := Descriptor.ofText_eq_ok read
  have isAccepted := accepted_of_readDocument isRead
  have isTree := Descriptor.tree_ofElement name root
  obtain ⟨_, _, _, areFiles⟩ := ModuleSettings.layout_cases laidOut
  obtain ⟨scopes, level, isGenerated, _⟩ := Descriptor.generate_eq areFiles made
  have isRoot : generated.root = some layout.root := by rw [isGenerated]; rfl
  have values := Descriptor.hasOnly_merge (Descriptor.hasOnly_excludes_ofElement isAccepted name)
    lossless.values isRoot
  have isReadable := Descriptor.isReadable_merge laidOut made lossless
    (Descriptor.excludes_ofElement name root)
  obtain ⟨content, found, saved, readBack, same⟩ :=
    ((Descriptor.ofElement name root).merge generated).exists_read_back isTree isModule
      isAccepted (legible root isTree) values isReadable savedPath
  exact ⟨content, found, saved, readBack, same, Descriptor.orderEntries_of_withoutTree same⟩

/-- The placeholder, the other module and the foreign child are saved and read back. -/
theorem dependent_module_is_read_back :
    let merged := (Descriptor.ofElement (.str "a") foreignRoot).merge
      (dependentDescriptor (.str "17") (some "1"))
    ∃ content found, merged.write.2 = .ok content ∧
      Descriptor.ofText ⟨.relative, ["a.iml"], by decide⟩ merged.name content = .ok found ∧
      found.withoutTree = merged.withoutTree ∧ found.orderEntries = merged.orderEntries := by
  obtain ⟨lines, made⟩ := generate_dependent (.str "17") (.inl rfl)
  refine merged_descriptor_is_read_back (ofText_foreign ⟨.relative, ["a.iml"], by decide⟩) ?_
    (layout_dependent _) made lossless_dependent _
  intro root isTree
  rw [Descriptor.tree_ofElement] at isTree
  obtain rfl := Option.some.inj isTree
  exact plainNames_foreignRoot

/-! ## What is not read back -/

/-- A document of Latin characters, with a letter in a name that other documents do not allow
there. -/
def latinText : String :=
  "<?xml version=\"1.0\" encoding=\"ISO-8859-1\"?><module><aª/></module>"

def latinRoot : Element :=
  (Element.make "module" []).withChildren [Element.make "aÂª" []]

theorem readDocument_latin : readDocument true latinText = .ok latinRoot := by
  rw [readDocument_eq_readChars]
  decide +kernel

/-- No other document may hold a child of that name. -/
theorem not_plainNames_of_latin {root : Element}
    (isChild : Node.ofElement (Element.make "aÂª" []) "" ∈ root.children) :
    ¬root.Meets plainNames := by
  intro plain
  have notPlain : isNamePart false "aÂª".toList = false := by decide +kernel
  have child := (meets_ofElement.mp ((Element.meets_iff.mp plain).2.2 _ isChild)).1
  exact Bool.false_ne_true (notPlain.symm.trans (Element.meets_iff.mp child).1.1)

/-- A text is merged with the generated descriptor of a dependent module and saved. -/
def IsSaved (text : String) (jdkName : Json.Value) (version : Option String)
    (merged : Descriptor) (content : String) : Prop :=
  ∃ persisted generated lines, Descriptor.ofText ⟨.relative, ["a.iml"], by decide⟩ (.str "a") text =
      .ok persisted ∧
    Descriptor.generate (dependentSettings jdkName version) dependentAnchors ⟨none, false⟩
      dependentLayout = .ok (generated, lines) ∧
    merged = persisted.merge generated ∧ merged.write.2 = .ok content

section Saved

variable {jdkName : Json.Value} {version : Option String} {root : Element}

def dependentMerged (jdkName : Json.Value) (version : Option String) (root : Element) :
    Descriptor :=
  (Descriptor.ofElement (.str "a") root).merge (dependentDescriptor jdkName version)

theorem tree_dependentMerged : (dependentMerged jdkName version root).tree = some root :=
  Descriptor.tree_ofElement (.str "a") root

theorem isSaved_dependentMerged {text content : String}
    (known : version = some "1" ∨ version = some "")
    (read : readDocument true text = .ok root) (isModule : root.name = Name.plain "module")
    (written : (dependentMerged jdkName version root).write.2 = .ok content) :
    IsSaved text jdkName version (dependentMerged jdkName version root) content := by
  obtain ⟨lines, made⟩ := generate_dependent jdkName known
  refine ⟨Descriptor.ofElement (.str "a") root, dependentDescriptor jdkName version, lines, ?_,
    made, rfl, written⟩
  rw [Descriptor.ofText, read]
  exact if_pos isModule

/-- A name that only documents of Latin characters allow is written, but not read again. -/
theorem latin_name_is_not_read_back :
    ∃ merged content, IsSaved latinText (.str "17") (some "1") merged content ∧
      ∀ path found, Descriptor.ofText path (.str "a") content ≠ .ok found := by
  have isSound := (accepted_of_readDocument readDocument_latin).ofBoth.1
  have isText : (dependentMerged (.str "17") (some "1") latinRoot).jdkName = .null ∨
      ∃ name, (dependentMerged (.str "17") (some "1") latinRoot).jdkName = .str name ∧
        name ≠ "" := .inr ⟨"17", rfl, by decide⟩
  have written := Descriptor.write_eq_document _ isText tree_dependentMerged isSound
  refine ⟨_, _, isSaved_dependentMerged (.inl rfl) readDocument_latin rfl written, ?_⟩
  intro path found reread
  have plain := Descriptor.plainNames_of_reread _ isText tree_dependentMerged isSound written
    reread
  have isChild : Node.ofElement (Element.make "aÂª" []) "" ∈
      ((dependentMerged (.str "17") (some "1") latinRoot).writeTo latinRoot).children := by
    decide +kernel
  exact not_plainNames_of_latin isChild plain

theorem hasOnly_dependentMerged {text found : String} (jdk : HasOnly isXmlChar text)
    (isFound : HasOnly isXmlChar found) :
    (dependentMerged (.str text) (some found) foreignRoot).HasOnly isXmlChar := by
  refine Descriptor.hasOnly_merge ?_ (hasOnly_dependent jdk isFound) rfl
  have noExcludes : (Descriptor.ofElement (.str "a") foreignRoot).excludes = [] := by rfl
  rw [noExcludes]
  simp

/-- An empty version is read again as none. -/
theorem empty_version_is_not_read_back :
    ∃ merged content found, IsSaved foreignText (.str "17") (some "") merged content ∧
      Descriptor.ofText ⟨.relative, ["a.iml"], by decide⟩ (.str "a") content = .ok found ∧
      found.scopes = dependentLibraries none ∧ merged.scopes = dependentLibraries (some "") := by
  have isRead := accepted_of_readDocument readDocument_foreign
  obtain ⟨content, found, written, reread, same⟩ :=
    Descriptor.exists_reread (dependentMerged (.str "17") (some "") foreignRoot)
      (.inr ⟨"17", rfl, by decide⟩) tree_dependentMerged rfl isRead plainNames_foreignRoot
      (hasOnly_dependentMerged rfl rfl) ⟨.relative, ["a.iml"], by decide⟩
  refine ⟨_, content, found, isSaved_dependentMerged (.inr rfl) readDocument_foreign rfl written,
    reread, ?_, rfl⟩
  have scopes := congrArg Descriptor.scopes same
  refine scopes.trans ?_
  show (Descriptor.ofElement _ _).scopes = _
  decide +kernel

/-- A development kit that is no text is read again as the text that shows it. -/
theorem list_is_not_read_back :
    ∃ merged content found, IsSaved foreignText (.arr [.str "17"]) (some "1") merged content ∧
      Descriptor.ofText ⟨.relative, ["a.iml"], by decide⟩ (.str "a") content = .ok found ∧
      merged.jdkName = .arr [.str "17"] ∧ found.jdkName ≠ .arr [.str "17"] := by
  have isRead := accepted_of_readDocument readDocument_foreign
  have isShown : jdkAttribute (.arr [.str "17"]) = .verbatim "['17']" := by
    have shown : (Json.Value.arr [.str "17"]).display = "['17']" := by decide +kernel
    rw [jdkAttribute, shown]
    rfl
  have asText : (dependentMerged (.arr [.str "17"]) (some "1") foreignRoot).asText =
      dependentMerged (.str "['17']") (some "1") foreignRoot := by
    have sameText : jdkText (.arr [.str "17"]) = .str "['17']" := by
      rw [jdkText, isShown]
      rfl
    rw [dependentMerged, Descriptor.asText]
    show ({ dependentMerged (.arr [.str "17"]) (some "1") foreignRoot with
      jdkName := jdkText (.arr [.str "17"]) } : Descriptor) = _
    rw [sameText]
    rfl
  have plain : IsPlainlyWritten (.arr [.str "17"]) := by
    intro content written
    rw [isShown] at written
    obtain rfl := AttributeValue.verbatim.inj written
    decide +kernel
  have hasForm : ((dependentMerged (.arr [.str "17"]) (some "1") foreignRoot).writeTo
      foreignRoot).indent.isWritable = true := by decide +kernel
  obtain ⟨content, found, written, reread, _⟩ :=
    Descriptor.exists_reread (dependentMerged (.str "['17']") (some "1") foreignRoot)
      (.inr ⟨"['17']", rfl, by decide⟩) tree_dependentMerged rfl isRead plainNames_foreignRoot
      (hasOnly_dependentMerged rfl rfl) ⟨.relative, ["a.iml"], by decide⟩
  rw [← asText, ← Descriptor.write_asText _ tree_dependentMerged isRead.ofBoth.1 plain hasForm]
    at written
  refine ⟨_, content, found, isSaved_dependentMerged (.inl rfl) readDocument_foreign rfl written,
    reread, rfl, ?_⟩
  obtain ⟨root, _, _, rfl⟩ := Descriptor.ofText_eq_ok reread
  rcases Descriptor.jdkName_ofElement _ root with isNull | ⟨text, isText⟩
  · rw [isNull]
    simp
  · rw [isText]
    simp

end Saved

/-- What is saved is not always read back: a name of a document of Latin characters, an empty
version and a development kit that is no text are not. -/
theorem saved_descriptors_may_differ :
    (∃ merged content, IsSaved latinText (.str "17") (some "1") merged content ∧
      ∀ path found, Descriptor.ofText path (.str "a") content ≠ .ok found) ∧
    (∃ merged content found, IsSaved foreignText (.str "17") (some "") merged content ∧
      Descriptor.ofText ⟨.relative, ["a.iml"], by decide⟩ (.str "a") content = .ok found ∧
      found.scopes = dependentLibraries none ∧ merged.scopes = dependentLibraries (some "")) ∧
    ∃ merged content found, IsSaved foreignText (.arr [.str "17"]) (some "1") merged content ∧
      Descriptor.ofText ⟨.relative, ["a.iml"], by decide⟩ (.str "a") content = .ok found ∧
      merged.jdkName = .arr [.str "17"] ∧ found.jdkName ≠ .arr [.str "17"] :=
  ⟨latin_name_is_not_read_back, empty_version_is_not_read_back, list_is_not_read_back⟩

end IdeModules
