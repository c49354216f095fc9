import IdeModules.Descriptor.Writing
import IdeModules.Proofs.Xml.Printing

/-!
# Elements that a descriptor makes

The elements that writing makes anew have plain names and text attributes, and no
text.  Their values hold only characters of the descriptor and of a few fixed
words, so a property of the characters of the descriptor is one of its elements.
-/

namespace IdeModules

open Xml

/-- Whether a text holds nothing but characters of some kind. -/
def HasOnly (allowed : Char → Bool) (text : String) : Prop :=
  text.toList.all allowed = true

/-- Whether a plain name may be that of an attribute in every document. -/
def isAttributeWord (word : String) : Bool :=
  isNamePart false word.toList && word != "xmlns"

/-- Whether plain names may be those of a tag and of its attributes in every document. -/
def areTagWords (tag : String) (words : List String) : Bool :=
  isNamePart false tag.toList && words.all isAttributeWord && decide words.Nodup

/-- The rules of the elements that are made anew, with values of some characters. -/
def made (allowed : Char → Bool) : TreeRules where
  tag name attributes := ∃ (tag : String) (entries : List (String × String)),
    name = Name.plain tag ∧
    attributes = entries.map (fun entry => (Name.plain entry.1, AttributeValue.text entry.2)) ∧
    areTagWords tag (entries.map Prod.fst) = true ∧ ∀ entry ∈ entries, HasOnly allowed entry.2
  text content := content = ""
  comment _ := False

section Made

variable {allowed : Char → Bool}

/-! ## Made elements and the other rules -/

theorem sound_plain {word : String} (isPart : isNamePart false word.toList = true) :
    (Name.plain word).Sound :=
  ⟨isNamePart_true isPart, by simp [Name.plain]⟩

theorem plain_injective {word other : String} (same : Name.plain word = Name.plain other) :
    word = other :=
  congrArg Name.localPart same

theorem keys_texts (entries : List (String × String)) :
    Keyed.keys (entries.map fun entry => (Name.plain entry.1, AttributeValue.text entry.2)) =
      (entries.map Prod.fst).map Name.plain := by
  simp [Keyed.keys]

/-- The words of a tag are names, and those of its attributes are different and declare nothing. -/
theorem words_of_areTagWords {tag : String} {words : List String}
    (areWords : areTagWords tag words = true) :
    isNamePart false tag.toList = true ∧ words.Nodup ∧
      ∀ word ∈ words, isNamePart false word.toList = true ∧ word ≠ "xmlns" := by
  simp only [areTagWords, isAttributeWord, Bool.and_eq_true, List.all_eq_true, bne_iff_ne,
    decide_eq_true_eq] at areWords
  exact ⟨areWords.1.1, areWords.2, areWords.1.2⟩

theorem sound_of_made {node : Node} (isMade : node.Meets (made allowed)) : node.Meets sound := by
  refine isMade.imp ?_ ?_ ?_
  · rintro _ _ ⟨tag, entries, rfl, rfl, areWords, _⟩
    obtain ⟨tagPart, nodup, words⟩ := words_of_areTagWords areWords
    refine ⟨sound_plain tagPart, ?_, ?_⟩
    · rw [keys_texts]
      exact nodup.map fun word other same => plain_injective same
    · intro written member
      obtain ⟨entry, known, rfl⟩ := List.mem_map.mp member
      obtain ⟨isPart, notDeclaring⟩ := words entry.1 (List.mem_map_of_mem known)
      exact ⟨sound_plain isPart, fun same => notDeclaring (plain_injective same), trivial⟩
  · rintro _ rfl
    rfl
  · exact fun _ impossible => impossible.elim

theorem plainNames_of_made {node : Node} (isMade : node.Meets (made allowed)) :
    node.Meets plainNames := by
  refine isMade.imp ?_ (fun _ _ => trivial) fun _ _ => trivial
  rintro _ _ ⟨tag, entries, rfl, rfl, areWords, _⟩
  obtain ⟨tagPart, _, words⟩ := words_of_areTagWords areWords
  refine ⟨tagPart, ?_⟩
  intro written member
  obtain ⟨entry, known, rfl⟩ := List.mem_map.mp member
  exact (words entry.1 (List.mem_map_of_mem known)).1

theorem admittedValues_of_made {node : Node} (isMade : node.Meets (made isXmlChar)) :
    node.Meets admittedValues := by
  refine isMade.imp ?_ (fun _ _ => trivial) fun _ _ => trivial
  rintro _ _ ⟨tag, entries, rfl, rfl, _, admitted⟩ written member
  obtain ⟨entry, known, rfl⟩ := List.mem_map.mp member
  exact admitted entry known

/-! ## Making elements -/

theorem made_make {tag : String} {entries : List (String × String)} (words : List String)
    (areWords : areTagWords tag words = true) (keys : entries.map Prod.fst = words)
    (values : ∀ entry ∈ entries, HasOnly allowed entry.2) :
    (Element.make tag entries).Meets (made allowed) :=
  Element.meets_iff.mpr
    ⟨⟨tag, entries, rfl, rfl, keys ▸ areWords, values⟩, rfl, by simp [Element.make]⟩

theorem made_ofElement {element : Element} (isMade : element.Meets (made allowed)) :
    (Node.ofElement element "").Meets (made allowed) :=
  meets_ofElement.mpr ⟨isMade, rfl⟩

theorem made_withChildren {element : Element} {children : List Element}
    (isMade : element.Meets (made allowed))
    (childrenMade : ∀ child ∈ children, child.Meets (made allowed)) :
    (element.withChildren children).Meets (made allowed) := by
  obtain ⟨tagMade, textMade, _⟩ := Element.meets_iff.mp isMade
  refine Element.meets_iff.mpr ⟨tagMade, textMade, ?_⟩
  intro node member
  obtain ⟨child, known, rfl⟩ := List.mem_map.mp member
  exact made_ofElement (childrenMade child known)

theorem made_append {element child : Element} (isMade : element.Meets (made allowed))
    (childMade : child.Meets (made allowed)) : (element.append child).Meets (made allowed) := by
  obtain ⟨tagMade, textMade, childrenMade⟩ := Element.meets_iff.mp isMade
  refine Element.meets_iff.mpr ⟨tagMade, textMade, ?_⟩
  rw [Element.append, List.forall_mem_append, List.forall_mem_singleton]
  exact ⟨childrenMade, made_ofElement childMade⟩

end Made

/-! ## Characters of a descriptor -/

def Library.HasOnly (allowed : Char → Bool) : Library → Prop
  | .files scope classes javadoc sources =>
    IdeModules.HasOnly allowed scope ∧ (∀ url ∈ classes, IdeModules.HasOnly allowed url) ∧
      (∀ url ∈ javadoc, IdeModules.HasOnly allowed url) ∧
      ∀ url ∈ sources, IdeModules.HasOnly allowed url
  | .unresolved scope group name version =>
    IdeModules.HasOnly allowed scope ∧ IdeModules.HasOnly allowed group ∧
      IdeModules.HasOnly allowed name ∧ ∀ found, version = some found →
        IdeModules.HasOnly allowed found
  | .otherModule scope name => IdeModules.HasOnly allowed scope ∧ IdeModules.HasOnly allowed name

/-- Whether a content root is described by characters of some kind. -/
structure ContentRoot.HasOnly (allowed : Char → Bool) (root : ContentRoot) : Prop where
  url : IdeModules.HasOnly allowed root.url
  sourceFolders : ∀ folder ∈ root.sourceFolders, IdeModules.HasOnly allowed folder.url
  excludedFolders : ∀ url ∈ root.excludedFolders, IdeModules.HasOnly allowed url

/-- Whether everything that a descriptor writes is made of characters of some kind; the development
kit, if it names one, is a text. -/
structure Descriptor.HasOnly (allowed : Char → Bool) (descriptor : Descriptor) : Prop where
  root : ∀ root, descriptor.root = some root → root.HasOnly allowed
  outputUrl : ∀ url, descriptor.outputUrl = some url → IdeModules.HasOnly allowed url
  testOutputUrl : ∀ url, descriptor.testOutputUrl = some url → IdeModules.HasOnly allowed url
  jdkName : descriptor.jdkName.isEmpty = true ∨
    ∃ name, descriptor.jdkName = .str name ∧ IdeModules.HasOnly allowed name
  languageLevel : ∀ level, descriptor.languageLevel = some level →
    IdeModules.HasOnly allowed level
  libraries : ∀ library ∈ descriptor.libraries, library.HasOnly allowed

theorem isEmpty_str (content : String) :
    (Json.Value.str content).isEmpty = true ↔ content = "" := by
  simp [Json.Value.isEmpty]

/-- The element of a development kit whose name is a text. -/
theorem Descriptor.jdkElement_of_str (descriptor : Descriptor) {name : String}
    (nonempty : name ≠ "") :
    ({ descriptor with jdkName := .str name } : Descriptor).jdkElement =
      Element.make "orderEntry"
        [("type", "jdk"), ("jdkName", name), ("jdkType", "JavaSDK")] := by
  have named : ¬(Json.Value.str name).isEmpty = true := fun empty =>
    nonempty ((isEmpty_str name).mp empty)
  rw [jdkElement, if_neg named]
  rfl

/-- Whether a character is a printable one of ASCII. -/
def isPrintableAscii (c : Char) : Bool :=
  0x20 ≤ c.toNat && c.toNat < 0x7f

section Elements

variable {allowed : Char → Bool}

theorem made_rootGroup {kind : String} (word : areTagWords kind [] = true) {urls : List String}
    (values : ∀ url ∈ urls, HasOnly allowed url) :
    (rootGroup kind urls).Meets (made allowed) := by
  refine made_withChildren (made_make [] word rfl (by simp)) ?_
  intro child member
  obtain ⟨url, known, rfl⟩ := List.mem_map.mp member
  exact made_make ["url"] (by decide) rfl (by simpa using values url known)

theorem made_rootGroups {classes javadoc sources : List String}
    (classesOnly : ∀ url ∈ classes, HasOnly allowed url)
    (javadocOnly : ∀ url ∈ javadoc, HasOnly allowed url)
    (sourcesOnly : ∀ url ∈ sources, HasOnly allowed url) :
    ∀ group ∈ rootGroups classes javadoc sources, group.Meets (made allowed) := by
  simp only [rootGroups, List.forall_mem_cons]
  exact ⟨made_rootGroup (by decide) classesOnly, made_rootGroup (by decide) javadocOnly,
    made_rootGroup (by decide) sourcesOnly, by simp⟩

theorem hasOnly_append {front back : String} (frontOnly : HasOnly allowed front)
    (backOnly : HasOnly allowed back) : HasOnly allowed (front ++ back) := by
  rw [HasOnly] at *
  rw [String.toList_append, List.all_append, frontOnly, backOnly]
  rfl

theorem made_orderEntry {kind scope : String} (kindOnly : HasOnly allowed kind)
    (scopeOnly : HasOnly allowed scope) (extra : List (String × String))
    (extraKeys : extra = [] ∨ ∃ name, extra = [("module-name", name)] ∧ HasOnly allowed name) :
    (Element.make "orderEntry" ([("type", kind)] ++ extra ++ scopeAttribute scope)).Meets
      (made allowed) := by
  unfold scopeAttribute
  rcases extraKeys with rfl | ⟨name, rfl, nameOnly⟩
  · split
    · exact made_make ["type"] (by decide) rfl (by simpa using kindOnly)
    · exact made_make ["type", "scope"] (by decide) rfl (by simpa using ⟨kindOnly, scopeOnly⟩)
  · split
    · exact made_make ["type", "module-name"] (by decide) rfl
        (by simpa using ⟨kindOnly, nameOnly⟩)
    · exact made_make ["type", "module-name", "scope"] (by decide) rfl
        (by simpa using ⟨kindOnly, nameOnly, scopeOnly⟩)

theorem made_outputElements {descriptor : Descriptor} (only : descriptor.HasOnly allowed) :
    ∀ element ∈ descriptor.outputElements, element.Meets (made allowed) := by
  have output : ∀ (tag : String) (url : Option String), areTagWords tag ["url"] = true →
      (∀ found, url = some found → HasOnly allowed found) →
      ∀ element ∈ Descriptor.outputElements.outputElement tag url,
        element.Meets (made allowed) := by
    intro tag url words urlOnly element member
    obtain ⟨found, kept, rfl⟩ := Option.map_eq_some_iff.mp (Option.mem_toList.mp member)
    have isUrl : url = some found := (Option.filter_eq_some_iff.mp kept).1
    exact made_make ["url"] words rfl (by simpa using urlOnly found isUrl)
  unfold Descriptor.outputElements
  split
  · simp
  · rw [List.forall_mem_append]
    exact ⟨output "output" _ (by decide) only.outputUrl,
      output "output-test" _ (by decide) only.testOutputUrl⟩

variable (ascii : ∀ c, isPrintableAscii c = true → allowed c = true)

include ascii

theorem hasOnly_of_ascii {text : String} (printable : text.toList.all isPrintableAscii = true) :
    HasOnly allowed text := by
  rw [HasOnly, List.all_eq_true] at *
  exact fun c member => ascii c (printable c member)

theorem hasOnly_truthText (value : Bool) : HasOnly allowed (truthText value) := by
  cases value with
  | false => exact hasOnly_of_ascii ascii (by decide)
  | true => exact hasOnly_of_ascii ascii (by decide)

theorem hasOnly_placeholderName {group name : String} {version : Option String}
    (groupOnly : HasOnly allowed group) (nameOnly : HasOnly allowed name)
    (versionOnly : ∀ found, version = some found → HasOnly allowed found) :
    HasOnly allowed (Library.placeholderName group name version) := by
  have mark : HasOnly allowed placeholderMark := hasOnly_of_ascii ascii (by decide)
  have blank : HasOnly allowed " " := hasOnly_of_ascii ascii (by decide)
  have first := hasOnly_append (hasOnly_append groupOnly blank) nameOnly
  rw [Library.placeholderName]
  cases kept : version.filter (· ≠ "") with
  | none => exact hasOnly_append mark first
  | some found =>
      have isVersion : version = some found := (Option.filter_eq_some_iff.mp kept).1
      exact hasOnly_append mark (hasOnly_append (hasOnly_append first blank)
        (versionOnly found isVersion))

theorem made_library {library : Library} (only : library.HasOnly allowed) :
    library.element.Meets (made allowed) := by
  have ownKind : HasOnly allowed "module-library" := hasOnly_of_ascii ascii (by decide)
  cases library with
  | files scope classes javadoc sources =>
      obtain ⟨scopeOnly, classesOnly, javadocOnly, sourcesOnly⟩ := only
      exact made_append (made_orderEntry ownKind scopeOnly [] (.inl rfl))
        (made_withChildren (made_make [] (by decide) rfl (by simp))
          (made_rootGroups classesOnly javadocOnly sourcesOnly))
  | unresolved scope group name version =>
      obtain ⟨scopeOnly, groupOnly, nameOnly, versionOnly⟩ := only
      have placeholder := hasOnly_placeholderName ascii groupOnly nameOnly versionOnly
      exact made_append (made_orderEntry ownKind scopeOnly [] (.inl rfl))
        (made_withChildren (made_make ["name"] (by decide) rfl (by simpa using placeholder))
          (made_rootGroups (by simp) (by simp) (by simp)))
  | otherModule scope name =>
      exact made_orderEntry (hasOnly_of_ascii ascii (by decide)) only.1
        [("module-name", name)] (.inr ⟨name, rfl, only.2⟩)

theorem made_folders {root : ContentRoot} (only : root.HasOnly allowed) :
    ∀ folder ∈ root.folders, folder.Meets (made allowed) := by
  intro element member
  rcases List.mem_append.mp member with isSource | isExcluded
  · obtain ⟨folder, known, rfl⟩ := List.mem_map.mp isSource
    refine made_make ["url", "isTestSource"] (by decide) rfl ?_
    simpa using ⟨only.sourceFolders folder known, hasOnly_truthText ascii folder.isTest⟩
  · obtain ⟨url, known, rfl⟩ := List.mem_map.mp isExcluded
    exact made_make ["url"] (by decide) rfl (by simpa using only.excludedFolders url known)

theorem made_jdkElement {descriptor : Descriptor} (only : descriptor.HasOnly allowed) :
    descriptor.jdkElement.Meets (made allowed) := by
  unfold Descriptor.jdkElement
  split
  · refine made_make ["type"] (by decide) rfl ?_
    simpa using hasOnly_of_ascii ascii (by decide : "inheritedJdk".toList.all _ = true)
  · rename_i named
    obtain ⟨name, isText, nameOnly⟩ := only.jdkName.resolve_left named
    have kind : HasOnly allowed "jdk" := hasOnly_of_ascii ascii (by decide)
    have kit : HasOnly allowed "JavaSDK" := hasOnly_of_ascii ascii (by decide)
    have written : { Element.make "orderEntry" [] with
          attributes :=
            [(Name.plain "type", .text "jdk"),
              (Name.plain "jdkName", jdkAttribute descriptor.jdkName),
              (Name.plain "jdkType", .text "JavaSDK")] } =
        Element.make "orderEntry"
          [("type", "jdk"), ("jdkName", name), ("jdkType", "JavaSDK")] := by
      rw [isText]
      rfl
    rw [written]
    exact made_make ["type", "jdkName", "jdkType"] (by decide) rfl
      (by simpa using ⟨kind, nameOnly, kit⟩)

theorem made_orderElements {descriptor : Descriptor} (only : descriptor.HasOnly allowed) :
    ∀ element ∈ descriptor.orderElements, element.Meets (made allowed) := by
  have kind : HasOnly allowed "sourceFolder" := hasOnly_of_ascii ascii (by decide)
  have forTests : HasOnly allowed "false" := hasOnly_of_ascii ascii (by decide)
  rw [Descriptor.orderElements, List.forall_mem_append]
  simp only [List.forall_mem_cons, List.forall_mem_map]
  refine ⟨⟨made_jdkElement ascii only, ?_, by simp⟩, fun library member =>
    made_library ascii (only.libraries library member)⟩
  exact made_make ["type", "forTests"] (by decide) rfl (by simpa using ⟨kind, forTests⟩)

end Elements

end IdeModules
