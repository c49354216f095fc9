import IdeModules.Proofs.Descriptor.Generated
import IdeModules.Proofs.Descriptor.Saving

/-!
# Merged descriptors

A merged descriptor has the excluded folders of both sides, each once.  Merging
the same side again adds none, also after the descriptor has been written into
its tree.
-/

namespace IdeModules

open Xml

/-! ## Excluded folders -/

theorem nodup_mergedExcludes {persisted generated : List String} (persistedNodup : persisted.Nodup)
    (generatedNodup : generated.Nodup) :
    (Descriptor.mergedExcludes persisted generated).Nodup := by
  refine List.nodup_append.mpr ⟨persistedNodup, generatedNodup.filter _, ?_⟩
  rintro url known _ member rfl
  exact of_decide_eq_true (List.mem_filter.mp member).2 known

theorem mergedExcludes_mergedExcludes (persisted generated : List String) :
    Descriptor.mergedExcludes (Descriptor.mergedExcludes persisted generated) generated =
      Descriptor.mergedExcludes persisted generated := by
  have noneNew : generated.filter
      (· ∉ Descriptor.mergedExcludes persisted generated) = [] := by
    rw [List.filter_eq_nil_iff]
    intro url member
    by_cases known : url ∈ persisted
    · simp [Descriptor.mergedExcludes, known]
    · simp [Descriptor.mergedExcludes, known, member]
  rw [Descriptor.mergedExcludes, noneNew, List.append_nil]

/-! ## Descriptors of documents -/

section Rules

variable {rules : TreeRules} {element : Element}

theorem meets_of_mem_childrenNamed (meets : element.Meets rules) {tag : String} {child : Element}
    (member : child ∈ element.childrenNamed tag) : child.Meets rules := by
  obtain ⟨node, isChild, isElement⟩ := List.mem_filterMap.mp member
  exact Descriptor.meets_of_element?
    ((Element.meets_iff.mp meets).2.2 node (List.mem_filter.mp isChild).1) isElement

theorem meets_of_component? (meets : element.Meets rules) {name : String} {component : Element}
    (found : component? element name = some component) : component.Meets rules := by
  obtain ⟨node, isChild, isElement⟩ := Option.bind_eq_some_iff.mp found
  exact Descriptor.meets_of_element?
    ((Element.meets_iff.mp meets).2.2 node (List.mem_of_find?_eq_some isChild)) isElement

theorem hasOnly_attribute? (isRead : element.Meets accepted) {name value : String}
    (found : element.attribute? name = some value) : HasOnly isXmlChar value := by
  unfold Element.attribute? at found
  split at found
  · rename_i content isText
    obtain rfl := Option.some.inj found
    exact (Element.meets_iff.mp isRead).1.2 _ (Keyed.mem_of_get? isText)
  · simp at found

end Rules

namespace Descriptor

theorem ofText_eq_ok {path : Path} {name : Json.Value} {text : String} {persisted : Descriptor}
    (read : ofText path name text = .ok persisted) :
    ∃ root, readDocument true text = .ok root ∧ root.name = Name.plain "module" ∧
      persisted = ofElement name root := by
  unfold ofText at read
  split at read
  · simp at read
  · simp at read
  · rename_i root isRead
    split at read
    · rename_i isModule
      exact ⟨root, isRead, isModule, (Except.ok.inj read).symm⟩
    · simp at read

def excludes (descriptor : Descriptor) : List String :=
  (descriptor.root.map ContentRoot.excludedFolders).getD []

theorem excludes_ofElement (name : Json.Value) (root : Element) :
    (ofElement name root).excludes.Nodup := by
  unfold ofElement
  split
  · exact List.nodup_nil
  · rename_i component _
    simp only [ofComponent, excludes, Option.map_map]
    cases component.child? "content" with
    | none => exact List.nodup_nil
    | some content => exact nodup_distinct _

theorem hasOnly_excludes_ofElement {root : Element} (isRead : root.Meets accepted)
    (name : Json.Value) :
    ∀ url ∈ (ofElement name root).excludes, IdeModules.HasOnly isXmlChar url := by
  unfold ofElement
  split
  · simp [excludes, ofName]
  · rename_i component found
    simp only [ofComponent, excludes, Option.map_map]
    cases isContent : component.child? "content" with
    | none => simp
    | some content =>
        have contentRead := meets_of_mem_childrenNamed (meets_of_component? isRead found)
          (List.mem_of_mem_head? isContent)
        intro url member
        obtain ⟨folder, isFolder, rfl⟩ := List.mem_map.mp (mem_distinct.mp member)
        cases value : folder.attribute? "url" with
        | none => rfl
        | some known =>
            exact hasOnly_attribute? (meets_of_mem_childrenNamed contentRead isFolder) value

/-! ## Merging -/

variable {persisted generated : Descriptor}

theorem root_merge {content : ContentRoot} (isRoot : generated.root = some content) :
    (persisted.merge generated).root = some { content with
      excludedFolders := mergedExcludes persisted.excludes content.excludedFolders } := by
  rw [merge, isRoot]
  rfl

theorem hasOnly_merge (persistedOnly : ∀ url ∈ persisted.excludes,
      IdeModules.HasOnly isXmlChar url)
    (generatedOnly : generated.HasOnly isXmlChar) {content : ContentRoot}
    (isRoot : generated.root = some content) :
    (persisted.merge generated).HasOnly isXmlChar := by
  refine ⟨?_, generatedOnly.outputUrl, generatedOnly.testOutputUrl, generatedOnly.jdkName,
    generatedOnly.languageLevel, generatedOnly.libraries⟩
  intro root found
  obtain rfl := Option.some.inj ((root_merge isRoot).symm.trans found)
  obtain ⟨url, sources, excluded⟩ := generatedOnly.root content isRoot
  refine ⟨url, sources, List.forall_mem_append.mpr ⟨persistedOnly, ?_⟩⟩
  exact fun other member => excluded other (List.mem_filter.mp member).1

/-! ## Merging again -/

section Again

variable {left right : Descriptor} {content : ContentRoot}

theorem excludes_of_withoutTree (same : left.withoutTree = right.withoutTree) :
    left.excludes = right.excludes := by
  show left.withoutTree.excludes = right.withoutTree.excludes
  rw [same]

theorem writeTo_of_withoutTree (same : left.withoutTree = right.withoutTree) (root : Element) :
    left.asText.writeTo root = right.asText.writeTo root := by
  show left.withoutTree.asText.writeTo root = right.withoutTree.asText.writeTo root
  rw [same]

theorem excludes_merge (isRoot : generated.root = some content) :
    (persisted.merge generated).excludes =
      mergedExcludes persisted.excludes content.excludedFolders := by
  rw [excludes, root_merge isRoot]
  rfl

theorem withoutTree_merge (isRoot : generated.root = some content)
    (same : mergedExcludes left.excludes content.excludedFolders =
      mergedExcludes right.excludes content.excludedFolders) :
    (left.merge generated).withoutTree = (right.merge generated).withoutTree := by
  have roots : (left.merge generated).root = (right.merge generated).root := by
    rw [root_merge isRoot, root_merge isRoot, same]
  have parts : ∀ side : Descriptor, (side.merge generated).withoutTree =
      { generated.withoutTree with root := (side.merge generated).root } := fun _ => rfl
  rw [parts, parts, roots]

/-- The excluded folders of a written tree are those of the descriptor. -/
theorem excludes_ofElement_written (nodup : persisted.excludes.Nodup) (name : Json.Value)
    (root : Element) :
    (ofElement name (persisted.asText.writeTo root).indent).excludes = persisted.excludes := by
  have written := persisted.asText.root_ofElement_writeTo name root
  have isRoot : persisted.asText.root = persisted.root := rfl
  rw [excludes_of_withoutTree (withoutTree_ofElement (Element.change_indent_withoutTexts _) name)]
  unfold excludes at nodup ⊢
  rw [written, isRoot]
  cases held : persisted.root with
  | none => rfl
  | some root =>
      rw [held] at nodup
      exact distinct_of_nodup nodup

/-- Merging the same descriptor into the tree that it was written to gives the same state. -/
theorem withoutTree_merge_written (isRoot : generated.root = some content)
    (persistedNodup : persisted.excludes.Nodup) (generatedNodup : content.excludedFolders.Nodup)
    (name : Json.Value) (root : Element) :
    ((ofElement name ((persisted.merge generated).asText.writeTo root).indent).merge
        generated).withoutTree =
      (persisted.merge generated).withoutTree := by
  have merged : (persisted.merge generated).excludes =
      mergedExcludes persisted.excludes content.excludedFolders := excludes_merge isRoot
  have nodup : (persisted.merge generated).excludes.Nodup := by
    rw [merged]
    exact nodup_mergedExcludes persistedNodup generatedNodup
  apply withoutTree_merge isRoot
  rw [excludes_ofElement_written nodup, merged, mergedExcludes_mergedExcludes]

/-- Merging and writing the same descriptor again leaves the indented tree. -/
theorem indent_writeTo_merge_written (isRoot : generated.root = some content)
    (persistedNodup : persisted.excludes.Nodup) (generatedNodup : content.excludedFolders.Nodup)
    (name : Json.Value) (root : Element) :
    let written := ((persisted.merge generated).asText.writeTo root).indent
    (((ofElement name written).merge generated).asText.writeTo written).indent = written := by
  intro written
  rw [writeTo_of_withoutTree (withoutTree_merge_written isRoot persistedNodup generatedNodup
    name root)]
  exact (persisted.merge generated).asText.indent_writeTo_indent_writeTo root

end Again

end Descriptor

end IdeModules
