import IdeModules.Descriptor.Merging
import IdeModules.Proofs.Classification
import IdeModules.Proofs.Descriptor.RoundTrip

/-!
# Generated descriptors

Every library of a generated descriptor stands under its scope, no scope is
empty, and the scopes come in the order in which they are read.  URLs are never
empty, and no folder stands twice, also after merging.
-/

namespace IdeModules

/-! ## URLs -/

theorem schemed_ne_empty (first : Char) (scheme rest : String) :
    String.ofList (first :: scheme.toList) ++ rest ≠ "" := by
  intro empty
  simpa using congrArg String.toList empty

theorem fileUrl_ne_empty (anchors : PathVariables) (path : Option Path) :
    anchors.fileUrl path ≠ "" :=
  schemed_ne_empty 'f' "ile://" _

theorem libraryUrl_ne_empty (anchors : PathVariables) (path : Path) :
    anchors.libraryUrl path ≠ "" := by
  unfold PathVariables.libraryUrl
  split
  · rw [String.append_assoc]
    exact schemed_ne_empty 'j' "ar://" _
  · exact fileUrl_ne_empty anchors _

/-! ## Libraries -/

/-- Whether the roots of a library have URLs. -/
def Library.HasUrls : Library → Prop
  | .files _ classes javadoc sources =>
    (∀ url ∈ classes, url ≠ "") ∧ (∀ url ∈ javadoc, url ≠ "") ∧ ∀ url ∈ sources, url ≠ ""
  | .unresolved .. => True
  | .otherModule .. => True

/-- Whether libraries stand under their scopes, of which none is empty. -/
structure Gathered (scopes : ScopedLibraries) : Prop where
  nodup : (Keyed.keys scopes).Nodup
  own : ∀ entry ∈ scopes, entry.2 ≠ [] ∧
    ∀ library ∈ entry.2, library.scope = entry.1 ∧ library.HasUrls

theorem attachmentUrls_ne_empty (anchors : PathVariables) (wanted : Bool) (file : Option Path) :
    ∀ url ∈ attachmentUrls anchors wanted file, url ≠ "" := by
  intro url member
  unfold attachmentUrls at member
  split at member
  · obtain ⟨found, _, rfl⟩ := Option.map_eq_some_iff.mp (Option.mem_toList.mp member)
    exact libraryUrl_ne_empty anchors found
  · simp at member

theorem library_of_entry {anchors : PathVariables} {attachments : Attachments} {scope : String}
    {entry : Entry} {library : Library}
    (made : Entry.library anchors attachments scope entry = .ok library) :
    library.scope = scope ∧ library.HasUrls := by
  unfold Entry.library at made
  split at made
  · split at made
    · simp at made
    · obtain rfl := Except.ok.inj made
      exact ⟨rfl, by simpa using libraryUrl_ne_empty anchors _,
        attachmentUrls_ne_empty anchors _ _, attachmentUrls_ne_empty anchors _ _⟩
  · obtain rfl := Except.ok.inj made
    exact ⟨rfl, trivial⟩
  · obtain rfl := Except.ok.inj made
    exact ⟨rfl, trivial⟩
  · simp at made
  · simp at made

section Convert

variable {convert : Entry → Except Error Library} {motive : Library → Prop}

/-- What holds of every converted entry holds of the libraries of a list of entries. -/
theorem forall_librariesOf
    (each : ∀ entry library, convert entry = .ok library → motive library)
    {entries : List Entry} {libraries : List Library}
    (made : librariesOf convert entries = .ok libraries) :
    ∀ library ∈ libraries, motive library := by
  induction entries generalizing libraries with
  | nil =>
      obtain rfl := Except.ok.inj made
      simp
  | cons entry rest ih =>
      obtain ⟨first, firstMade, made⟩ := except_bind_ok made
      obtain ⟨others, othersMade, made⟩ := except_bind_ok made
      obtain rfl := Except.ok.inj made
      rw [List.forall_mem_cons]
      exact ⟨each entry first firstMade, ih othersMade⟩

theorem forall_scopeLibraries
    (each : ∀ entry library, convert entry = .ok library → motive library)
    {configurations : Configurations} {wanted seen names : List String}
    {libraries : List Library}
    (made : scopeLibraries convert configurations wanted seen names = .ok libraries) :
    ∀ library ∈ libraries, motive library := by
  induction names generalizing seen libraries with
  | nil =>
      obtain rfl := Except.ok.inj made
      simp
  | cons name rest ih =>
      rw [scopeLibraries] at made
      split at made
      · exact ih made
      · obtain ⟨ordered, _, made⟩ := except_bind_ok made
        obtain ⟨first, firstMade, made⟩ := except_bind_ok made
        obtain ⟨others, othersMade, made⟩ := except_bind_ok made
        obtain rfl := Except.ok.inj made
        exact List.forall_mem_append.mpr
          ⟨forall_librariesOf each firstMade, ih othersMade⟩

end Convert

/-! ## Scopes -/

/-- The scopes that are built are some of the classified ones, in their order. -/
theorem gathered_buildLibraries {anchors : PathVariables} {attachments : Attachments}
    {configurations : Configurations} {classified : Keyed String ClassifiedScope}
    {scopes : ScopedLibraries} (nodup : (Keyed.keys classified).Nodup)
    (made : buildLibraries anchors attachments configurations classified = .ok scopes) :
    (Keyed.keys scopes).Sublist (Keyed.keys classified) ∧ Gathered scopes := by
  induction classified generalizing scopes with
  | nil =>
      obtain rfl := Except.ok.inj made
      exact ⟨List.Sublist.refl _, List.nodup_nil, by simp⟩
  | cons entry rest ih =>
      obtain ⟨name, scope⟩ := entry
      obtain ⟨fresh, restNodup⟩ := List.nodup_cons.mp nodup
      obtain ⟨libraries, librariesMade, made⟩ := except_bind_ok made
      obtain ⟨others, othersMade, made⟩ := except_bind_ok made
      obtain ⟨fewer, gathered⟩ := ih restNodup othersMade
      have own := forall_scopeLibraries (fun _ _ => library_of_entry) librariesMade
      obtain rfl := Except.ok.inj made
      split
      · exact ⟨fewer.cons _, gathered⟩
      · rename_i nonempty
        refine ⟨fewer.cons_cons _, ?_, ?_⟩
        · exact List.nodup_cons.mpr ⟨fun member => fresh (fewer.subset member), gathered.nodup⟩
        · rw [List.forall_mem_cons]
          exact ⟨⟨by simpa using nonempty, own⟩, gathered.own⟩

theorem Gathered.addLibrary {scopes : ScopedLibraries} (gathered : Gathered scopes)
    {library : Library} (hasUrls : library.HasUrls) :
    Gathered (IdeModules.addLibrary scopes library) := by
  have held : ∀ other ∈ (Keyed.get? library.scope scopes).getD [],
      other.scope = library.scope ∧ other.HasUrls := by
    cases found : Keyed.get? library.scope scopes with
    | none => simp
    | some libraries => exact (gathered.own _ (Keyed.mem_of_get? found)).2
  refine ⟨Keyed.nodup_keys_put gathered.nodup, Keyed.forall_mem_put gathered.own ?_⟩
  unfold pushNew
  split
  · rename_i member
    exact ⟨List.ne_nil_of_mem member, held⟩
  · refine ⟨by simp, List.forall_mem_append.mpr ⟨held, ?_⟩⟩
    simpa using hasUrls

theorem Gathered.addLibraries {scopes : ScopedLibraries} (gathered : Gathered scopes)
    {libraries : List Library} (haveUrls : ∀ library ∈ libraries, library.HasUrls) :
    Gathered (IdeModules.addLibraries scopes libraries) := by
  induction libraries generalizing scopes with
  | nil => exact gathered
  | cons library rest ih =>
      rw [List.forall_mem_cons] at haveUrls
      exact ih (gathered.addLibrary haveUrls.1) haveUrls.2

theorem keys_filterMap (libraries : ScopedLibraries) (names : List String) :
    Keyed.keys (names.filterMap fun name =>
        (Keyed.get? name libraries).map fun found => (name, found)) =
      names.filter (· ∈ Keyed.keys libraries) := by
  induction names with
  | nil => rfl
  | cons name rest ih =>
      cases found : Keyed.get? name libraries with
      | none =>
          have unknown : name ∉ Keyed.keys libraries := by
            rw [Keyed.mem_keys_iff, found]
            simp
          rw [List.filterMap_cons_none (by rw [found]; rfl), ih,
            List.filter_cons_of_neg (by simpa using unknown)]
      | some held =>
          have known : name ∈ Keyed.keys libraries := Keyed.mem_keys_iff.mpr ⟨held, found⟩
          rw [List.filterMap_cons_some (by rw [found]; rfl),
            List.filter_cons_of_pos (by simpa using known), ← ih]
          rfl

theorem mem_of_mem_inScopeOrder {scopes : Scopes} {libraries : ScopedLibraries}
    {entry : String × List Library} (member : entry ∈ inScopeOrder scopes libraries) :
    entry ∈ libraries := by
  obtain ⟨name, _, found⟩ := List.mem_filterMap.mp member
  obtain ⟨held, isHeld, rfl⟩ := Option.map_eq_some_iff.mp found
  exact Keyed.mem_of_get? isHeld

/-- Scopes that have been put in their order are in the order in which they are read. -/
theorem inReadingOrder_inScopeOrder (scopes : Scopes) {libraries : ScopedLibraries}
    (gathered : Gathered libraries) :
    InReadingOrder (inScopeOrder scopes libraries) := by
  have keys : Keyed.keys (inScopeOrder scopes libraries) =
      (scopeOrder scopes).filter (· ∈ Keyed.keys libraries) := keys_filterMap _ _
  constructor
  · rw [keys]
    exact (nodup_scopeOrder scopes).filter _
  · intro entry member
    obtain ⟨nonempty, own⟩ := gathered.own entry (mem_of_mem_inScopeOrder member)
    exact ⟨nonempty, fun library held => (own library held).1⟩
  · have builtIn : builtInScopes.filter
        (· ∈ (scopeOrder scopes).filter (· ∈ Keyed.keys libraries)) =
        builtInScopes.filter (· ∈ Keyed.keys libraries) := by
      refine List.filter_congr ?_
      intro name known
      simp [builtIn_mem_scopeOrder scopes known]
    have noneBuiltIn : (builtInScopes.filter (· ∈ Keyed.keys libraries)).filter
        (· ∉ builtInScopes) = [] := by
      rw [List.filter_eq_nil_iff]
      intro name member
      simp [(List.mem_filter.mp member).1]
    have others : ∀ names : List String, (∀ name ∈ names, name ∉ builtInScopes) →
        names.filter (· ∉ builtInScopes) = names := by
      intro names custom
      exact List.filter_eq_self.mpr fun name member => by simpa using custom name member
    rw [keys, builtIn, scopeOrder, List.filter_append, List.filter_append, noneBuiltIn,
      List.nil_append, others]
    intro name member
    exact (of_decide_eq_true (List.mem_filter.mp (List.mem_filter.mp member).1).2).1

/-! ## Generated descriptors -/

namespace Descriptor

variable {settings : ModuleSettings} {anchors : PathVariables} {context : ProjectContext}
  {layout : Layout} {generated : Descriptor} {lines : List String}

/-- A generated descriptor is that of its layout with libraries in order and a level. -/
theorem generate_eq
    (areFiles : ∀ library ∈ layout.generatedLibraries, library.HasUrls)
    (made : generate settings anchors context layout = .ok (generated, lines)) :
    ∃ scopes level, generated =
        { ofLayout settings layout with scopes := scopes, languageLevel := level } ∧
      InReadingOrder scopes ∧ ∀ library ∈ (Keyed.values scopes).flatten, library.HasUrls := by
  unfold generate at made
  split at made
  · obtain ⟨rules, _, made⟩ := except_bind_ok made
    obtain ⟨libraries, librariesMade, made⟩ := except_bind_ok made
    obtain ⟨configurations, _, built⟩ := except_bind_ok librariesMade
    have classified := nodup_keys_classify rules configurations
    have gathered := (gathered_buildLibraries classified built).2.addLibraries areFiles
    obtain ⟨rfl, rfl⟩ := Prod.mk.inj (Except.ok.inj made)
    refine ⟨_, _, rfl, inReadingOrder_inScopeOrder rules gathered, ?_⟩
    intro library member
    obtain ⟨held, heldMember, inHeld⟩ := List.mem_flatten.mp member
    obtain ⟨entry, known, rfl⟩ := List.mem_map.mp heldMember
    exact ((gathered.own entry (mem_of_mem_inScopeOrder known)).2 library inHeld).2
  · obtain ⟨rfl, rfl⟩ := Prod.mk.inj (Except.ok.inj made)
    exact ⟨[], none, rfl, ⟨List.nodup_nil, by simp, rfl⟩, by simp [Keyed.values]⟩

theorem generate_of_libraries {scopes : Scopes} {libraries : ScopedLibraries}
    (isJava : settings.isJava = true) (customized : scopesOf settings.scopes = .ok scopes)
    (built : settings.libraries anchors scopes = .ok libraries) (context : ProjectContext) :
    let placed := inScopeOrder scopes (addLibraries libraries layout.generatedLibraries)
    generate settings anchors context layout =
      .ok ({ ofLayout settings layout with
        scopes := placed
        languageLevel := LanguageLevel.ofModule settings.sourceCompatibility context.level
          context.hasBaseline }, diagnostics placed settings.configurations) := by
  rw [generate, if_pos isJava, customized]
  simp only [bind, Except.bind, built]
  rfl

end Descriptor

/-! ## Layouts -/

namespace ModuleSettings

variable {settings : ModuleSettings} {anchors : PathVariables}

theorem outputUrl_ne_empty {given : Option Path} {kind url : String}
    (made : settings.outputUrl anchors given kind = .ok url) : url ≠ "" := by
  unfold outputUrl at made
  split at made
  · exact Except.ok.inj made ▸ fileUrl_ne_empty anchors _
  · split at made
    · exact Except.ok.inj made ▸ fileUrl_ne_empty anchors _
    · simp at made

/-- A module that inherits its output directories has none, and any other has URLs for them. -/
theorem outputUrls_cases {outputs : OutputUrls}
    (made : settings.outputUrls anchors = .ok outputs) :
    outputs = ⟨true, none, none⟩ ∨ ∃ output testOutput,
      outputs = ⟨false, some output, some testOutput⟩ ∧ output ≠ "" ∧ testOutput ≠ "" := by
  unfold outputUrls at made
  split at made
  · obtain ⟨output, outputMade, made⟩ := except_bind_ok made
    obtain ⟨testOutput, testOutputMade, made⟩ := except_bind_ok made
    exact .inr ⟨output, testOutput, (Except.ok.inj made).symm, outputUrl_ne_empty outputMade,
      outputUrl_ne_empty testOutputMade⟩
  · exact .inl (Except.ok.inj made).symm

theorem layout_eq {layout : Layout} (made : settings.layout anchors = .ok layout) :
    settings.outputUrls anchors = .ok layout.outputs ∧
      layout.root.sourceFolders = settings.sourceFolders anchors ∧
      layout.root.excludedFolders = settings.excludedFolders anchors ∧
      layout.generatedLibraries =
        distinct ((settings.generated anchors).map (generatedLibrary anchors)) ∧
      layout.tasks = (((settings.generated anchors).map GeneratedDirectory.task).filter
        fun task => !task.isEmpty).foldl pushNewValue [] := by
  obtain ⟨outputs, areOutputs, made⟩ := except_bind_ok made
  obtain rfl := Except.ok.inj made
  exact ⟨areOutputs, rfl, rfl, rfl, rfl⟩

/-- The folders of a layout do not stand twice, and its outputs and directories have URLs. -/
theorem layout_cases {layout : Layout} (made : settings.layout anchors = .ok layout) :
    layout.root.sourceFolders.Nodup ∧ layout.root.excludedFolders.Nodup ∧
      settings.outputUrls anchors = .ok layout.outputs ∧
      ∀ library ∈ layout.generatedLibraries, library.HasUrls := by
  obtain ⟨outputs, folders, excluded, libraries, _⟩ := layout_eq made
  rw [folders, excluded, libraries]
  refine ⟨nodup_distinct _, nodup_distinct _, outputs, ?_⟩
  intro library member
  obtain ⟨found, _, rfl⟩ := List.mem_map.mp (mem_distinct.mp member)
  exact ⟨by simpa using fileUrl_ne_empty anchors _, by simp, by simp⟩

end ModuleSettings

end IdeModules
