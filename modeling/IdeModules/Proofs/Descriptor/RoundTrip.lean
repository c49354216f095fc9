import IdeModules.Proofs.Descriptor.Frame

/-!
# Written descriptors are read back

Reading a tree that a descriptor has been written into gives the managed state
of the descriptor.  A library is read back with its scope and its roots, and the
libraries of a descriptor find their scopes again in their order.
-/

namespace IdeModules

open Xml

/-! ## Attributes of made elements -/

theorem attribute?_make (tag name : String) (entries : List (String × String)) :
    (Element.make tag entries).attribute? name = Keyed.get? name entries := by
  induction entries with
  | nil => rfl
  | cons entry rest ih =>
      obtain ⟨known, value⟩ := entry
      simp only [Element.attribute?, Element.make, List.map_cons, Keyed.get?] at ih ⊢
      by_cases same : known = name
      · rw [if_pos (congrArg Name.plain same), if_pos same]
      · rw [if_neg fun equal => same (plain_injective equal), if_neg same]
        exact ih

theorem childrenNamed_withChildren (element : Element) (children : List Element) (tag : String) :
    (element.withChildren children).childrenNamed tag =
      children.filter (·.name = Name.plain tag) := by
  rw [Element.childrenNamed, Element.withChildren, filter_isNamed_map]
  simp [List.filterMap_map, Function.comp_def, Node.ofElement, Node.element?]

/-! ## Libraries -/

/-- Whether a library is read back as it is: its scope has a name, its roots have URLs, and the
parts of a placeholder are told apart. -/
def Library.IsRegular : Library → Prop
  | .files scope classes javadoc sources =>
    scope ≠ "" ∧ (∀ url ∈ classes, url ≠ "") ∧ (∀ url ∈ javadoc, url ≠ "") ∧
      ∀ url ∈ sources, url ≠ ""
  | .unresolved scope group name version =>
    scope ≠ "" ∧ ' ' ∉ group.toList ∧ ' ' ∉ name.toList ∧
      ∀ found, version = some found → ' ' ∉ found.toList ∧ found ≠ ""
  | .otherModule scope _ => scope ≠ ""

theorem scopeOf_of_attribute {entry : Element} {scope : String} (nonempty : scope ≠ "")
    (written : entry.attribute? "scope" = Keyed.get? "scope" (scopeAttribute scope)) :
    scopeOf entry = scope := by
  rw [scopeOf, written, scopeAttribute]
  by_cases isUsual : scope = "COMPILE"
  · rw [if_pos (.inr isUsual)]
    exact isUsual.symm
  · rw [if_neg (by simp [nonempty, isUsual])]
    simp [Keyed.get?, Option.filter, nonempty]

theorem childrenNamed_rootGroup (kind : String) (urls : List String) :
    (rootGroup kind urls).childrenNamed "root" =
      urls.map fun url => Element.make "root" [("url", url)] := by
  rw [rootGroup, childrenNamed_withChildren, List.filter_eq_self.mpr]
  rw [List.forall_mem_map]
  exact fun _ _ => rfl

/-- The roots of a group below a library. -/
theorem rootUrls_of_child {library : Element} {kind : String} {urls : List String}
    (nonempty : ∀ url ∈ urls, url ≠ "")
    (isChild : library.child? kind = some (rootGroup kind urls)) :
    rootUrls library kind = urls := by
  have read : ((rootGroup kind urls).childrenNamed "root").filterMap
      (fun root => root.attribute? "url") = urls := by
    rw [childrenNamed_rootGroup, List.filterMap_map]
    simp [attribute?_make, Keyed.get?]
  rw [rootUrls, isChild]
  simp only [read]
  exact List.filter_eq_self.mpr fun url member => by simpa using nonempty url member

theorem child?_library (entries : List (String × String))
    (classes javadoc sources : List String) :
    let library := (Element.make "library" entries).withChildren
      (rootGroups classes javadoc sources)
    library.child? "CLASSES" = some (rootGroup "CLASSES" classes) ∧
      library.child? "JAVADOC" = some (rootGroup "JAVADOC" javadoc) ∧
      library.child? "SOURCES" = some (rootGroup "SOURCES" sources) := by
  have named : ∀ (kind : String) (urls : List String),
      (rootGroup kind urls).name = Name.plain kind := fun _ _ => rfl
  simp only [Element.child?, childrenNamed_withChildren, rootGroups, List.filter_cons, named,
    List.filter_nil]
  exact ⟨rfl, rfl, rfl⟩

theorem child?_append (entry : Element) (noChildren : entry.children = []) {library : Element}
    (named : library.name = Name.plain "library") :
    (entry.append library).child? "library" = some library := by
  have found : (Node.ofElement library "").isNamed "library" = true := decide_eq_true named
  rw [Element.child?, Element.childrenNamed, Element.append, noChildren, List.nil_append,
    List.filter_cons_of_pos found]
  rfl

theorem attribute?_append (entry library : Element) (name : String) :
    (entry.append library).attribute? name = entry.attribute? name :=
  rfl

/-! ## Placeholders -/

theorem toList_placeholderName (group name : String) (version : Option String) :
    (Library.placeholderName group name version).toList =
      placeholderMark.toList ++ (group.toList ++ ' ' :: (name.toList ++
        ((version.filter (· ≠ "")).map fun found => ' ' :: found.toList).getD [])) := by
  cases kept : version.filter (· ≠ "") with
  | none =>
      rw [Library.placeholderName, kept]
      simp [joined]
  | some found =>
      rw [Library.placeholderName, kept]
      simp [joined]

/-- A placeholder is described by its name if its parts hold no blanks. -/
theorem placeholderOf_parts {group name : String} {version : Option String}
    (groupWhole : ' ' ∉ group.toList) (nameWhole : ' ' ∉ name.toList)
    (versionWhole : ∀ found, version = some found → ' ' ∉ found.toList ∧ found ≠ "")
    (scope : String) :
    placeholderOf scope (group.toList ++ ' ' :: (name.toList ++
        ((version.filter (· ≠ "")).map fun found => ' ' :: found.toList).getD [])) =
      .unresolved scope group name version := by
  cases version with
  | none =>
      have split : splitChars ' ' (group.toList ++ ' ' :: name.toList) =
          [group.toList, name.toList] := by
        rw [splitChars_append groupWhole, splitChars_of_not_mem nameWhole]
      simp [placeholderOf, pieces, split]
  | some found =>
      obtain ⟨foundWhole, nonempty⟩ := versionWhole found rfl
      have split : splitChars ' ' (group.toList ++ ' ' :: (name.toList ++ ' ' :: found.toList)) =
          [group.toList, name.toList, found.toList] := by
        rw [splitChars_append groupWhole, splitChars_append nameWhole,
          splitChars_of_not_mem foundWhole]
      simp [placeholderOf, pieces, split, Option.filter, nonempty]

theorem drop_placeholderMark (rest : List Char) :
    placeholderMark.toList.isPrefixOf (placeholderMark.toList ++ rest) = true ∧
      (placeholderMark.toList ++ rest).drop placeholderMark.length = rest := by
  constructor
  · simp
  · rw [← String.length_toList, List.drop_left]

theorem attribute?_moduleLibrary {library : Element} {scope : String} :
    let entry := (Element.make "orderEntry"
      (("type", "module-library") :: scopeAttribute scope)).append library
    entry.attribute? "type" = some "module-library" ∧
      entry.attribute? "scope" = Keyed.get? "scope" (scopeAttribute scope) := by
  simp [attribute?_append, attribute?_make, Keyed.get?]

/-- A regular library is read back from its element. -/
theorem libraryOf_element {library : Library} (isRegular : library.IsRegular) :
    libraryOf library.element = some library := by
  cases library with
  | files scope classes javadoc sources =>
      obtain ⟨nonempty, classesNonempty, javadocNonempty, sourcesNonempty⟩ := isRegular
      obtain ⟨kind, inScope⟩ := attribute?_moduleLibrary
      obtain ⟨isClasses, isJavadoc, isSources⟩ := child?_library [] classes javadoc sources
      have unnamed : (((Element.make "library" []).withChildren
          (rootGroups classes javadoc sources)).attribute? "name") = none := rfl
      have notPlaceholder : placeholderMark.toList.isPrefixOf "".toList = false := rfl
      rw [Library.element, libraryOf, kind]
      simp only [moduleLibraryOf, scopeOf_of_attribute nonempty inScope]
      rw [child?_append _ rfl rfl]
      simp only [unnamed, Option.getD_none, notPlaceholder, Bool.false_eq_true, if_false,
        rootUrls_of_child classesNonempty isClasses, rootUrls_of_child javadocNonempty isJavadoc,
        rootUrls_of_child sourcesNonempty isSources]
  | unresolved scope group name version =>
      obtain ⟨nonempty, groupWhole, nameWhole, versionWhole⟩ := isRegular
      obtain ⟨kind, inScope⟩ := attribute?_moduleLibrary
      have named : (((Element.make "library"
          [("name", Library.placeholderName group name version)]).withChildren
            (rootGroups [] [] [])).attribute? "name") =
          some (Library.placeholderName group name version) := rfl
      rw [Library.element, libraryOf, kind]
      simp only [moduleLibraryOf, scopeOf_of_attribute nonempty inScope]
      rw [child?_append _ rfl rfl]
      simp only [named, Option.getD_some, toList_placeholderName, drop_placeholderMark, if_true,
        placeholderOf_parts groupWhole nameWhole versionWhole]
  | otherModule scope name =>
      have kind : (Library.otherModule scope name).element.attribute? "type" = some "module" := by
        simp [Library.element, attribute?_make, Keyed.get?]
      have inScope : (Library.otherModule scope name).element.attribute? "scope" =
          Keyed.get? "scope" (scopeAttribute scope) := by
        simp [Library.element, attribute?_make, Keyed.get?]
      have named : (Library.otherModule scope name).element.attribute? "module-name" =
          some name := by
        simp [Library.element, attribute?_make, Keyed.get?]
      rw [libraryOf, kind]
      simp only [scopeOf_of_attribute isRegular inScope, named, Option.getD_some]

/-! ## Scopes -/

/-- Whether libraries stand under their scopes, in the order in which scopes are read: the
built-in ones first. -/
structure InReadingOrder (scopes : ScopedLibraries) : Prop where
  nodup : (Keyed.keys scopes).Nodup
  own : ∀ entry ∈ scopes, entry.2 ≠ [] ∧ ∀ library ∈ entry.2, library.scope = entry.1
  order : Keyed.keys scopes =
    builtInScopes.filter (· ∈ Keyed.keys scopes) ++
      (Keyed.keys scopes).filter (· ∉ builtInScopes)

/-- A library behind the others of its scope. -/
def addToGroup (scopes : ScopedLibraries) (library : Library) : ScopedLibraries :=
  Keyed.put library.scope ((Keyed.get? library.scope scopes).getD [] ++ [library]) scopes

theorem Keyed.get?_append_of_not_mem [DecidableEq κ] {key : κ} {front : Keyed κ α}
    (absent : key ∉ Keyed.keys front) (back : Keyed κ α) :
    Keyed.get? key (front ++ back) = Keyed.get? key back := by
  induction front with
  | nil => rfl
  | cons entry rest ih =>
      obtain ⟨known, value⟩ := entry
      rw [Keyed.keys, List.map_cons, List.mem_cons, not_or] at absent
      rw [List.cons_append, Keyed.get?, if_neg (Ne.symm absent.1), ih absent.2]

theorem Keyed.put_append_of_not_mem [DecidableEq κ] {key : κ} {front : Keyed κ α}
    (absent : key ∉ Keyed.keys front) (value : α) (back : Keyed κ α) :
    Keyed.put key value (front ++ back) = front ++ Keyed.put key value back := by
  induction front with
  | nil => rfl
  | cons entry rest ih =>
      obtain ⟨known, held⟩ := entry
      rw [Keyed.keys, List.map_cons, List.mem_cons, not_or] at absent
      rw [List.cons_append, Keyed.put, if_neg (Ne.symm absent.1), ih absent.2,
        List.cons_append]

/-- Libraries of one scope gather behind those of the scope. -/
theorem foldl_addToGroup {name : String} {libraries : List Library}
    (own : ∀ library ∈ libraries, library.scope = name) {front : ScopedLibraries}
    (absent : name ∉ Keyed.keys front) (held : List Library) :
    libraries.foldl addToGroup (front ++ [(name, held)]) =
      front ++ [(name, held ++ libraries)] := by
  induction libraries generalizing held with
  | nil => simp
  | cons library rest ih =>
      have isOwn : library.scope = name := own library (by simp)
      have added : addToGroup (front ++ [(name, held)]) library =
          front ++ [(name, held ++ [library])] := by
        rw [addToGroup, isOwn, Keyed.get?_append_of_not_mem absent,
          Keyed.put_append_of_not_mem absent]
        simp [Keyed.get?, Keyed.put]
      rw [List.foldl_cons, added,
        ih (fun other member => own other (List.mem_cons_of_mem _ member)),
        List.append_assoc, List.singleton_append]

theorem foldl_addToGroup_new {name : String} {libraries : List Library} (nonempty : libraries ≠ [])
    (own : ∀ library ∈ libraries, library.scope = name) {front : ScopedLibraries}
    (absent : name ∉ Keyed.keys front) :
    libraries.foldl addToGroup front = front ++ [(name, libraries)] := by
  cases libraries with
  | nil => exact absurd rfl nonempty
  | cons library rest =>
      have isOwn : library.scope = name := own library (by simp)
      have added : addToGroup front library = front ++ [(name, [library])] := by
        have lookup := Keyed.get?_append_of_not_mem absent []
        have placed := Keyed.put_append_of_not_mem absent [library] []
        rw [List.append_nil] at lookup placed
        rw [addToGroup, isOwn, lookup]
        exact placed
      rw [List.foldl_cons, added,
        foldl_addToGroup (fun other member => own other (List.mem_cons_of_mem _ member)) absent]
      rfl

/-- Grouping the libraries of all scopes gives the scopes back. -/
theorem groupByScope_flatten {scopes : ScopedLibraries} (nodup : (Keyed.keys scopes).Nodup)
    (own : ∀ entry ∈ scopes, entry.2 ≠ [] ∧ ∀ library ∈ entry.2, library.scope = entry.1) :
    groupByScope (Keyed.values scopes).flatten = scopes := by
  have gathered : ∀ front : ScopedLibraries, (Keyed.keys (front ++ scopes)).Nodup →
      (Keyed.values scopes).flatten.foldl addToGroup front = front ++ scopes := by
    clear nodup
    induction scopes with
    | nil => simp [Keyed.values]
    | cons entry rest ih =>
        obtain ⟨name, libraries⟩ := entry
        obtain ⟨nonempty, ownFirst⟩ := own _ List.mem_cons_self
        intro front nodup
        have absent : name ∉ Keyed.keys front := by
          intro member
          rw [Keyed.keys, List.map_append, List.map_cons] at nodup
          exact (List.nodup_append.mp nodup).2.2 name member name List.mem_cons_self rfl
        have nodupRest : (Keyed.keys ((front ++ [(name, libraries)]) ++ rest)).Nodup := by
          rwa [List.append_assoc, List.singleton_append]
        rw [Keyed.values, List.map_cons, List.flatten_cons, List.foldl_append,
          foldl_addToGroup_new nonempty ownFirst absent]
        have others := ih
          (fun other member => own other (List.mem_cons_of_mem _ member)) _ nodupRest
        rw [List.append_assoc, List.singleton_append] at others
        exact others
  exact gathered [] nodup

theorem filterMap_keys {scopes : ScopedLibraries} (nodup : (Keyed.keys scopes).Nodup) :
    ((Keyed.keys scopes).filterMap fun name =>
      (Keyed.get? name scopes).map fun libraries => (name, libraries)) = scopes := by
  have found : ∀ entry ∈ scopes, ((Keyed.get? entry.1 scopes).map
      fun libraries => (entry.1, libraries)) = some entry := by
    intro entry member
    rw [Keyed.get?_of_mem nodup (show (entry.1, entry.2) ∈ scopes from member)]
    rfl
  rw [Keyed.keys, List.filterMap_map]
  exact (List.filterMap_congr found).trans List.filterMap_some

theorem filterMap_known (scopes : ScopedLibraries) (names : List String) :
    ((names.filter (· ∈ Keyed.keys scopes)).filterMap fun name =>
      (Keyed.get? name scopes).map fun libraries => (name, libraries)) =
      names.filterMap fun name =>
        (Keyed.get? name scopes).map fun libraries => (name, libraries) := by
  rw [List.filterMap_filter]
  refine List.filterMap_congr ?_
  intro name _
  by_cases known : name ∈ Keyed.keys scopes
  · simp [known]
  · cases found : Keyed.get? name scopes with
    | none => simp
    | some libraries => exact absurd (Keyed.mem_keys_iff.mpr ⟨libraries, found⟩) known

theorem InReadingOrder.orderScopes {scopes : ScopedLibraries} (inOrder : InReadingOrder scopes) :
    IdeModules.orderScopes scopes = scopes := by
  rw [IdeModules.orderScopes, List.filterMap_append, ← filterMap_known scopes builtInScopes,
    ← List.filterMap_append, ← inOrder.order, filterMap_keys inOrder.nodup]

/-! ## Content roots -/

theorem sourceFolderOf_element (folder : SourceFolder) :
    sourceFolderOf folder.element = folder := by
  obtain ⟨url, isTest⟩ := folder
  cases isTest <;> rfl

theorem childrenNamed_content {tag : String} (isFolder : tag ∈ folderTags)
    (existing : Option Node) (root : ContentRoot) :
    (startingContent (some (contentNode existing root))).childrenNamed tag =
      root.folders.filter (·.name = Name.plain tag) := by
  show (List.filter (Node.isNamed tag) (root.folders.map (Node.ofElement · "") ++
    (startingContent existing).children.filter fun child =>
      !child.isNamedIn folderTags)).filterMap Node.element? = _
  rw [List.filter_append, filter_kept isFolder, List.append_nil, filter_isNamed_map]
  simp [List.filterMap_map, Function.comp_def, Node.ofElement, Node.element?]

theorem contentRootOf_content (existing : Option Node) (root : ContentRoot) :
    contentRootOf (startingContent (some (contentNode existing root))) =
      ⟨root.url, distinct root.sourceFolders, distinct root.excludedFolders⟩ := by
  have url : (startingContent (some (contentNode existing root))).attribute? "url" =
      some root.url := by
    have attributes : (startingContent (some (contentNode existing root))).attributes =
        Keyed.put (Name.plain "url") (.text root.url) (startingContent existing).attributes := rfl
    rw [Element.attribute?, attributes, Keyed.get?_put_same]
  have readSources : (root.sourceFolders.map SourceFolder.element).map sourceFolderOf =
      root.sourceFolders := by
    rw [List.map_map]
    exact (List.map_congr_left fun folder _ => sourceFolderOf_element folder).trans (List.map_id _)
  have readExcludes : (root.excludedFolders.map excludedFolderElement).map
      (fun folder => (folder.attribute? "url").getD "") = root.excludedFolders := by
    rw [List.map_map]
    exact (List.map_congr_left fun _ _ => rfl).trans (List.map_id _)
  rw [contentRootOf, url, childrenNamed_content (by decide), childrenNamed_content (by decide),
    filter_sourceFolder_folders, filter_excludeFolder_folders, readSources, readExcludes]
  rfl

/-! ## Root managers -/

namespace Descriptor

variable (descriptor : Descriptor)

theorem childrenNamed_writeComponent {tag : String} (managed : tag ∈ managedTags)
    (component : Element) :
    (descriptor.writeComponent component).childrenNamed tag =
      ((descriptor.managedNodes
        (component.children.find? (Node.isNamed "content"))).filter
          (Node.isNamed tag)).filterMap Node.element? := by
  rw [writeComponent_eq, Element.childrenNamed]
  simp only [markedChildren]
  rw [List.filter_append, filter_kept managed, List.nil_append]

theorem filterMap_ofElement (elements : List Element) :
    (elements.map (Node.ofElement · "")).filterMap Node.element? = elements := by
  simp [List.filterMap_map, Function.comp_def, Node.ofElement, Node.element?]

theorem orderEntries_writeComponent (component : Element) :
    (descriptor.writeComponent component).childrenNamed "orderEntry" =
      descriptor.orderElements := by
  rw [descriptor.childrenNamed_writeComponent (by decide),
    descriptor.filter_managedNodes (isContent_find? _),
    descriptor.filter_outputElements (by decide) (by decide)]
  exact filterMap_ofElement _

theorem content_writeComponent (component : Element) :
    (descriptor.writeComponent component).child? "content" =
      descriptor.root.map fun root => startingContent
        (some (contentNode (component.children.find? (Node.isNamed "content")) root)) := by
  rw [child?_eq_find?, writeComponent_eq]
  simp only [find?_content_markedChildren]
  cases descriptor.root <;> rfl

/-- The output directory of a name, unless the module has none of its own. -/
def ownUrl (url : Option String) : Option String :=
  if descriptor.inheritsOutput then none else url.filter (· ≠ "")

theorem filter_outputElement (tag other : String) (url : Option String) :
    (outputElements.outputElement other url).filter (·.name = Name.plain tag) =
      if other = tag then outputElements.outputElement other url else [] := by
  split
  · rename_i same
    rw [List.filter_eq_self]
    intro element member
    simp [name_outputElement member, same]
  · rename_i different
    rw [List.filter_eq_nil_iff]
    intro element member
    simpa [name_outputElement member] using fun same => different (plain_injective same)

theorem urlOf_outputElement (tag : String) (url : Option String) :
    ((outputElements.outputElement tag url).head?.bind fun output => output.attribute? "url") =
      url.filter (· ≠ "") := by
  unfold outputElements.outputElement
  cases url.filter (· ≠ "") <;> rfl

theorem url_writeComponent (component : Element) :
    (((descriptor.writeComponent component).child? "output").bind
        fun output => output.attribute? "url") = descriptor.ownUrl descriptor.outputUrl ∧
      (((descriptor.writeComponent component).child? "output-test").bind
        fun output => output.attribute? "url") = descriptor.ownUrl descriptor.testOutputUrl := by
  have named : ∀ tag : String, tag = "output" ∨ tag = "output-test" →
      (descriptor.writeComponent component).child? tag =
        (descriptor.outputElements.filter (·.name = Name.plain tag)).head? := by
    intro tag isOutput
    have managed : tag ∈ managedTags := by
      rcases isOutput with rfl | rfl <;> decide
    have others : "exclude-output" ≠ tag ∧ "content" ≠ tag ∧ "orderEntry" ≠ tag := by
      rcases isOutput with rfl | rfl <;> decide
    rw [Element.child?, descriptor.childrenNamed_writeComponent managed,
      descriptor.filter_managedNodes (isContent_find? _), if_neg others.1, if_neg others.2.1,
      if_neg others.2.2, List.append_nil, List.append_nil, List.append_nil, filterMap_ofElement]
  rw [named "output" (.inl rfl), named "output-test" (.inr rfl), ownUrl, ownUrl]
  unfold outputElements
  split
  · exact ⟨rfl, rfl⟩
  · have differ : "output" ≠ "output-test" := by decide
    simp only [List.filter_append, filter_outputElement, if_neg differ, if_neg differ.symm,
      if_true, List.append_nil, List.nil_append, urlOf_outputElement, and_self]

theorem attribute?_marked (component : Element) :
    (descriptor.writeComponent component).attribute? "inherit-compiler-output" =
        some (truthText descriptor.inheritsOutput) ∧
      (descriptor.writeComponent component).attribute? "LANGUAGE_LEVEL" =
        descriptor.languageLevel := by
  have differ : Name.plain "LANGUAGE_LEVEL" ≠ Name.plain "inherit-compiler-output" := by decide
  simp only [writeComponent_eq, Element.attribute?, markedAttributes]
  cases descriptor.languageLevel with
  | none => simp [Keyed.get?_erase, Keyed.get?_put_same, differ]
  | some level => simp [Keyed.get?_put, differ]

theorem isJdkEntry_library (library : Library) : isJdkEntry library.element = false := by
  cases library <;> simp [isJdkEntry, Library.element, attribute?_append, attribute?_make,
    Keyed.get?]

/-- The name of a development kit that is a text is read back. -/
theorem jdkNameOf_orderElements
    (isText : descriptor.jdkName = .null ∨ ∃ name, descriptor.jdkName = .str name ∧ name ≠ "") :
    jdkNameOf descriptor.orderElements = descriptor.jdkName := by
  have libraries : (descriptor.libraries.map Library.element).filter isJdkEntry = [] := by
    rw [List.filter_eq_nil_iff, List.forall_mem_map]
    intro library _
    simp [isJdkEntry_library]
  have noSources : isJdkEntry (Element.make "orderEntry"
      [("type", "sourceFolder"), ("forTests", "false")]) = false := by
    simp [isJdkEntry, attribute?_make, Keyed.get?]
  rw [jdkNameOf, orderElements, List.filter_append, libraries]
  rcases isText with isNull | ⟨name, isName, nonempty⟩
  · have inherited : descriptor.jdkElement =
        Element.make "orderEntry" [("type", "inheritedJdk")] := by
      rw [jdkElement, isNull]
      rfl
    have notJdk : isJdkEntry (Element.make "orderEntry" [("type", "inheritedJdk")]) = false := by
      simp [isJdkEntry, attribute?_make, Keyed.get?]
    rw [inherited, List.filter_cons_of_neg (by simp [notJdk]),
      List.filter_cons_of_neg (by simp [noSources]), isNull]
    rfl
  · have named : descriptor.jdkElement = Element.make "orderEntry"
        [("type", "jdk"), ("jdkName", name), ("jdkType", "JavaSDK")] := by
      have same : descriptor = { descriptor with jdkName := .str name } := by rw [← isName]
      rw [same]
      exact descriptor.jdkElement_of_str nonempty
    have isJdk : isJdkEntry descriptor.jdkElement = true := by
      simp [named, isJdkEntry, attribute?_make, Keyed.get?]
    have value : descriptor.jdkElement.attribute? "jdkName" = some name := by
      simp [named, attribute?_make, Keyed.get?]
    rw [List.filter_cons_of_pos isJdk, List.filter_cons_of_neg (by simp [noSources]), isName]
    simp [value]

theorem root_ofElement_writeTo (name : Json.Value) (root : Element) :
    (ofElement name (descriptor.writeTo root)).root =
      descriptor.root.map fun content =>
        ⟨content.url, distinct content.sourceFolders, distinct content.excludedFolders⟩ := by
  rw [ofElement, descriptor.component?_writeTo]
  simp only [ofComponent, content_writeComponent, Option.map_map]
  cases descriptor.root with
  | none => rfl
  | some content => exact congrArg some (contentRootOf_content _ content)

/-- Whether the managed state of a descriptor is read back as it is: no folder stands twice, a
module has output directories or inherits them, and libraries are regular and in order. -/
structure IsReadable (descriptor : Descriptor) : Prop where
  root : ∀ root, descriptor.root = some root →
    root.sourceFolders.Nodup ∧ root.excludedFolders.Nodup
  outputUrl : descriptor.ownUrl descriptor.outputUrl = descriptor.outputUrl
  testOutputUrl : descriptor.ownUrl descriptor.testOutputUrl = descriptor.testOutputUrl
  jdkName : descriptor.jdkName = .null ∨ ∃ name, descriptor.jdkName = .str name ∧ name ≠ ""
  scopes : InReadingOrder descriptor.scopes
  libraries : ∀ library ∈ descriptor.libraries, library.IsRegular

theorem libraries_orderElements
    (isRegular : ∀ library ∈ descriptor.libraries, library.IsRegular) :
    descriptor.orderElements.filterMap libraryOf = descriptor.libraries := by
  have jdk : libraryOf descriptor.jdkElement = none := by
    have kind : descriptor.jdkElement.attribute? "type" = some "inheritedJdk" ∨
        descriptor.jdkElement.attribute? "type" = some "jdk" := by
      unfold jdkElement
      split
      · exact .inl rfl
      · exact .inr rfl
    rcases kind with isInherited | isNamed
    · simp [libraryOf, isInherited]
    · simp [libraryOf, isNamed]
  have sources : libraryOf (Element.make "orderEntry"
      [("type", "sourceFolder"), ("forTests", "false")]) = none := rfl
  have read : descriptor.libraries.filterMap (libraryOf ∘ Library.element) =
      descriptor.libraries := by
    refine (List.filterMap_congr ?_).trans List.filterMap_some
    exact fun library member => libraryOf_element (isRegular library member)
  rw [orderElements, List.filterMap_append, List.filterMap_cons_none jdk,
    List.filterMap_cons_none sources, List.filterMap_map, read]
  rfl

/-- Reading a written tree gives the managed state that was written. -/
theorem ofElement_writeTo (isReadable : descriptor.IsReadable) (root : Element) :
    (ofElement descriptor.name (descriptor.writeTo root)).withoutTree =
      descriptor.withoutTree := by
  have content : (descriptor.root.map fun content =>
      (⟨content.url, distinct content.sourceFolders, distinct content.excludedFolders⟩ :
        ContentRoot)) = descriptor.root := by
    cases isRoot : descriptor.root with
    | none => rfl
    | some content =>
        obtain ⟨sources, excludes⟩ := isReadable.root content isRoot
        rw [Option.map_some, distinct_of_nodup sources, distinct_of_nodup excludes]
  have readRoot := descriptor.root_ofElement_writeTo descriptor.name root
  obtain ⟨output, testOutput⟩ := descriptor.url_writeComponent (startingComponent root)
  obtain ⟨inherits, level⟩ := descriptor.attribute?_marked (startingComponent root)
  have scopes : IdeModules.orderScopes (groupByScope descriptor.libraries) =
      descriptor.scopes := by
    rw [libraries, groupByScope_flatten isReadable.scopes.nodup isReadable.scopes.own,
      isReadable.scopes.orderScopes]
  have truth : (some (truthText descriptor.inheritsOutput) != some "false") =
      descriptor.inheritsOutput := by
    cases descriptor.inheritsOutput <;> rfl
  rw [ofElement, descriptor.component?_writeTo] at readRoot ⊢
  simp only [ofComponent, withoutTree] at readRoot ⊢
  rw [readRoot, content, output, testOutput, isReadable.outputUrl, isReadable.testOutputUrl,
    inherits, truth, level, orderEntries_writeComponent,
    descriptor.jdkNameOf_orderElements isReadable.jdkName,
    descriptor.libraries_orderElements isReadable.libraries, scopes]

end Descriptor

end IdeModules
