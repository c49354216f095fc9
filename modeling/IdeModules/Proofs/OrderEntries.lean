import IdeModules.Proofs.Descriptor.Generated
import IdeModules.Proofs.Identities
import IdeModules.Proofs.Inheritance
import IdeModules.Proofs.Libraries
import IdeModules.Proofs.PathVariables

/-!
# Entries that are written once

A scope has one library for each of its identities, and what is written of a library tells its
identity as far as a file or a coordinate goes: different files have different URLs.  Of a project
only the name of its module is written, which different projects may share.  The directories that
a build generates come behind, each once; one of them is left out only where the whole library of
a listed file is the same.
-/

namespace IdeModules

/-! ## Added libraries -/

section Added

variable {scopes : ScopedLibraries}

theorem getD_addLibraries (libraries : List Library) (name : String) :
    (Keyed.get? name (addLibraries scopes libraries)).getD [] =
      (libraries.filter (·.scope = name)).foldl pushNew ((Keyed.get? name scopes).getD []) := by
  induction libraries generalizing scopes with
  | nil => rfl
  | cons library rest ih =>
      have added : (Keyed.get? name (addLibrary scopes library)).getD [] =
          if library.scope = name then pushNew ((Keyed.get? name scopes).getD []) library
          else (Keyed.get? name scopes).getD [] := by
        rw [addLibrary, Keyed.get?_put]
        split
        · rename_i same
          rw [same]
          rfl
        · rfl
      rw [addLibraries, List.foldl_cons, ← addLibraries, ih, added]
      by_cases same : library.scope = name
      · rw [if_pos same, List.filter_cons_of_pos (by simpa using same), List.foldl_cons]
      · rw [if_neg same, List.filter_cons_of_neg (by simpa using same)]

end Added

/-! ## What is written of a library -/

namespace Library

def classes? : Library → Option (List String)
  | .files _ classes _ _ => some classes
  | _ => none

def moduleName? : Library → Option String
  | .otherModule _ name => some name
  | _ => none

/-- Whether a library shows attachments of its files. -/
def ShowsAttachments : Library → Prop
  | .files _ _ javadoc sources => javadoc ≠ [] ∨ sources ≠ []
  | _ => False

end Library

/-- The path of the project that an entry refers to. -/
def Entry.projectPath? : Entry → Option String
  | .reference (.project (.str path)) => some path
  | _ => none

section Written

variable {anchors : PathVariables} {attachments : Attachments} {scope : String} {entry : Entry}
  {library : Library} {entries : List Entry} {libraries : List Library}

theorem library_cases (made : entry.library anchors attachments scope = .ok library) :
    (∃ found file javadoc sources, entry = .artifact found ∧ found.file = some file ∧
      library = .files scope [anchors.libraryUrl file] javadoc sources) ∨
    (∃ dependency, entry = .unresolved dependency ∧
      library = .unresolved scope dependency.group dependency.name dependency.version) ∨
    ∃ path, entry = .reference (.project (.str path)) ∧
      library = .otherModule scope (projectModuleName path) := by
  unfold Entry.library at made
  split at made
  · split at made
    · exact nomatch made
    · rename_i found _ file isFile
      obtain rfl := Except.ok.inj made
      exact .inl ⟨found, file, _, _, rfl, isFile, rfl⟩
  · obtain rfl := Except.ok.inj made
    exact .inr (.inl ⟨_, rfl, rfl⟩)
  · obtain rfl := Except.ok.inj made
    exact .inr (.inr ⟨_, rfl, rfl⟩)
  · exact nomatch made
  · exact nomatch made

/-- Only an unresolved dependency has a coordinate. -/
theorem unresolved_of_coordinate? {coordinate : String}
    (made : entry.library anchors attachments scope = .ok library)
    (isCoordinate : library.coordinate? = some coordinate) :
    ∃ dependency, entry = .unresolved dependency ∧ dependency.coordinate = coordinate := by
  rcases library_cases made with
    ⟨_, _, _, _, _, _, rfl⟩ | ⟨dependency, isDependency, rfl⟩ | ⟨_, _, rfl⟩
  · exact nomatch isCoordinate
  · exact ⟨dependency, isDependency, Option.some.inj isCoordinate⟩
  · exact nomatch isCoordinate

theorem identity_of_coordinate? {coordinate : String}
    (made : entry.library anchors attachments scope = .ok library)
    (isCoordinate : library.coordinate? = some coordinate) : entry.identity = coordinate := by
  obtain ⟨_, rfl, rfl⟩ := unresolved_of_coordinate? made isCoordinate
  rfl

theorem artifact_of_classes? {classes : List String}
    (made : entry.library anchors attachments scope = .ok library)
    (areClasses : library.classes? = some classes) :
    ∃ found file, entry = .artifact found ∧ found.file = some file ∧
      classes = [anchors.libraryUrl file] := by
  rcases library_cases made with
    ⟨found, file, _, _, isFound, isFile, rfl⟩ | ⟨_, _, rfl⟩ | ⟨_, _, rfl⟩
  · exact ⟨found, file, isFound, isFile, (Option.some.inj areClasses).symm⟩
  · exact nomatch areClasses
  · exact nomatch areClasses

theorem identity_of_classes? {other : Entry} {otherLibrary : Library} {classes : List String}
    (readable : anchors.IsReadable)
    (isRead : entry.IsRead) (otherRead : other.IsRead)
    (made : entry.library anchors attachments scope = .ok library)
    (otherMade : other.library anchors attachments scope = .ok otherLibrary)
    (areClasses : library.classes? = some classes)
    (areOther : otherLibrary.classes? = some classes) : entry.identity = other.identity := by
  obtain ⟨found, file, rfl, isFile, rfl⟩ := artifact_of_classes? made areClasses
  obtain ⟨otherFound, otherFile, rfl, isOther, same⟩ := artifact_of_classes? otherMade areOther
  have sameFile := PathVariables.libraryUrl_inj readable (isRead file isFile)
    (otherRead otherFile isOther) (List.singleton_inj.mp same)
  rw [Entry.identity, Entry.identity, isFile, isOther, sameFile]

theorem exists_of_mem_librariesOf {convert : Entry → Except Error Library}
    (made : librariesOf convert entries = .ok libraries) (member : library ∈ libraries) :
    ∃ entry ∈ entries, convert entry = .ok library := by
  induction entries generalizing libraries with
  | nil =>
      obtain rfl := Except.ok.inj made
      exact absurd member List.not_mem_nil
  | cons entry rest ih =>
      obtain ⟨first, isFirst, made⟩ := except_bind_ok made
      obtain ⟨others, areOthers, made⟩ := except_bind_ok made
      obtain rfl := Except.ok.inj made
      rcases List.mem_cons.mp member with rfl | inRest
      · exact ⟨entry, List.mem_cons_self, isFirst⟩
      · obtain ⟨other, isOther, isLibrary⟩ := ih areOthers inRest
        exact ⟨other, List.mem_cons_of_mem _ isOther, isLibrary⟩

/-- What tells the identity of an entry is shown by one library of different identities. -/
theorem nodup_filterMap_librariesOf {β : Type} {convert : Entry → Except Error Library}
    {shown : Library → Option β} (made : librariesOf convert entries = .ok libraries)
    (nodup : (entries.map Entry.identity).Nodup)
    (tells : ∀ left ∈ entries, ∀ right ∈ entries, ∀ leftLibrary rightLibrary value,
      convert left = .ok leftLibrary → convert right = .ok rightLibrary →
      shown leftLibrary = some value → shown rightLibrary = some value →
      left.identity = right.identity) :
    (libraries.filterMap shown).Nodup := by
  induction entries generalizing libraries with
  | nil =>
      obtain rfl := Except.ok.inj made
      exact List.nodup_nil
  | cons entry rest ih =>
      obtain ⟨library, isLibrary, made⟩ := except_bind_ok made
      obtain ⟨others, areOthers, made⟩ := except_bind_ok made
      obtain rfl := Except.ok.inj made
      obtain ⟨fresh, restNodup⟩ := List.nodup_cons.mp nodup
      have restTells := ih areOthers restNodup fun left isLeft right isRight =>
        tells left (List.mem_cons_of_mem _ isLeft) right (List.mem_cons_of_mem _ isRight)
      cases isShown : shown library with
      | none => rwa [List.filterMap_cons_none isShown]
      | some value =>
          rw [List.filterMap_cons_some isShown]
          refine List.nodup_cons.mpr ⟨?_, restTells⟩
          intro member
          obtain ⟨other, isOther, otherShown⟩ := List.mem_filterMap.mp member
          obtain ⟨source, inRest, isSource⟩ := exists_of_mem_librariesOf areOthers isOther
          have same := tells entry List.mem_cons_self source (List.mem_cons_of_mem _ inRest) library
            other value isLibrary isSource isShown otherShown
          exact fresh (same ▸ List.mem_map_of_mem inRest)

theorem nodup_coordinates
    (made : librariesOf (Entry.library anchors attachments scope) entries = .ok libraries)
    (nodup : (entries.map Entry.identity).Nodup) :
    (libraries.filterMap Library.coordinate?).Nodup :=
  nodup_filterMap_librariesOf made nodup
    fun _ _ _ _ _ _ _ leftMade rightMade isLeft isRight =>
      (identity_of_coordinate? leftMade isLeft).trans
        (identity_of_coordinate? rightMade isRight).symm

theorem nodup_classes (readable : anchors.IsReadable)
    (areRead : ∀ entry ∈ entries, entry.IsRead)
    (made : librariesOf (Entry.library anchors attachments scope) entries = .ok libraries)
    (nodup : (entries.map Entry.identity).Nodup) :
    (libraries.filterMap Library.classes?).Nodup :=
  nodup_filterMap_librariesOf made nodup
    fun left isLeft right isRight _ _ _ leftMade rightMade areLeft areRight =>
      identity_of_classes? readable (areRead left isLeft) (areRead right isRight) leftMade
        rightMade areLeft areRight

/-- The modules among libraries are those of the projects among the entries, in order. -/
theorem filterMap_moduleName?_librariesOf
    (made : librariesOf (Entry.library anchors attachments scope) entries = .ok libraries) :
    libraries.filterMap Library.moduleName? =
      (entries.filterMap Entry.projectPath?).map projectModuleName := by
  induction entries generalizing libraries with
  | nil =>
      obtain rfl := Except.ok.inj made
      rfl
  | cons entry rest ih =>
      obtain ⟨library, isLibrary, made⟩ := except_bind_ok made
      obtain ⟨others, areOthers, made⟩ := except_bind_ok made
      obtain rfl := Except.ok.inj made
      have restNames := ih areOthers
      rcases library_cases isLibrary with ⟨_, _, _, _, rfl, _, rfl⟩ | ⟨_, rfl, rfl⟩ | ⟨_, rfl, rfl⟩
      · exact restNames
      · exact restNames
      · exact congrArg (List.cons _) restNames

theorem eq_of_projectPath? {path : String} (isPath : entry.projectPath? = some path) :
    entry = .reference (.project (.str path)) := by
  unfold Entry.projectPath? at isPath
  split at isPath
  · exact Option.some.inj isPath ▸ rfl
  · exact nomatch isPath

theorem mem_references_of_mem_entries {configuration : Configuration} {reference : Reference}
    (member : .reference reference ∈ configuration.entries) :
    reference ∈ configuration.references := by
  simpa [Configuration.entries] using member

theorem nodup_filterMap_projectPath? (nodup : (entries.map Entry.identity).Nodup) :
    (entries.filterMap Entry.projectPath?).Nodup := by
  have identity_eq {entry : Entry} {path : String} (isPath : entry.projectPath? = some path) :
      entry.identity = "project " ++ path := by
    rw [eq_of_projectPath? isPath]
    rfl
  rw [List.Nodup, List.pairwise_map] at nodup
  apply List.pairwise_filterMap.mpr
  apply nodup.imp
  intro left right differ path isPath other isOther
  rintro rfl
  exact differ ((identity_eq isPath).trans (identity_eq isOther).symm)

end Written

/-! ## Generated directories behind listed files -/

/-- Whether a library has the files of one URL and shows no attachments. -/
def Library.IsPlain (library : Library) : Prop :=
  ∃ scope url, library = .files scope [url] [] []

theorem isPlain_generatedLibraries {settings : ModuleSettings} {anchors : PathVariables}
    {layout : Layout} (made : settings.layout anchors = .ok layout) :
    ∀ library ∈ layout.generatedLibraries, library.IsPlain := by
  obtain ⟨_, _, _, libraries, _⟩ := ModuleSettings.layout_eq made
  intro library member
  rw [libraries] at member
  obtain ⟨found, _, rfl⟩ := List.mem_map.mp (mem_distinct.mp member)
  exact ⟨_, _, rfl⟩

section Pushed

variable {listed generated : List Library}
  (arePlain : ∀ library ∈ generated, library.IsPlain)

include arePlain

/-- What a list shows apart from files is not changed by generated directories. -/
theorem filterMap_foldl_pushNew {β : Type} {shown : Library → Option β}
    (noFiles : ∀ library : Library, library.IsPlain → shown library = none) :
    (generated.foldl pushNew listed).filterMap shown = listed.filterMap shown := by
  have nothing : ((distinct generated).filter (· ∉ listed)).filterMap shown = [] := by
    refine List.filterMap_eq_nil_iff.mpr fun library member => noFiles library ?_
    exact arePlain library (mem_distinct.mp (List.mem_filter.mp member).1)
  rw [foldl_pushNew, List.filterMap_append, nothing, List.append_nil]

/-- A generated directory repeats URLs only of a library with attachments. -/
theorem pairwise_foldl_pushNew (name : String) (nodup : (listed.filterMap Library.classes?).Nodup)
    (listedScope : ∀ library ∈ listed, library.scope = name)
    (generatedScope : ∀ library ∈ generated, library.scope = name) :
    (generated.foldl pushNew listed).Pairwise fun left right => ∀ classes,
      left.classes? = some classes → right.classes? = some classes →
        right ∈ generated ∧ left.ShowsAttachments := by
  have plain {library : Library} (member : library ∈ (distinct generated).filter (· ∉ listed)) :
      library ∈ generated ∧ library ∉ listed ∧ ∃ url, library = .files name [url] [] [] := by
    obtain ⟨isGenerated, isNew⟩ := List.mem_filter.mp member
    have inGenerated := mem_distinct.mp isGenerated
    obtain ⟨scope, url, rfl⟩ := arePlain library inGenerated
    obtain rfl : scope = name := generatedScope _ inGenerated
    exact ⟨inGenerated, by simpa using isNew, url, rfl⟩
  rw [foldl_pushNew]
  refine List.pairwise_append.mpr ⟨?_, ?_, ?_⟩
  · apply (List.pairwise_filterMap.mp nodup).imp
    intro _ _ differ classes areLeft areRight
    exact absurd rfl (differ classes areLeft classes areRight)
  · refine ((nodup_distinct generated).filter _).imp_of_mem ?_
    intro left right isLeft isRight differ classes areLeft areRight
    obtain ⟨_, _, leftUrl, rfl⟩ := plain isLeft
    obtain ⟨_, _, rightUrl, rfl⟩ := plain isRight
    have same := Option.some.inj (areLeft.trans areRight.symm)
    exact absurd (by rw [same]) differ
  · intro left isLeft right isRight classes areLeft areRight
    obtain ⟨isGenerated, isNew, url, rfl⟩ := plain isRight
    obtain rfl := Option.some.inj areRight
    refine ⟨isGenerated, ?_⟩
    cases left with
    | files scope leftClasses javadoc sources =>
        obtain rfl := Option.some.inj areLeft
        obtain rfl : scope = name := listedScope _ isLeft
        by_contra nothingShown
        simp only [Library.ShowsAttachments, not_or, not_not] at nothingShown
        obtain ⟨rfl, rfl⟩ := nothingShown
        exact isNew isLeft
    | unresolved => exact nomatch areLeft
    | otherModule => exact nomatch areLeft

end Pushed

/-! ## Scopes of a module -/

/-- Whether a list of libraries holds nothing twice: each placeholder has a coordinate of its own,
each module comes from a project of its own, and where no name of a path variable holds a dollar
sign, only a generated directory has URLs that stand before it, of files with attachments. -/
structure HoldsOnce (settings : ModuleSettings) (anchors : PathVariables)
    (generated libraries : List Library) : Prop where
  placeholders : (libraries.filterMap Library.coordinate?).Nodup
  modules : ∃ paths : List String, paths.Nodup ∧
    libraries.filterMap Library.moduleName? = paths.map projectModuleName ∧
    ∀ path ∈ paths, ∃ named ∈ settings.configurations,
      .project (.str path) ∈ named.2.references
  files : (∀ entry ∈ anchors.directories.entries, '$' ∉ entry.1.toList) →
    libraries.Pairwise fun left right => ∀ classes, left.classes? = some classes →
      right.classes? = some classes → right ∈ generated ∧ left.ShowsAttachments

theorem exists_of_mem_walkEntries {configurations : Configurations} {names : List String}
    {walk : List Entry} (walked : walkEntries configurations names = .ok walk) {entry : Entry}
    (member : entry ∈ walk) : ∃ named ∈ configurations, entry ∈ named.2.entries := by
  obtain ⟨name, _, configuration, found, isEntry⟩ := (mem_walkEntries walked).mp member
  exact ⟨(name, configuration), Keyed.mem_of_get? found, isEntry⟩

theorem exists_of_flatten {configurations flattened : Configurations}
    (areFlattened : flatten configurations = .ok flattened) :
    ∃ parents, parentNames configurations = .ok parents ∧ flattened =
      configurations.map fun entry =>
        (entry.1, gathered parents configurations entry.1 entry.2) := by
  cases made : parentNames configurations with
  | error failure => simp [flatten, made, Except.map] at areFlattened
  | ok parents => exact ⟨parents, rfl, Except.ok.inj (areFlattened.symm.trans (flatten_eq made))⟩

/-- The entries of flattened configurations are those of the configurations themselves. -/
theorem exists_of_mem_flatten {configurations flattened : Configurations}
    (areFlattened : flatten configurations = .ok flattened) {named : String × Configuration}
    (member : named ∈ flattened) {entry : Entry} (isEntry : entry ∈ named.2.entries) :
    ∃ own ∈ configurations, entry ∈ own.2.entries := by
  obtain ⟨parents, made, rfl⟩ := exists_of_flatten areFlattened
  obtain ⟨own, _, rfl⟩ := List.mem_map.mp member
  obtain ⟨other, found, _, isThere, inFound⟩ := mem_entries_gathered.mp isEntry
  exact ⟨(other, found), Keyed.mem_of_get? isThere, inFound⟩

section Scope

variable {settings : ModuleSettings} {anchors : PathVariables} {configurations : Configurations}
  {name : String} {scope : ClassifiedScope} {listed generated : List Library}

/-- The libraries of a scope hold nothing twice, also with generated directories behind them. -/
theorem holdsOnce_foldl_pushNew
    (areRead : ∀ named ∈ settings.configurations, named.2.IsRead)
    (areOwn : ∀ named ∈ configurations, ∀ entry ∈ named.2.entries,
      ∃ own ∈ settings.configurations, entry ∈ own.2.entries)
    (areListed : AreLibrariesOf anchors settings.attachments configurations name scope listed)
    (arePlain : ∀ library ∈ generated, library.IsPlain) :
    HoldsOnce settings anchors generated
      ((generated.filter (·.scope = name)).foldl pushNew listed) := by
  obtain ⟨walk, chosen, walked, first, made⟩ := areListed
  have isOwn {entry : Entry} (member : entry ∈ chosen) :
      ∃ own ∈ settings.configurations, entry ∈ own.2.entries := by
    obtain ⟨named, isNamed, inNamed⟩ := exists_of_mem_walkEntries walked (first.order.subset member)
    exact areOwn named isNamed entry inNamed
  have isRead : ∀ entry ∈ chosen, entry.IsRead := by
    intro entry member
    obtain ⟨own, isOwn, inOwn⟩ := isOwn member
    exact (areRead own isOwn).entries entry inOwn
  have scopePlain : ∀ library ∈ generated.filter (·.scope = name), library.IsPlain :=
    fun library member => arePlain library (List.mem_filter.mp member).1
  exact {
    placeholders := by
      rw [filterMap_foldl_pushNew scopePlain (by rintro _ ⟨_, _, rfl⟩; rfl)]
      exact nodup_coordinates made first.nodup
    modules := by
      refine ⟨chosen.filterMap Entry.projectPath?, nodup_filterMap_projectPath? first.nodup, ?_, ?_⟩
      · rw [filterMap_foldl_pushNew scopePlain (by rintro _ ⟨_, _, rfl⟩; rfl)]
        exact filterMap_moduleName?_librariesOf made
      · intro path member
        obtain ⟨entry, isChosen, isPath⟩ := List.mem_filterMap.mp member
        obtain ⟨own, isNamed, inOwn⟩ := isOwn isChosen
        rw [eq_of_projectPath? isPath] at inOwn
        exact ⟨own, isNamed, mem_references_of_mem_entries inOwn⟩
    files := by
      intro noDollars
      have inScope : ∀ library ∈ listed, library.scope = name := by
        intro library member
        obtain ⟨entry, _, isLibrary⟩ := exists_of_mem_librariesOf made member
        exact (library_of_entry isLibrary).1
      have pairs := pairwise_foldl_pushNew scopePlain name
        (nodup_classes noDollars isRead made first.nodup) inScope
        fun library member => by simpa using (List.mem_filter.mp member).2
      apply pairs.imp
      intro _ _ holds classes areLeft areRight
      obtain ⟨isGenerated, shows⟩ := holds classes areLeft areRight
      exact ⟨(List.mem_filter.mp isGenerated).1, shows⟩ }

end Scope

/-! ## Generated descriptors -/

/-- Whether the configurations of a module hold only entries that make libraries, and nothing that
is looked up in the module has parts. -/
structure ModuleSettings.IsRegular (settings : ModuleSettings) : Prop where
  configurations : ∀ named ∈ settings.configurations, named.2.IsRegular
  extended : ∀ named ∈ settings.configurations, ∀ value ∈ named.2.extendsFrom,
    value.key?.isSome = true
  references : ReferencesWithoutParts settings.scopes

theorem isRegular_gathered {configurations : Configurations} {parents : ParentNames}
    (regular : ∀ named ∈ configurations, named.2.IsRegular) (name : String) (own : Configuration) :
    (gathered parents configurations name own).IsRegular where
  declared value member := by
    obtain ⟨found, isFound, isDeclared⟩ := List.mem_flatMap.mp member
    obtain ⟨other, _, isThere⟩ := List.mem_filterMap.mp isFound
    exact (regular _ (Keyed.mem_of_get? isThere)).declared value isDeclared
  entries entry member := by
    obtain ⟨other, found, _, isThere, isEntry⟩ := mem_entries_gathered.mp member
    exact (regular _ (Keyed.mem_of_get? isThere)).entries entry isEntry

section Generated

variable {settings : ModuleSettings} {anchors : PathVariables} {context : ProjectContext}
  {layout : Layout} {generated : Descriptor} {lines : List String}

/-- A module of the Java plugin is generated with its libraries and the generated directories. -/
theorem exists_generate_of_libraries {scopes : Scopes} {libraries : ScopedLibraries}
    (isJava : settings.isJava = true) (areScopes : scopesOf settings.scopes = .ok scopes)
    (areLibraries : settings.libraries anchors scopes = .ok libraries) (context : ProjectContext)
    (layout : Layout) : ∃ generated lines,
      Descriptor.generate settings anchors context layout = .ok (generated, lines) ∧
        generated.scopes =
          inScopeOrder scopes (addLibraries libraries layout.generatedLibraries) := by
  rw [Descriptor.generate, if_pos isJava, areScopes]
  dsimp only [bind, Except.bind]
  rw [areLibraries]
  exact ⟨_, _, rfl, rfl⟩

theorem exists_generate (regular : settings.IsRegular) :
    ∃ result, Descriptor.generate settings anchors context layout = .ok result := by
  by_cases isJava : settings.isJava = true
  · obtain ⟨scopes, areScopes, _⟩ := customize_total standardScopes regular.references
    obtain ⟨parents, made⟩ := exists_parentNames regular.extended
    have flattened : ∀ named ∈ settings.configurations.map fun entry =>
        (entry.1, gathered parents settings.configurations entry.1 entry.2),
        named.2.IsRegular := by
      intro named member
      obtain ⟨own, _, rfl⟩ := List.mem_map.mp member
      exact isRegular_gathered regular.configurations own.1 own.2
    obtain ⟨libraries, built⟩ := exists_buildLibraries flattened anchors settings.attachments
      (classify scopes _)
    have areLibraries : settings.libraries anchors scopes = .ok libraries :=
      except_bind_eq_ok_iff.mpr ⟨_, flatten_eq made, built⟩
    obtain ⟨generated, lines, isGenerated, _⟩ :=
      exists_generate_of_libraries isJava areScopes areLibraries context layout
    exact ⟨_, isGenerated⟩
  · exact ⟨_, by rw [Descriptor.generate, if_neg isJava]⟩

/-- The scopes of a generated descriptor hold the libraries of their entries and, behind them, the
directories that are generated for them. -/
theorem exists_libraries_of_generate
    (made : Descriptor.generate settings anchors context layout = .ok (generated, lines))
    {named : String × List Library} (member : named ∈ generated.scopes) :
    ∃ configurations scope listed, flatten settings.configurations = .ok configurations ∧
      AreLibrariesOf anchors settings.attachments configurations named.1 scope listed ∧
      named.2 = (layout.generatedLibraries.filter (·.scope = named.1)).foldl pushNew listed := by
  unfold Descriptor.generate at made
  split at made
  · obtain ⟨scopes, customized, made⟩ := except_bind_ok made
    obtain ⟨libraries, librariesMade, made⟩ := except_bind_ok made
    obtain ⟨configurations, areFlattened, built⟩ := except_bind_ok librariesMade
    obtain ⟨rfl, rfl⟩ := Prod.mk.inj (Except.ok.inj made)
    obtain ⟨_, each⟩ := libraries_of_supplied (nodup_keys_classify scopes configurations)
      (areSupplied_classify scopes configurations) built
    obtain ⟨name, isScope, found⟩ := List.mem_filterMap.mp member
    obtain ⟨held, isHeld, rfl⟩ := Option.map_eq_some_iff.mp found
    rw [← keys_classify scopes configurations, Keyed.mem_keys_iff] at isScope
    obtain ⟨scope, isScope⟩ := isScope
    refine ⟨configurations, scope, _, areFlattened, each _ (Keyed.mem_of_get? isScope), ?_⟩
    rw [← getD_addLibraries, isHeld]
    rfl
  · obtain ⟨rfl, rfl⟩ := Prod.mk.inj (Except.ok.inj made)
    exact absurd member List.not_mem_nil

end Generated

/-- A module that is read from data has its descriptor generated if it is regular; and whenever it
is generated, no scope of it holds anything twice. -/
theorem generated_scopes_hold_once {isDirectory : Path → Bool} {start directory source : Path}
    {data : Json.Value} {build : Build}
    (read : Build.ofData isDirectory start directory source data = .ok build)
    {settings : ModuleSettings} (member : settings ∈ build.modules) {layout : Layout}
    (isLayout : settings.layout (settings.anchors start build.pathVariables) = .ok layout)
    (context : ProjectContext) :
    (settings.IsRegular → ∃ result, Descriptor.generate settings
      (settings.anchors start build.pathVariables) context layout = .ok result) ∧
    ∀ generated lines, Descriptor.generate settings (settings.anchors start build.pathVariables)
        context layout = .ok (generated, lines) →
      ∀ named ∈ generated.scopes, HoldsOnce settings
        (settings.anchors start build.pathVariables) layout.generatedLibraries named.2 := by
  constructor
  · exact exists_generate
  intro generated lines made named isNamed
  obtain ⟨configurations, scope, listed, areFlattened, areListed, same⟩ :=
    exists_libraries_of_generate made isNamed
  rw [same]
  exact holdsOnce_foldl_pushNew (Build.isRead_of_ofData read member)
    (fun _ isFlattened _ isEntry => exists_of_mem_flatten areFlattened isFlattened isEntry)
    areListed (isPlain_generatedLibraries isLayout)

/-! ## Scopes of read modules -/

section Scopes

open Json (Value)

/-- A file, a notation that could not be resolved, and a project. -/
def variedConfiguration : Configuration :=
  { Configuration.empty "compile" with
    declared := [.str "files(a.jar)", .str "g:n:1", .str ":b"]
    artifacts := [⟨some ⟨.single, ["ws", "a.jar"], by decide⟩, none, none, none, .null, none, none,
      .str "files(a.jar)"⟩]
    unresolved := [notedDependency "g:n:1" "g" "n" (some "1")]
    references := [.project (.str ":b")] }

theorem isRegular_variedConfiguration : (compiledModule variedConfiguration).IsRegular where
  configurations named member := by
    obtain rfl := List.mem_singleton.mp member
    constructor
    · decide
    intro entry isEntry
    simp only [variedConfiguration, Configuration.entries, List.map_cons, List.map_nil,
      List.cons_append, List.nil_append, List.mem_cons, List.not_mem_nil, or_false] at isEntry
    rcases isEntry with rfl | rfl | rfl
    · exact ⟨rfl, rfl⟩
    · exact ⟨trivial, rfl⟩
    · exact ⟨⟨_, rfl⟩, rfl⟩
  extended named member value isValue := by
    obtain rfl := List.mem_singleton.mp member
    exact absurd isValue List.not_mem_nil
  references _ member := absurd member List.not_mem_nil

theorem libraries_variedConfiguration :
    (compiledModule variedConfiguration).libraries
      ((compiledModule variedConfiguration).anchors Path.workspace ∅) standardScopes =
        .ok [("COMPILE", [.files "COMPILE" ["jar://$MODULE_DIR$/a.jar!/"] [] [],
          .unresolved "COMPILE" "g" "n" (some "1"), .otherModule "COMPILE" "b"])] := by
  have keys : keysOf variedConfiguration.declared =
      .ok [.str "files(a.jar)", .str "g:n:1", .str ":b"] := rfl
  have ordered := declarationOrder_of_ordered keys rfl (by decide)
  exact libraries_compiledModule rfl ordered (by decide +kernel) rfl

/-- A scope with a file, a placeholder and a module, which it holds once. -/
theorem varied_scope_holds_once : ∃ layout generated lines,
    IsReadTo [.obj [("files", .arr [.str "a.jar"])], missingNotation "g:n:1",
      .obj [("project", .str ":b")]] (compiledBuild variedConfiguration) ∧
    (compiledModule variedConfiguration).IsRegular ∧
    Descriptor.generate (compiledModule variedConfiguration)
      ((compiledModule variedConfiguration).anchors Path.workspace ∅)
      ⟨none, false⟩ layout = .ok (generated, lines) ∧
    generated.scopes = [("COMPILE", [.files "COMPILE" ["jar://$MODULE_DIR$/a.jar!/"] [] [],
      .unresolved "COMPILE" "g" "n" (some "1"), .otherModule "COMPILE" "b"])] ∧
    ∀ named ∈ generated.scopes, HoldsOnce (compiledModule variedConfiguration)
      ((compiledModule variedConfiguration).anchors Path.workspace ∅)
      layout.generatedLibraries named.2 := by
  let settings := compiledModule variedConfiguration
  let anchors := settings.anchors Path.workspace ∅
  have read : IsReadTo [.obj [("files", .arr [.str "a.jar"])], missingNotation "g:n:1",
      .obj [("project", .str ":b")]] (compiledBuild variedConfiguration) := rfl
  obtain ⟨layout, isLayout⟩ : ∃ layout, settings.layout anchors = .ok layout := ⟨_, rfl⟩
  have noneGenerated : (settings.layout anchors).map Layout.generatedLibraries = .ok [] := rfl
  rw [isLayout] at noneGenerated
  have areLibraries : settings.libraries anchors standardScopes =
      .ok [("COMPILE", [.files "COMPILE" ["jar://$MODULE_DIR$/a.jar!/"] [] [],
        .unresolved "COMPILE" "g" "n" (some "1"), .otherModule "COMPILE" "b"])] :=
    libraries_variedConfiguration
  obtain ⟨isGenerated, once⟩ := generated_scopes_hold_once read
    (List.mem_singleton_self settings) isLayout ⟨none, false⟩
  obtain ⟨⟨generated, lines⟩, made⟩ := isGenerated isRegular_variedConfiguration
  have isJava : settings.isJava = true := rfl
  obtain ⟨other, otherLines, otherMade, areScopes⟩ :=
    exists_generate_of_libraries isJava rfl areLibraries ⟨none, false⟩ layout
  refine ⟨layout, generated, lines, read, isRegular_variedConfiguration, made, ?_,
    once generated lines made⟩
  obtain ⟨rfl, rfl⟩ := Prod.mk.inj (Except.ok.inj (made.symm.trans otherMade))
  rw [areScopes, Except.ok.inj noneGenerated]
  rfl

def moduleData (fields : List (String × Value)) : Value :=
  .obj [("modules", .arr [.obj (("name", .str "a") :: fields)])]

/-- The field of a module that declares the dependencies of one configuration. -/
def dependenciesField (name : String) (dependencies : List Value) : String × Value :=
  ("configurations", .obj [(name, .obj [("dependencies", .arr dependencies)])])

/-- Whether the data of a module in a workspace are read to its settings. -/
def IsModuleReadTo (fields : List (String × Value)) (settings : ModuleSettings) : Prop :=
  ReadsTo (moduleData fields) ⟨Path.workspace, [settings], none, ∅⟩

/-- Whether the data of a module are read and generated, and a scope shows something twice. -/
def Repeats {β : Type} (shown : Library → Option β) (fields : List (String × Value)) : Prop :=
  ∃ settings layout generated lines, IsModuleReadTo fields settings ∧
    settings.layout (settings.anchors Path.workspace ∅) = .ok layout ∧
    Descriptor.generate settings (settings.anchors Path.workspace ∅)
      ⟨none, false⟩ layout = .ok (generated, lines) ∧
    ∃ named ∈ generated.scopes, ¬(named.2.filterMap shown).Nodup

section Repeated

variable {β : Type} {shown : Library → Option β} {fields : List (String × Value)}
  {settings : ModuleSettings} {generated : List Library} {libraries : ScopedLibraries}

theorem repeats_of (read : IsModuleReadTo fields settings) (isJava : settings.isJava = true)
    (areScopes : scopesOf settings.scopes = .ok standardScopes)
    (areGenerated : (settings.layout (settings.anchors Path.workspace ∅)).map
      Layout.generatedLibraries = .ok generated)
    (areLibraries : settings.libraries (settings.anchors Path.workspace ∅)
      standardScopes = .ok libraries)
    (twice : ∃ named ∈ inScopeOrder standardScopes (addLibraries libraries generated),
      ¬(named.2.filterMap shown).Nodup) : Repeats shown fields := by
  cases isLayout : settings.layout (settings.anchors Path.workspace ∅) with
  | error failure =>
      rw [isLayout] at areGenerated
      exact nomatch areGenerated
  | ok layout =>
      rw [isLayout] at areGenerated
      obtain rfl := Except.ok.inj areGenerated
      obtain ⟨descriptor, lines, made, scopes⟩ :=
        exists_generate_of_libraries isJava areScopes areLibraries ⟨none, false⟩ layout
      exact ⟨settings, layout, descriptor, lines, read, isLayout, made, by rwa [scopes]⟩

end Repeated

/-- Two projects of one name. -/
def projectFields : List (String × Value) :=
  [dependenciesField "compile"
    [.obj [("project", .str ":x:core")], .obj [("project", .str ":y:core")]]]

def projectConfiguration : Configuration :=
  { Configuration.empty "compile" with
    declared := [.str ":x:core", .str ":y:core"]
    references := [.project (.str ":x:core"), .project (.str ":y:core")] }

theorem repeats_projects : Repeats Library.moduleName? projectFields := by
  have read : IsModuleReadTo projectFields (compiledModule projectConfiguration) := rfl
  have keys : keysOf projectConfiguration.declared = .ok [.str ":x:core", .str ":y:core"] := rfl
  have ordered := declarationOrder_of_ordered keys rfl (by decide)
  have areLibraries : (compiledModule projectConfiguration).libraries
      ((compiledModule projectConfiguration).anchors Path.workspace ∅) standardScopes =
        .ok [("COMPILE", [.otherModule "COMPILE" "core", .otherModule "COMPILE" "core"])] :=
    libraries_compiledModule rfl ordered (by decide +kernel) rfl
  exact repeats_of read rfl rfl rfl areLibraries ⟨_, List.mem_singleton_self _, by decide⟩

/-- A generated directory that a dependency lists with its sources. -/
def directoryFields : List (String × Value) :=
  [("sourceSets", .obj [("main", .obj [("outputDirs", .arr [.str "gen"])])]),
    dependenciesField "runtime"
      [.obj [("files", .arr [.str "gen"]), ("sources", .str "gen-src")]]]

def directorySettings : ModuleSettings :=
  { ModuleSettings.ofNameAndDirectory (.str "a") Path.workspace with
    sourceSets := [⟨"main", [], [(some ⟨.single, ["ws", "gen"], by decide⟩, .null)]⟩]
    configurations := [("runtime", { Configuration.empty "runtime" with
      declared := [.str "files(gen)"]
      artifacts := [⟨some ⟨.single, ["ws", "gen"], by decide⟩, none, none, none, .null,
        some ⟨.single, ["ws", "gen-src"], by decide⟩, none, .str "files(gen)"⟩] })] }

theorem repeats_directories : Repeats Library.classes? directoryFields := by
  have read : IsModuleReadTo directoryFields directorySettings := rfl
  have areGenerated : (directorySettings.layout
      (directorySettings.anchors Path.workspace ∅)).map Layout.generatedLibraries =
        .ok [.files "RUNTIME" ["file://$MODULE_DIR$/gen"] [] []] := by
    decide +kernel
  have areLibraries : directorySettings.libraries
      (directorySettings.anchors Path.workspace ∅) standardScopes =
        .ok [("RUNTIME", [.files "RUNTIME" ["file://$MODULE_DIR$/gen"] []
          ["file://$MODULE_DIR$/gen-src"]])] := by
    decide +kernel
  exact repeats_of read rfl rfl areGenerated areLibraries
    ⟨_, List.mem_singleton_self _, by decide⟩

/-- Two files, and variables of which one has a dollar sign in its name. -/
def variableFields : List (String × Value) :=
  [("idea", .obj [("pathVariables", .obj [("A", .str "/x"), ("A$/b", .str "/y")])]),
    dependenciesField "compile"
      [.obj [("files", .arr [.str "/x/b$"])], .obj [("files", .arr [.str "/y"])]]]

def variableConfiguration : Configuration :=
  { Configuration.empty "compile" with
    declared := [.str "files(/x/b$)", .str "files(/y)"]
    artifacts := [⟨some ⟨.single, ["x", "b$"], by decide⟩, none, none, none, .null, none, none,
        .str "files(/x/b$)"⟩,
      ⟨some PathVariables.dollarDirectory, none, none, none, .null, none, none,
        .str "files(/y)"⟩] }

def variableSettings : ModuleSettings :=
  { compiledModule variableConfiguration with
    pathVariables := .ofPairs PathVariables.dollarPairs }

theorem repeats_variables : Repeats Library.classes? variableFields := by
  have read : IsModuleReadTo variableFields variableSettings := rfl
  have keys : keysOf variableConfiguration.declared =
      .ok [.str "files(/x/b$)", .str "files(/y)"] := rfl
  have ordered := declarationOrder_of_ordered keys rfl (by decide)
  have areLibraries : variableSettings.libraries
      (variableSettings.anchors Path.workspace ∅) standardScopes =
        .ok [("COMPILE", [.files "COMPILE" ["file://$A$/b$"] [] [],
          .files "COMPILE" ["file://$A$/b$"] [] []])] :=
    libraries_compiledModule rfl ordered (by decide +kernel) rfl
  exact repeats_of read rfl rfl rfl areLibraries ⟨_, List.mem_singleton_self _, by decide⟩

/-- Scopes show the module of two projects of one name, a generated directory behind its listed
file with sources, and two files of one URL where a variable has a dollar sign in its name. -/
theorem scopes_repeat_modules_and_files :
    Repeats Library.moduleName? projectFields ∧ Repeats Library.classes? directoryFields ∧
      Repeats Library.classes? variableFields :=
  ⟨repeats_projects, repeats_directories, repeats_variables⟩

end Scopes

end IdeModules
