import IdeModules.Proofs.FirstPlaces
import IdeModules.Proofs.OrderEntries

/-!
# Reported placeholders

A placeholder of a scope comes from an unresolved dependency that some configuration has of its
own: flattening takes entries over from other configurations, and neither a customization of scopes
nor a generated directory adds one.  So the lines that report the placeholders of a descriptor are
in the order in which the configurations declare their coordinates, each once, and what is reported
in the order of scopes behind them is nothing.
-/

namespace IdeModules

/-- The coordinates of the unresolved dependencies that configurations have of their own. -/
def declaredCoordinates (configurations : Configurations) : List String :=
  (Keyed.values configurations).flatMap fun configuration =>
    configuration.unresolved.map UnresolvedDependency.coordinate

/-- Whether a scope holds a placeholder of a coordinate. -/
def HoldsPlaceholder (scopes : ScopedLibraries) (coordinate : String) : Prop :=
  ∃ named ∈ scopes, ∃ library ∈ named.2, library.coordinate? = some coordinate

/-- Whether lines report the coordinates of the placeholders of scopes, each once and in the order
of the first places where configurations declare them, and no other coordinate. -/
structure ReportPlaceholders (configurations : Configurations) (scopes : ScopedLibraries)
    (lines : List String) : Prop where
  order : ∃ coordinates, lines = coordinates.map diagnosticLine ∧
    FirstPlaces (HoldsPlaceholder scopes) (declaredCoordinates configurations) coordinates
  once : ∀ coordinate, HoldsPlaceholder scopes coordinate →
    lines.count (diagnosticLine coordinate) = 1
  never : ∀ coordinate, ¬HoldsPlaceholder scopes coordinate →
    diagnosticLine coordinate ∉ lines

theorem diagnosticLine_injective : Function.Injective diagnosticLine :=
  fun _ _ same => String.append_right_inj _ |>.mp same

section Placed

variable {scopes : ScopedLibraries} {configurations : Configurations} {coordinate : String}

theorem mem_placeholderCoordinates_iff :
    coordinate ∈ placeholderCoordinates scopes ↔ HoldsPlaceholder scopes coordinate := by
  simp only [placeholderCoordinates, Keyed.values, List.mem_flatMap, List.mem_filterMap,
    List.mem_map, HoldsPlaceholder]
  constructor
  · rintro ⟨_, ⟨named, member, rfl⟩, holds⟩
    exact ⟨named, member, holds⟩
  · rintro ⟨named, member, holds⟩
    exact ⟨_, ⟨named, member, rfl⟩, holds⟩

theorem mem_declaredCoordinates {named : String × Configuration} (member : named ∈ configurations)
    {dependency : UnresolvedDependency} (isUnresolved : dependency ∈ named.2.unresolved) :
    dependency.coordinate ∈ declaredCoordinates configurations :=
  List.mem_flatMap.mpr ⟨named.2, List.mem_map_of_mem member, List.mem_map_of_mem isUnresolved⟩

/-- Placeholders that are all declared are reported in the order of their declarations. -/
theorem diagnostics_of_declared
    (declared : ∀ coordinate, HoldsPlaceholder scopes coordinate →
      coordinate ∈ declaredCoordinates configurations) :
    ∃ coordinates, diagnostics scopes configurations = coordinates.map diagnosticLine ∧
      FirstPlaces (HoldsPlaceholder scopes) (declaredCoordinates configurations) coordinates := by
  let placed := placeholderCoordinates scopes
  have noneBehind : (distinct (placed.filter (· ∈ placed))).filter
      (· ∉ (declaredCoordinates configurations).filter (· ∈ placed)) = [] := by
    apply List.filter_eq_nil_iff.mpr
    intro coordinate member
    obtain ⟨_, isPlaced⟩ := List.mem_filter.mp (mem_distinct.mp member)
    have isDeclared := declared coordinate
      (mem_placeholderCoordinates_iff.mp (of_decide_eq_true isPlaced))
    simpa using ⟨isDeclared, of_decide_eq_true isPlaced⟩
  have places := firstPlaces_distinct_filter (· ∈ placed) (declaredCoordinates configurations)
  refine ⟨_, ?_, fun coordinate => (places.mem_iff coordinate).trans
    (and_congr_right' mem_placeholderCoordinates_iff), places.order⟩
  have split : distinct ((declaredCoordinates configurations ++ placed).filter (· ∈ placed)) =
      distinct ((declaredCoordinates configurations).filter (· ∈ placed)) := by
    rw [List.filter_append, distinct_append, noneBehind, List.append_nil]
  exact congrArg (List.map diagnosticLine) split

/-- Lines in the order of declarations report each placeholder once. -/
theorem reportPlaceholders_of_order {lines : List String}
    (declared : ∀ coordinate, HoldsPlaceholder scopes coordinate →
      coordinate ∈ declaredCoordinates configurations)
    (order : ∃ coordinates, lines = coordinates.map diagnosticLine ∧
      FirstPlaces (HoldsPlaceholder scopes) (declaredCoordinates configurations) coordinates) :
    ReportPlaceholders configurations scopes lines where
  order := order
  once coordinate holds := by
    obtain ⟨coordinates, rfl, places⟩ := order
    rw [List.count_map_of_injective _ _ diagnosticLine_injective]
    exact places.count_eq_one (declared coordinate holds) holds
  never coordinate holdsNone member := by
    obtain ⟨coordinates, rfl, places⟩ := order
    rw [List.mem_map_of_injective diagnosticLine_injective] at member
    exact holdsNone ((places.mem_iff coordinate).mp member).2

end Placed

section Generated

variable {settings : ModuleSettings} {anchors : PathVariables} {context : ProjectContext}
  {layout : Layout} {generated : Descriptor} {lines : List String}

theorem lines_of_generate
    (made : Descriptor.generate settings anchors context layout = .ok (generated, lines)) :
    lines = diagnostics generated.scopes settings.configurations := by
  unfold Descriptor.generate at made
  split at made
  · obtain ⟨scopes, _, made⟩ := except_bind_ok made
    obtain ⟨libraries, _, made⟩ := except_bind_ok made
    obtain ⟨rfl, rfl⟩ := Prod.mk.inj (Except.ok.inj made)
    rfl
  · obtain ⟨rfl, rfl⟩ := Prod.mk.inj (Except.ok.inj made)
    simp [diagnostics, placeholderCoordinates, Descriptor.ofLayout, Descriptor.ofName, Keyed.values,
      distinct]

/-- The placeholder of a scope is an unresolved dependency that a configuration has of its own. -/
theorem declared_of_holdsPlaceholder (isLayout : settings.layout anchors = .ok layout)
    (made : Descriptor.generate settings anchors context layout = .ok (generated, lines))
    {coordinate : String} (holds : HoldsPlaceholder generated.scopes coordinate) :
    coordinate ∈ declaredCoordinates settings.configurations := by
  obtain ⟨named, isNamed, library, member, isCoordinate⟩ := holds
  obtain ⟨configurations, scope, listed, areFlattened, ⟨walk, chosen, walked, first, areListed⟩,
    same⟩ := exists_libraries_of_generate made isNamed
  have arePlain : ∀ library ∈ layout.generatedLibraries.filter (·.scope = named.1),
      library.IsPlain := fun library isKept =>
    isPlain_generatedLibraries isLayout library (List.mem_filter.mp isKept).1
  have isShown : coordinate ∈ listed.filterMap Library.coordinate? := by
    rw [← filterMap_foldl_pushNew arePlain (by rintro _ ⟨_, _, rfl⟩; rfl), ← same]
    exact List.mem_filterMap.mpr ⟨library, member, isCoordinate⟩
  obtain ⟨placeholder, isListed, isCoordinate⟩ := List.mem_filterMap.mp isShown
  obtain ⟨entry, isChosen, isLibrary⟩ := exists_of_mem_librariesOf areListed isListed
  obtain ⟨flattened, isFlattened, isEntry⟩ :=
    exists_of_mem_walkEntries walked (first.order.subset isChosen)
  obtain ⟨own, isOwn, inOwn⟩ := exists_of_mem_flatten areFlattened isFlattened isEntry
  obtain ⟨dependency, rfl, rfl⟩ := unresolved_of_coordinate? isLibrary isCoordinate
  have isUnresolved : dependency ∈ own.2.unresolved := by
    simpa [Configuration.entries] using inOwn
  exact mem_declaredCoordinates isOwn isUnresolved

/-- A module has its descriptor generated if it is regular; and whenever it is generated, its
lines report the placeholders of the descriptor in the order of their declarations. -/
theorem generated_lines_report_placeholders (isLayout : settings.layout anchors = .ok layout)
    (context : ProjectContext) :
    (settings.IsRegular →
      ∃ result, Descriptor.generate settings anchors context layout = .ok result) ∧
    ∀ generated lines,
      Descriptor.generate settings anchors context layout = .ok (generated, lines) →
        ReportPlaceholders settings.configurations generated.scopes lines := by
  refine ⟨exists_generate, ?_⟩
  intro generated lines made
  have declared coordinate (holds : HoldsPlaceholder generated.scopes coordinate) :=
    declared_of_holdsPlaceholder isLayout made holds
  refine reportPlaceholders_of_order declared ?_
  rw [lines_of_generate made]
  exact diagnostics_of_declared declared

end Generated

def missingConfiguration (name artifact : String) : Configuration :=
  { Configuration.empty name with
    declared := [.str (coordinate "g" artifact (some "1"))]
    unresolved := [notedDependency (coordinate "g" artifact (some "1")) "g" artifact (some "1")] }

theorem isRegular_missingConfiguration (name artifact : String) :
    (missingConfiguration name artifact).IsRegular where
  declared value member := by
    obtain rfl := List.mem_singleton.mp member
    rfl
  entries entry member := by
    obtain rfl := List.mem_singleton.mp member
    exact ⟨trivial, rfl⟩

/-- A module with a configuration that is declared before those of scopes that come earlier, one
that no scope takes entries from, and two with one dependency. -/
def reportedSettings : ModuleSettings :=
  { ModuleSettings.ofNameAndDirectory (.str "a") Path.workspace with
    configurations := [("testRuntime", missingConfiguration "testRuntime" "late"),
      ("other", missingConfiguration "other" "unused"),
      ("extra", missingConfiguration "extra" "shared"),
      ("compile", missingConfiguration "compile" "shared")]
    scopes := [("TEST", ⟨[.str "extra"], []⟩)] }

theorem isRegular_reportedSettings : reportedSettings.IsRegular where
  configurations named member := by
    simp only [reportedSettings, List.mem_cons, List.not_mem_nil, or_false] at member
    rcases member with rfl | rfl | rfl | rfl <;> exact isRegular_missingConfiguration _ _
  extended named member value isValue := by
    simp only [reportedSettings, List.mem_cons, List.not_mem_nil, or_false] at member
    rcases member with rfl | rfl | rfl | rfl <;> exact absurd isValue List.not_mem_nil
  references := by decide

theorem reported_lines_report_placeholders :
    let anchors := reportedSettings.anchors Path.workspace ∅
    ∃ layout generated lines, reportedSettings.layout anchors = .ok layout ∧
      reportedSettings.IsRegular ∧
      Descriptor.generate reportedSettings anchors ⟨none, false⟩ layout = .ok (generated, lines) ∧
      lines = ["Could not resolve: g:late:1", "Could not resolve: g:shared:1"] ∧
      ReportPlaceholders reportedSettings.configurations generated.scopes lines := by
  intro anchors
  obtain ⟨layout, isLayout⟩ : ∃ layout, reportedSettings.layout anchors = .ok layout := ⟨_, rfl⟩
  obtain ⟨isGenerated, report⟩ := generated_lines_report_placeholders isLayout ⟨none, false⟩
  obtain ⟨⟨generated, lines⟩, made⟩ := isGenerated isRegular_reportedSettings
  refine ⟨layout, generated, lines, isLayout, isRegular_reportedSettings, made, ?_,
    report generated lines made⟩
  have reported : ((reportedSettings.layout anchors).bind fun layout =>
      (Descriptor.generate reportedSettings anchors ⟨none, false⟩ layout).map Prod.snd) =
        .ok ["Could not resolve: g:late:1", "Could not resolve: g:shared:1"] := by
    decide +kernel
  rw [isLayout, Except.bind, made] at reported
  exact Except.ok.inj reported

end IdeModules
