import IdeModules.Proofs.OrderEntries
import IdeModules.Proofs.Descriptor.RoundTrip

/-!
# Stated levels

The name of a level is a compatibility text again, and it means the version that it was made of.
So two levels have one name just where they are of one version, and a module that leaves its level
out has the version that its project provides.
-/

namespace IdeModules

/-! ## Decimal numerals -/

/-- Every number is written in decimal digits, and these are the digits of its numeral. -/
theorem exists_decimalDigits (number : Nat) :
    ∃ digits, Nat.toDigits 10 number = digits.map Nat.digitChar ∧ digits ≠ [] ∧
      (∀ digit ∈ digits, digit < 10) ∧ numeral digits = number := by
  induction number using Nat.strongRecOn with
  | ind number ih =>
      rw [Nat.toDigits_eq_if (by decide)]
      by_cases small : number < 10
      · rw [if_pos small]
        exact ⟨[number], rfl, List.cons_ne_nil _ _, by simpa using small, by simp [numeral]⟩
      · obtain ⟨digits, written, _, areDigits, isNumber⟩ :=
          ih (number / 10) (Nat.div_lt_self (by omega) (by decide))
        have last : number % 10 < 10 := Nat.mod_lt number (by decide)
        rw [if_neg small]
        refine ⟨digits ++ [number % 10], by rw [written, List.map_append]; rfl, by simp, ?_, ?_⟩
        · simpa [or_imp, forall_and, last] using areDigits
        · have split : numeral (digits ++ [number % 10]) = 10 * numeral digits + number % 10 :=
            List.foldl_append
          rw [split, isNumber, Nat.div_add_mod]

theorem digitValue?_digitChar : ∀ digit < 10, digitValue? (Nat.digitChar digit) = some digit := by
  decide

theorem takeDigits_decimalDigits {digits : List Nat} (areDigits : ∀ digit ∈ digits, digit < 10) :
    takeDigits (digits.map Nat.digitChar) = (digits, []) := by
  induction digits with
  | nil => rfl
  | cons digit rest ih =>
      obtain ⟨isDigit, others⟩ := List.forall_mem_cons.mp areDigits
      rw [List.map_cons, takeDigits, digitValue?_digitChar digit isDigit, ih others]

namespace LanguageLevel

/-! ## Versions of levels -/

theorem trimBoth_of_forall {drop : Char → Bool} {cs : List Char}
    (kept : ∀ c ∈ cs, drop c = false) : trimBoth drop cs = cs := by
  have unchanged : ∀ list : List Char, (∀ c ∈ list, drop c = false) →
      list.dropWhile drop = list := by
    intro list none
    cases list with
    | nil => rfl
    | cons c rest => exact List.dropWhile_cons_of_neg (by simp [none c List.mem_cons_self])
  rw [trimBoth, unchanged cs kept, trimRight, unchanged cs.reverse, List.reverse_reverse]
  exact fun c member => kept c (List.mem_reverse.mp member)

/-- Reading a level leaves the digits of its number alone. -/
theorem digitChar_kept : ∀ digit < 10, isBlank (Nat.digitChar digit) = false ∧
    capital (Nat.digitChar digit) = Nat.digitChar digit ∧ Nat.digitChar digit ≠ '_' := by
  decide

/-- Only the digits of a level are left of its name. -/
theorem versionChars_of_digits {text : String} {digits : List Nat}
    (areDigits : ∀ digit ∈ digits, digit < 10)
    (isText : text.toList = "JDK_".toList ++ digits.map Nat.digitChar) :
    versionChars text = digits.map Nat.digitChar := by
  have wordKept : "JDK_".toList.all (fun c => decide (isBlank c = false ∧ capital c = c)) =
      true := by
    decide
  have inWord : ∀ c ∈ "JDK_".toList, isBlank c = false ∧ capital c = c :=
    fun c member => of_decide_eq_true (List.all_eq_true.mp wordKept c member)
  have kept : ∀ c ∈ "JDK_".toList ++ digits.map Nat.digitChar,
      isBlank c = false ∧ capital c = c := by
    rw [List.forall_mem_append, List.forall_mem_map]
    refine ⟨inWord, ?_⟩
    intro digit member
    obtain ⟨notBlank, isCapital, _⟩ := digitChar_kept digit (areDigits digit member)
    exact ⟨notBlank, isCapital⟩
  have capitals : ("JDK_".toList ++ digits.map Nat.digitChar).map capital =
      "JDK_".toList ++ digits.map Nat.digitChar :=
    (List.map_congr_left fun c member => (kept c member).2).trans (List.map_id _)
  have points : pointed (digits.map Nat.digitChar) = digits.map Nat.digitChar := by
    rw [pointed, List.map_map]
    exact List.map_congr_left fun digit member =>
      if_neg (digitChar_kept digit (areDigits digit member)).2.2
  rw [versionChars, isText, trimBoth_of_forall fun c member => (kept c member).1, capitals,
    stripWord_append]
  exact points

theorem version?_ofVersion (version : Nat) : version? (ofVersion version) = some version := by
  by_cases large : 10 ≤ version
  · obtain ⟨digits, written, nonempty, areDigits, isVersion⟩ := exists_decimalDigits version
    have isText : (ofVersion version).toList = "JDK_".toList ++ digits.map Nat.digitChar := by
      rw [ofVersion, if_pos large, String.toList_append, Nat.toList_repr, written]
    obtain ⟨digit, rest, rfl⟩ := List.exists_cons_of_ne_nil nonempty
    rw [version?, versionChars_of_digits areDigits isText, leadingVersion,
      takeDigits_decimalDigits areDigits, ← isVersion]
  · have small : ∀ older < 10, version? (ofVersion older) = some older := by decide +kernel
    exact small version (by omega)

theorem bind_version?_ofText (text : String) : (ofText text).bind version? = version? text := by
  rw [ofText]
  cases version? text with
  | none => rfl
  | some version => rw [Option.map_some, Option.bind_some, version?_ofVersion]

theorem bind_version?_ofOptional (text : Option String) :
    (ofOptional text).bind version? = text.bind version? := by
  cases text with
  | none => rfl
  | some text => rw [ofOptional, Option.bind_some, Option.bind_some, bind_version?_ofText]

theorem ofOptional_eq_map (text : Option String) :
    ofOptional text = (text.bind version?).map ofVersion := by
  cases text with
  | none => rfl
  | some text => rw [ofOptional, Option.bind_some, Option.bind_some, ofText]

theorem ofOptional_inj {text other : Option String} :
    ofOptional text = ofOptional other ↔ text.bind version? = other.bind version? := by
  constructor
  · intro same
    rw [← bind_version?_ofOptional text, same, bind_version?_ofOptional]
  · intro same
    rw [ofOptional_eq_map, ofOptional_eq_map, same]

/-- A module states the level of its version, except where its project provides that version. -/
theorem ofModule_of_version {own project : Option String} {version : Nat}
    (means : own.bind version? = some version) (hasBaseline : Bool) :
    ofModule own project hasBaseline =
      if hasBaseline = true ∧ project.bind version? = some version then none
      else some (ofVersion version) := by
  have level : ofOptional own = some (ofVersion version) := by
    rw [ofOptional_eq_map, means]
    rfl
  have same : some (ofVersion version) = ofOptional project ↔
      project.bind version? = some version := by
    rw [← level, ofOptional_inj, means, eq_comm]
  simp only [ofModule, level, Bool.and_eq_true, beq_iff_eq, same]

end LanguageLevel

open LanguageLevel (version? ofVersion)

namespace Build

/-! ## The level of a project -/

/-- Whether a version is that of a Java module of a build, and none of them has a higher one. -/
structure IsHighest (build : Build) (highest : Nat) : Prop where
  attained : ∃ settings ∈ build.modules, settings.isJava = true ∧
    settings.sourceCompatibility.bind version? = some highest
  bounds : ∀ settings ∈ build.modules, settings.isJava = true →
    ∀ version, settings.sourceCompatibility.bind version? = some version → version ≤ highest

/-- The recognized versions of the Java modules. -/
theorem mem_versions_iff {build : Build} {version : Nat} :
    version ∈ ((build.modules.filter ModuleSettings.isJava).map
        ModuleSettings.sourceCompatibility).filterMap (fun text => text.bind version?) ↔
      ∃ settings ∈ build.modules, settings.isJava = true ∧
        settings.sourceCompatibility.bind version? = some version := by
  rw [List.filterMap_map, List.mem_filterMap]
  simp only [List.mem_filter, and_assoc, Function.comp_apply]

/-- A project that states no level provides the highest version of the Java modules. -/
theorem exists_highest {build : Build} {project : ProjectSettings}
    (isProject : build.project = some project) (unstated : project.languageLevel = none)
    {settings : ModuleSettings} (member : settings ∈ build.modules)
    (isJava : settings.isJava = true) {version : Nat}
    (means : settings.sourceCompatibility.bind version? = some version) :
    ∃ highest, build.IsHighest highest ∧
      build.projectLevel.bind version? = some highest := by
  have recognized := mem_versions_iff.mpr ⟨settings, member, isJava, means⟩
  obtain ⟨highest, isMax⟩ := Option.isSome_iff_exists.mp (List.isSome_max?_of_mem recognized)
  obtain ⟨attained, bounds⟩ := List.max?_eq_some_iff.mp isMax
  refine ⟨highest, ⟨mem_versions_iff.mp attained, fun other isModule java otherVersion means =>
    bounds otherVersion (mem_versions_iff.mpr ⟨other, isModule, java, means⟩)⟩, ?_⟩
  rw [projectLevel, isProject]
  dsimp only
  rw [unstated, LanguageLevel.ofProject, isMax, Option.map_some, Option.bind_some,
    LanguageLevel.version?_ofVersion]

/-! ## The level of a module -/

/-- What a module of a version states as its level: nothing or a text of that version, so that it
has this version in any case, by itself or from the project. -/
structure StatesLevel (build : Build) (version : Nat) (stated : Option String) : Prop where
  written : ∀ text, stated = some text → version? text = some version
  omitted : stated = none ↔
    build.project.isSome = true ∧ build.projectLevel.bind version? = some version
  effective : (stated.or build.projectLevel).bind version? = some version
  alone : build.project = none → stated.isSome = true
  relative : ∀ project, build.project = some project → project.languageLevel = none →
    ∃ highest, build.IsHighest highest ∧ build.projectLevel.bind version? = some highest ∧
      (stated.isSome = true ↔ version < highest)

theorem statesLevel_ofModule {build : Build} {settings : ModuleSettings}
    (member : settings ∈ build.modules) (isJava : settings.isJava = true) {version : Nat}
    (means : settings.sourceCompatibility.bind version? = some version) :
    build.StatesLevel version (LanguageLevel.ofModule settings.sourceCompatibility
      build.projectLevel build.project.isSome) := by
  rw [LanguageLevel.ofModule_of_version means]
  have written := LanguageLevel.version?_ofVersion version
  by_cases provided : build.project.isSome = true ∧
      build.projectLevel.bind version? = some version
  · rw [if_pos provided]
    constructor
    case written =>
      intro text isText
      exact nomatch isText
    case omitted => simp [provided]
    case effective => exact provided.2
    case alone =>
      intro alone
      rw [alone] at provided
      exact nomatch provided.1
    case relative =>
      intro project isProject unstated
      obtain ⟨highest, isHighest, isLevel⟩ :=
        exists_highest isProject unstated member isJava means
      obtain rfl := Option.some.inj (provided.2.symm.trans isLevel)
      exact ⟨version, isHighest, isLevel, by simp⟩
  · rw [if_neg provided]
    have effective : ((some (ofVersion version)).or build.projectLevel).bind version? =
        some version := by
      rw [Option.some_or, Option.bind_some, written]
    constructor
    case written =>
      intro text isText
      exact Option.some.inj isText ▸ written
    case omitted => simp [provided]
    case effective => exact effective
    case alone => exact fun _ => rfl
    case relative =>
      intro project isProject unstated
      obtain ⟨highest, isHighest, isLevel⟩ := exists_highest isProject unstated member isJava means
      have different : highest ≠ version := by
        rintro rfl
        exact provided ⟨by rw [isProject]; rfl, isLevel⟩
      have bounded := isHighest.bounds settings member isJava version means
      exact ⟨highest, isHighest, isLevel, by simpa using Nat.lt_of_le_of_ne bounded different.symm⟩

end Build

open Build

/-- The level of a text means what the text means.  So a Java module whose compatibility means a
version states a level of that version, in its descriptor and in every tree it is written to, if
and only if no project provides the same one. -/
theorem levels_are_effective {build : Build} {settings : ModuleSettings}
    (member : settings ∈ build.modules) (isJava : settings.isJava = true) {version : Nat}
    (means : settings.sourceCompatibility.bind version? = some version) (anchors : PathVariables)
    (layout : Layout) :
    (∀ text, (LanguageLevel.ofText text).bind version? = version? text) ∧
    (settings.IsRegular → ∃ result, Descriptor.generate settings anchors
      ⟨build.projectLevel, build.project.isSome⟩ layout = .ok result) ∧
    ∀ generated lines, Descriptor.generate settings anchors
        ⟨build.projectLevel, build.project.isSome⟩ layout = .ok (generated, lines) →
      build.StatesLevel version generated.languageLevel ∧
      ∀ (persisted : Descriptor) (root : Xml.Element), ∃ component,
        component? ((persisted.merge generated).writeTo root) rootManager = some component ∧
        component.attribute? "LANGUAGE_LEVEL" = generated.languageLevel := by
  refine ⟨LanguageLevel.bind_version?_ofText, exists_generate, ?_⟩
  intro generated lines made
  have level : generated.languageLevel = LanguageLevel.ofModule settings.sourceCompatibility
      build.projectLevel build.project.isSome := by
    rw [Descriptor.generate, if_pos isJava] at made
    obtain ⟨scopes, _, made⟩ := except_bind_ok made
    obtain ⟨libraries, _, made⟩ := except_bind_ok made
    obtain ⟨rfl, _⟩ := Prod.mk.inj (Except.ok.inj made)
    rfl
  constructor
  · exact level ▸ statesLevel_ofModule member isJava means
  · intro persisted root
    refine ⟨_, (persisted.merge generated).component?_writeTo root, ?_⟩
    exact ((persisted.merge generated).attribute?_marked _).2

def leveledModule (compatibility : String) : ModuleSettings :=
  { ModuleSettings.ofNameAndDirectory (.str compatibility) Path.workspace with
    sourceCompatibility := some compatibility }

/-- A build whose project states no level, with modules of two versions. -/
def leveledBuild : Build :=
  ⟨Path.workspace, [leveledModule "1.6", leveledModule "VERSION_11"], some ⟨none⟩,
    ∅⟩

/-- The older module states its level, as the project provides the one of the other module. -/
theorem older_module_states_level :
    version? "1.6" = some 6 ∧ leveledBuild.projectLevel = some "JDK_11" ∧
    ∃ layout generated lines, Descriptor.generate (leveledModule "1.6") ⟨Path.workspace, ∅⟩
        ⟨leveledBuild.projectLevel, leveledBuild.project.isSome⟩ layout = .ok (generated, lines) ∧
      leveledBuild.StatesLevel 6 generated.languageLevel ∧
      generated.languageLevel = some "JDK_1_6" := by
  let settings := leveledModule "1.6"
  let anchors : PathVariables := ⟨Path.workspace, ∅⟩
  have member : settings ∈ leveledBuild.modules := List.mem_cons_self
  have means : settings.sourceCompatibility.bind version? = some 6 := by decide +kernel
  have regular : settings.IsRegular :=
    ⟨fun _ none => (nomatch none), fun _ none => (nomatch none), fun _ none => (nomatch none)⟩
  obtain ⟨layout, _⟩ : ∃ layout, settings.layout anchors = .ok layout := ⟨_, rfl⟩
  obtain ⟨_, exists_generated, levels⟩ :=
    levels_are_effective member rfl means anchors layout
  obtain ⟨⟨generated, lines⟩, made⟩ := exists_generated regular
  have level : (Descriptor.generate settings anchors
      ⟨leveledBuild.projectLevel, leveledBuild.project.isSome⟩ layout).map
        (fun result => result.1.languageLevel) = .ok (some "JDK_1_6") := by
    rfl
  refine ⟨by decide +kernel, by decide +kernel, layout, generated, lines, made,
    (levels generated lines made).1, ?_⟩
  rw [made] at level
  exact Except.ok.inj level

end IdeModules
