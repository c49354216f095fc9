import IdeModules.Proofs.PathVariables

/-!
# Variables of a module

A module has the variables of its build and its own ones, and a variable may be written with dollar
signs around its name.  A variable of the module takes the place of the shared one that is written
in the same way, and only then are the dollar signs dropped.  So a name has the directory of the
last variable of the module only where no variable of another spelling stands behind it.
-/

namespace IdeModules

/-! ## Putting pairs over others -/

namespace Keyed

variable {κ α : Type} [DecidableEq κ]

theorem get?_putAll (key : κ) (pairs : List (κ × α)) (entries : Keyed κ α) :
    get? key (putAll pairs entries) =
      ((pairs.filter fun pair => pair.1 = key).getLast?.map Prod.snd).or (get? key entries) := by
  induction pairs generalizing entries with
  | nil => rfl
  | cons pair rest ih =>
      have stepped : get? key (putAll (pair :: rest) entries) =
          get? key (putAll rest (put pair.1 pair.2 entries)) := rfl
      rw [stepped, ih, get?_put]
      by_cases same : pair.1 = key
      · rw [List.filter_cons_of_pos (by simpa using same), List.getLast?_cons, if_pos same]
        cases (rest.filter fun other => other.1 = key).getLast? <;> rfl
      · rw [List.filter_cons_of_neg (by simpa using same), if_neg same]

theorem get?_eq_none_of_not_mem {key : κ} {entries : Keyed κ α} (absent : key ∉ keys entries) :
    get? key entries = none := by
  rw [mem_keys_iff, ← Option.isSome_iff_exists] at absent
  simpa using absent

theorem put_of_not_mem {key : κ} {entries : Keyed κ α} (absent : key ∉ keys entries) (value : α) :
    put key value entries = entries ++ [(key, value)] := by
  induction entries with
  | nil => rfl
  | cons entry rest ih =>
      obtain ⟨different, inRest⟩ := not_or.mp (mt List.mem_cons.mpr absent)
      rw [put, if_neg (Ne.symm different), ih inRest, List.cons_append]

/-- An entry with the value that other pairs have for its key, if they have one. -/
def overridden (pairs : Keyed κ α) (entry : κ × α) : κ × α :=
  (entry.1, (get? entry.1 pairs).getD entry.2)

theorem overridden_of_not_mem {pairs : Keyed κ α} {entry : κ × α}
    (absent : entry.1 ∉ keys pairs) : overridden pairs entry = entry := by
  rw [overridden, get?_eq_none_of_not_mem absent, Option.getD_none]

/-- A value that is put under a known key is overridden like the old one by other keys. -/
theorem map_overridden_put {key : κ} {value : α} {rest entries : Keyed κ α}
    (fresh : key ∉ keys rest) (nodup : (keys entries).Nodup) (known : key ∈ keys entries) :
    (put key value entries).map (overridden rest) =
      entries.map (overridden ((key, value) :: rest)) := by
  have elsewhere {entry : κ × α} (different : key ≠ entry.1) :
      overridden ((key, value) :: rest) entry = overridden rest entry := by
    rw [overridden, overridden, get?, if_neg different]
  induction entries with
  | nil => exact absurd known List.not_mem_nil
  | cons entry others ih =>
      obtain ⟨absent, othersNodup⟩ := List.nodup_cons.mp nodup
      rw [put, List.map_cons]
      split
      · rename_i same
        have kept : others.map (overridden rest) =
            others.map (overridden ((key, value) :: rest)) := by
          apply List.map_congr_left
          intro other member
          apply (elsewhere _).symm
          rintro rfl
          exact absent (same ▸ List.mem_map_of_mem member)
        rw [List.map_cons, kept, overridden_of_not_mem fresh, overridden, same, get?, if_pos rfl,
          Option.getD_some]
      · rename_i different
        have inOthers : key ∈ keys others :=
          (List.mem_cons.mp known).resolve_left (Ne.symm different)
        rw [List.map_cons, ih othersNodup inOthers, elsewhere (Ne.symm different)]

/-- Pairs that are put over entries change the values of known keys and stand behind with new
ones. -/
theorem putAll_eq {pairs entries : Keyed κ α} (pairsNodup : (keys pairs).Nodup)
    (nodup : (keys entries).Nodup) : putAll pairs entries =
      entries.map (overridden pairs) ++ pairs.filter fun pair => pair.1 ∉ keys entries := by
  induction pairs generalizing entries with
  | nil =>
      have same : overridden ([] : Keyed κ α) = id := rfl
      rw [same, List.map_id, List.filter_nil, List.append_nil]
      rfl
  | cons pair rest ih =>
      obtain ⟨fresh, restNodup⟩ := List.nodup_cons.mp pairsNodup
      have stepped : putAll (pair :: rest) entries =
          putAll rest (put pair.1 pair.2 entries) := rfl
      rw [stepped, ih restNodup (nodup_keys_put nodup), keys_put]
      by_cases known : pair.1 ∈ keys entries
      · rw [if_pos known, map_overridden_put fresh nodup known,
          List.filter_cons_of_neg (by simpa using known)]
      · have isNew : ∀ other ∈ rest, decide (other.1 ∉ keys entries ++ [pair.1]) =
            decide (other.1 ∉ keys entries) := by
          intro other member
          have different : other.1 ≠ pair.1 := by
            intro same
            exact fresh (same ▸ List.mem_map_of_mem member)
          simp [different]
        have kept : entries.map (overridden rest) =
            entries.map (overridden (pair :: rest)) := by
          apply List.map_congr_left
          intro entry member
          have different : pair.1 ≠ entry.1 := by
            intro same
            exact known (same ▸ List.mem_map_of_mem member)
          rw [overridden, overridden, get?, if_neg different]
        rw [if_neg known, put_of_not_mem known, List.map_append, List.map_singleton,
          overridden_of_not_mem fresh, List.filter_congr isNew,
          List.filter_cons_of_pos (by simpa using known), kept, List.append_assoc,
          List.singleton_append]

end Keyed

/-! ## Names and their spellings -/

section Spellings

variable {own shared : Mapping String (Option Path)} {name : String}
  {entry : String × Option Path}

/-- The variables that are written as a name, with or without dollar signs around it. -/
def spelled (name : String) (named : Mapping String (Option Path)) :
    Keyed String (Option Path) :=
  named.entries.filter fun entry => bareName entry.1 = name

/-- The variable that decides on a name: the last one of the module that is written like no shared
one, or else the last shared one, with the directory that the module gives to this spelling. -/
def decisive (own shared : Mapping String (Option Path)) (name : String) :
    Option (String × Option Path) :=
  ((spelled name own).filter fun entry => entry.1 ∉ Keyed.keys shared.entries).getLast?.or
    ((spelled name shared).getLast?.map (Keyed.overridden own.entries))

/-- Whether a variable of a module decides on a name as the last one that is written so: it is
written like no shared one, or like the last shared one where each of the others is written like
a shared one. -/
def Prevails (own shared : Mapping String (Option Path)) (name : String)
    (entry : String × Option Path) : Prop :=
  entry.1 ∉ Keyed.keys shared.entries ∨
    (∀ other ∈ spelled name own, other.1 ∈ Keyed.keys shared.entries) ∧
      (spelled name shared).getLast?.map Prod.fst = some entry.1

instance (own shared : Mapping String (Option Path)) (name : String)
    (entry : String × Option Path) : Decidable (Prevails own shared name entry) :=
  inferInstanceAs (Decidable (_ ∨ _ ∧ _))

theorem mem_of_mem_spelled (member : entry ∈ spelled name own) : entry ∈ own.entries :=
  (List.mem_filter.mp member).1

theorem not_mem_keys_of_spelled_eq_nil {key : String} (isSpelled : bareName key = name)
    (noneSpelled : spelled name own = []) : key ∉ Keyed.keys own.entries := by
  intro member
  obtain ⟨other, isOther, rfl⟩ := List.mem_map.mp member
  exact List.filter_eq_nil_iff.mp noneSpelled other isOther (decide_eq_true isSpelled)

theorem getLast?_filter {keep : α → Bool} {items : List α} {last : α}
    (isLast : items.getLast? = some last) (kept : keep last = true) :
    (items.filter keep).getLast? = some last := by
  obtain ⟨front, rfl⟩ := List.getLast?_eq_some_iff.mp isLast
  rw [List.filter_append, List.filter_cons_of_pos kept, List.filter_nil, List.getLast?_concat]

/-- The last variable by a name, once those of a module are put over the shared ones, is the
decisive one. -/
theorem getLast?_spelled_putAll (own shared : Mapping String (Option Path)) (name : String) :
    (spelled name (shared.putAll own.entries)).getLast? = decisive own shared name := by
  have sameName : (fun entry : String × Option Path => decide (bareName entry.1 = name)) ∘
      Keyed.overridden own.entries = fun entry => decide (bareName entry.1 = name) := rfl
  have whole : (shared.putAll own.entries).entries =
      shared.entries.map (Keyed.overridden own.entries) ++
        own.entries.filter fun pair => pair.1 ∉ Keyed.keys shared.entries :=
    Keyed.putAll_eq own.nodup shared.nodup
  rw [spelled, whole, List.filter_append, List.getLast?_append, List.filter_map, sameName,
    List.getLast?_map, List.filter_filter, decisive, spelled, spelled, List.filter_filter]
  simp only [Bool.and_comm]

/-- The last variable of a module by a name decides on the name if and only if it prevails. -/
theorem decisive_eq_some_iff
    (isLast : (spelled name own).getLast? = some entry) :
    decisive own shared name = some entry ↔ Prevails own shared name entry := by
  have member := List.mem_of_getLast? isLast
  rw [decisive]
  cases last : ((spelled name own).filter fun other =>
      decide (other.1 ∉ Keyed.keys shared.entries)).getLast? with
  | none =>
      have allShared : ∀ other ∈ spelled name own, other.1 ∈ Keyed.keys shared.entries := by
        simpa using List.getLast?_eq_none_iff.mp last
      have isKnown : Keyed.get? entry.1 own.entries = some entry.2 :=
        Keyed.get?_of_mem own.nodup (mem_of_mem_spelled member)
      rw [Option.none_or, Option.map_eq_some_iff]
      constructor
      · rintro ⟨found, isFound, rfl⟩
        refine .inr ⟨allShared, ?_⟩
        rw [isFound]
        rfl
      · rintro (isNew | ⟨_, sameSpelling⟩)
        · exact absurd (allShared entry member) isNew
        · obtain ⟨found, isFound, same⟩ := Option.map_eq_some_iff.mp sameSpelling
          refine ⟨found, isFound, ?_⟩
          rw [Keyed.overridden, same, isKnown, Option.getD_some]
  | some found =>
      obtain ⟨isSpelled, isNew⟩ := List.mem_filter.mp (List.mem_of_getLast? last)
      rw [decide_eq_true_eq] at isNew
      rw [Option.some_or]
      constructor
      · intro same
        obtain rfl := Option.some.inj same
        exact .inl isNew
      · rintro (isNewLast | ⟨allShared, _⟩)
        · rw [← last]
          exact getLast?_filter isLast (decide_eq_true isNewLast)
        · exact absurd (allShared found isSpelled) isNew

end Spellings

/-! ## Directories of names -/

/-- Of the variables that are written as a name the last one gives its directory, unless it is the
name of the directory of a descriptor. -/
theorem PathVariables.get?_directories (start : Path) (named : Mapping String (Option Path))
    (directory : Path) (name : String) :
    Keyed.get? name (ofPairs start named.entries (some directory)).directories.entries =
      if name = moduleDirectory then some (Path.normalize start directory)
      else (spelled name named).getLast?.map fun entry =>
        Path.normalize start (spelledPath entry.2) := by
  show Keyed.get? name (Keyed.putAll (_ ++ _) []) = _
  rw [Keyed.get?_putAll, List.filter_append, List.getLast?_append, List.filter_map,
    List.getLast?_map]
  by_cases isOwn : name = moduleDirectory
  · rw [if_pos isOwn, List.filter_cons_of_pos (by simpa using isOwn.symm)]
    rfl
  · rw [if_neg isOwn, List.filter_cons_of_neg (by simpa using Ne.symm isOwn), List.filter_nil,
      List.getLast?_nil, Option.none_or, Option.map_map, Keyed.get?, Option.or_none]
    rfl

namespace ModuleSettings

/-- Whether the names of variables have their directories from a module before its build: each name
from the decisive variable, which is the last one of the module if that prevails, and the last
shared one where the module has none; no other name but that of the descriptor has one. -/
structure ResolvesNames (settings : ModuleSettings) (start : Path)
    (shared : Mapping String (Option Path)) : Prop where
  descriptor : Keyed.get? moduleDirectory (settings.anchors start shared).directories.entries =
    some (Path.normalize start settings.descriptorPath.parent)
  decided : ∀ name, name ≠ moduleDirectory →
    Keyed.get? name (settings.anchors start shared).directories.entries =
      (decisive settings.pathVariables shared name).map fun entry =>
        Path.normalize start (spelledPath entry.2)
  prevails : ∀ name entry, (spelled name settings.pathVariables).getLast? = some entry →
    (decisive settings.pathVariables shared name = some entry ↔
      Prevails settings.pathVariables shared name entry)
  overrides : ∀ name, name ≠ moduleDirectory →
    (∀ entry ∈ (spelled name settings.pathVariables).getLast?,
      Prevails settings.pathVariables shared name entry) →
    Keyed.get? name (settings.anchors start shared).directories.entries =
      ((spelled name settings.pathVariables).getLast?.or (spelled name shared).getLast?).map
        fun entry => Path.normalize start (spelledPath entry.2)

section Resolving

variable (settings : ModuleSettings) (start : Path) (shared : Mapping String (Option Path))

theorem get?_anchors (name : String) :
    Keyed.get? name (settings.anchors start shared).directories.entries =
      if name = moduleDirectory then
        some (Path.normalize start settings.descriptorPath.parent)
      else (decisive settings.pathVariables shared name).map fun entry =>
        Path.normalize start (spelledPath entry.2) := by
  rw [anchors, PathVariables.get?_directories, getLast?_spelled_putAll]

/-- Names have their directories from the decisive variables, and that is the last variable of the
module unless one of another spelling stands behind it. -/
theorem names_resolve_to_decisive : settings.ResolvesNames start shared where
  descriptor := by
    rw [get?_anchors, if_pos rfl]
  decided name notOwn := by
    rw [get?_anchors, if_neg notOwn]
  prevails name entry := decisive_eq_some_iff
  overrides name notOwn prevails := by
    rw [get?_anchors, if_neg notOwn]
    cases last : (spelled name settings.pathVariables).getLast? with
    | some entry =>
        rw [(decisive_eq_some_iff last).mpr (prevails entry last), Option.some_or]
    | none =>
        have noneSpelled : spelled name settings.pathVariables = [] :=
          List.getLast?_eq_none_iff.mp last
        rw [decisive, noneSpelled, Option.none_or, List.filter_nil, List.getLast?_nil,
          Option.none_or, Option.map_map]
        apply Option.map_congr
        intro entry isLast
        have isSpelled := (List.mem_filter.mp (List.mem_of_getLast? isLast)).2
        rw [Function.comp_apply, Keyed.overridden_of_not_mem
          (not_mem_keys_of_spelled_eq_nil (of_decide_eq_true isSpelled) noneSpelled)]

end Resolving

/-- A module of a directory with variables of its own. -/
def respellingSettings (own : List (String × Option Path)) : ModuleSettings :=
  { ModuleSettings.ofNameAndDirectory (.str "a") Path.workspace with
    pathVariables := .ofPairs own }

/-- Variables of a build in some spellings. -/
def sharedNames : Mapping String (Option Path) :=
  .ofPairs [("LIB", some ⟨.single, ["lib"], by decide⟩),
    ("$OUT$", some ⟨.single, ["out"], by decide⟩),
    ("MODULE_DIR", some ⟨.single, ["elsewhere"], by decide⟩),
    ("SDK", some ⟨.single, ["sdk"], by decide⟩)]

/-- Variables of a module, one of which is written like the shared one. -/
def ownNames : List (String × Option Path) :=
  [("$LIB$", some ⟨.relative, ["lib"], by decide⟩),
    ("$OUT$", some ⟨.relative, ["x", "..", "out"], by decide⟩)]

theorem respelled_names_resolve :
    let directories := ((respellingSettings ownNames).anchors Path.workspace
      sharedNames).directories.entries
    Keyed.get? "LIB" directories = some ⟨.single, ["ws", "lib"], by decide⟩ ∧
      Keyed.get? "OUT" directories = some ⟨.single, ["ws", "out"], by decide⟩ ∧
      Keyed.get? "SDK" directories = some ⟨.single, ["sdk"], by decide⟩ ∧
      Keyed.get? "$SDK$" directories = none ∧
      Keyed.get? "MODULE_DIR" directories = some Path.workspace := by
  have resolves := names_resolve_to_decisive (respellingSettings ownNames)
    Path.workspace sharedNames
  refine ⟨?_, ?_, ?_, ?_, ?_⟩
  · exact (resolves.overrides "LIB" (by decide) (by decide)).trans (by decide)
  · exact (resolves.overrides "OUT" (by decide) (by decide)).trans (by decide)
  · exact (resolves.overrides "SDK" (by decide) (by decide)).trans (by decide)
  · exact (resolves.overrides "$SDK$" (by decide) (by decide)).trans (by decide)
  · exact resolves.descriptor.trans (by decide +kernel)

/-- Whether the last variable of a module by a name gives its directory wherever there is one, and
the last shared one elsewhere. -/
def OverridesShared (settings : ModuleSettings) (start : Path)
    (shared : Mapping String (Option Path)) : Prop :=
  ∀ name, name ≠ moduleDirectory →
    Keyed.get? name (settings.anchors start shared).directories.entries =
      ((spelled name settings.pathVariables).getLast?.or (spelled name shared).getLast?).map
        fun entry => Path.normalize start (spelledPath entry.2)

/-- A shared variable of another spelling can stand behind the one that a module takes the place of,
and so can an earlier variable of the module itself. -/
theorem respelled_names_can_lose :
    ¬(respellingSettings [("X", some ⟨.single, ["own"], by decide⟩)]).OverridesShared
      Path.workspace (.ofPairs [("X", some ⟨.single, ["a"], by decide⟩),
        ("$X$", some ⟨.single, ["b"], by decide⟩)]) ∧
    ¬(respellingSettings [("$X$", some ⟨.single, ["own"], by decide⟩),
      ("X", some ⟨.single, ["last"], by decide⟩)]).OverridesShared Path.workspace
        (.ofPairs [("X", some ⟨.single, ["a"], by decide⟩)]) := by
  constructor
  · intro overrides
    exact absurd (overrides "X" (by decide)) (by decide +kernel)
  · intro overrides
    exact absurd (overrides "X" (by decide)) (by decide +kernel)

end ModuleSettings

end IdeModules
