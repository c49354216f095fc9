/-!
# Keyed lists

A keyed list keeps one value for each key, in the order in which the keys
came first.  Putting a value under a known key replaces it in its place.  In a
mapping no key comes twice.
-/

namespace IdeModules

/-- Values under keys, in the order of their first arrival. -/
abbrev Keyed (κ α : Type) := List (κ × α)

namespace Keyed

variable {κ α : Type} [DecidableEq κ]

/-- Puts a value under a key: in place of the old one, or at the end. -/
def put (key : κ) (value : α) : Keyed κ α → Keyed κ α
  | [] => [(key, value)]
  | (other, old) :: rest =>
    if other = key then (key, value) :: rest else (other, old) :: put key value rest

def get? (key : κ) : Keyed κ α → Option α
  | [] => none
  | (other, value) :: rest => if other = key then some value else get? key rest

def erase (key : κ) (entries : Keyed κ α) : Keyed κ α :=
  entries.filter fun entry => entry.1 ≠ key

def keys (entries : Keyed κ α) : List κ :=
  entries.map Prod.fst

def values (entries : Keyed κ α) : List α :=
  entries.map Prod.snd

/-- Puts each pair of a list in turn. -/
def putAll (pairs : List (κ × α)) (entries : Keyed κ α) : Keyed κ α :=
  pairs.foldl (fun held pair => put pair.1 pair.2 held) entries

/-- The keyed list of a list of pairs: a later value of a key replaces an earlier one. -/
def ofPairs (pairs : List (κ × α)) : Keyed κ α :=
  putAll pairs []

theorem get?_put (key other : κ) (value : α) (entries : Keyed κ α) :
    get? other (put key value entries) =
      if key = other then some value else get? other entries := by
  induction entries with
  | nil => simp [put, get?]
  | cons entry rest ih =>
      obtain ⟨known, old⟩ := entry
      by_cases same : known = key
      · subst same
        by_cases asked : known = other <;> simp [put, get?, asked]
      · by_cases asked : known = other
        · subst asked
          simp [put, get?, same, Ne.symm same]
        · simp [put, get?, same, asked, ih]

theorem get?_put_same (key : κ) (value : α) (entries : Keyed κ α) :
    get? key (put key value entries) = some value := by
  rw [get?_put, if_pos rfl]

theorem keys_put (key : κ) (value : α) (entries : Keyed κ α) :
    keys (put key value entries) =
      if key ∈ keys entries then keys entries else keys entries ++ [key] := by
  induction entries with
  | nil => simp [put, keys]
  | cons entry rest ih =>
      obtain ⟨known, old⟩ := entry
      by_cases same : known = key
      · subst same
        simp [put, keys]
      · have stepped : List.map Prod.fst (put key value rest) =
            if key ∈ List.map Prod.fst rest then List.map Prod.fst rest
            else List.map Prod.fst rest ++ [key] := ih
        by_cases present : key ∈ List.map Prod.fst rest
        · simp [put, keys, same, stepped, present]
        · simp only [put, keys, same, stepped, present, if_false, List.map_cons]
          simp [Ne.symm same, present]

theorem mem_keys_iff {key : κ} {entries : Keyed κ α} :
    key ∈ keys entries ↔ ∃ value, get? key entries = some value := by
  induction entries with
  | nil => simp [keys, get?]
  | cons entry rest ih =>
      obtain ⟨known, old⟩ := entry
      by_cases same : known = key
      · simp [keys, get?, same]
      · have stepped : key ∈ List.map Prod.fst rest ↔
            ∃ value, get? key rest = some value := ih
        simp [keys, get?, same, Ne.symm same, stepped]

theorem mem_of_get? {key : κ} {value : α} {entries : Keyed κ α}
    (found : get? key entries = some value) : (key, value) ∈ entries := by
  induction entries with
  | nil => simp [get?] at found
  | cons entry rest ih =>
      obtain ⟨known, held⟩ := entry
      by_cases same : known = key
      · simp only [get?, same, if_true, Option.some.injEq] at found
        simp [same, found]
      · simp only [get?, same, if_false] at found
        exact List.mem_cons_of_mem _ (ih found)

theorem get?_of_mem {key : κ} {value : α} {entries : Keyed κ α} (nodup : (keys entries).Nodup)
    (member : (key, value) ∈ entries) : get? key entries = some value := by
  induction entries with
  | nil => simp at member
  | cons entry rest ih =>
      obtain ⟨known, held⟩ := entry
      obtain ⟨fresh, restNodup⟩ := List.nodup_cons.mp nodup
      rcases List.mem_cons.mp member with same | inRest
      · obtain ⟨rfl, rfl⟩ := Prod.mk.inj same
        simp [get?]
      · have different : known ≠ key := by
          rintro rfl
          exact fresh (List.mem_map.mpr ⟨_, inRest, rfl⟩)
        simp [get?, different, ih restNodup inRest]

theorem mem_put {key : κ} {value : α} {entries : Keyed κ α} {entry : κ × α}
    (member : entry ∈ put key value entries) : entry = (key, value) ∨ entry ∈ entries := by
  induction entries with
  | nil => simpa [put] using member
  | cons held rest ih =>
      obtain ⟨known, old⟩ := held
      rw [put] at member
      split at member
      · rcases List.mem_cons.mp member with same | inRest
        · exact .inl same
        · exact .inr (List.mem_cons_of_mem _ inRest)
      · rcases List.mem_cons.mp member with rfl | inRest
        · exact .inr List.mem_cons_self
        · exact (ih inRest).imp_right (List.mem_cons_of_mem _)

theorem nodup_keys_put {key : κ} {value : α} {entries : Keyed κ α}
    (nodup : (keys entries).Nodup) : (keys (put key value entries)).Nodup := by
  rw [keys_put]
  split
  · exact nodup
  · rename_i fresh
    refine List.nodup_append.mpr ⟨nodup, by simp, ?_⟩
    intro known member other inSingle same
    exact fresh (List.mem_singleton.mp inSingle ▸ same ▸ member)

/-- Putting the value that a key has already changes nothing. -/
theorem put_of_get? {key : κ} {value : α} {entries : Keyed κ α}
    (found : get? key entries = some value) : put key value entries = entries := by
  induction entries with
  | nil => simp [get?] at found
  | cons entry rest ih =>
      obtain ⟨known, old⟩ := entry
      by_cases same : known = key
      · simp only [get?, same, if_true, Option.some.injEq] at found
        simp [put, same, found]
      · simp only [get?, same, if_false] at found
        simp [put, same, ih found]

/-- The second of two values that are put under a key stays. -/
theorem put_put (key : κ) (first second : α) (entries : Keyed κ α) :
    put key second (put key first entries) = put key second entries := by
  induction entries with
  | nil => simp [put]
  | cons entry rest ih =>
      obtain ⟨known, old⟩ := entry
      by_cases same : known = key
      · simp [put, same]
      · simp [put, same, ih]

theorem get?_erase (key other : κ) (entries : Keyed κ α) :
    get? other (erase key entries) = if key = other then none else get? other entries := by
  induction entries with
  | nil => simp [erase, get?]
  | cons entry rest ih =>
      obtain ⟨known, old⟩ := entry
      rw [erase] at ih ⊢
      by_cases erased : known = key
      · subst erased
        by_cases asked : known = other
        · simpa [asked] using ih
        · simpa [get?, asked] using ih
      · by_cases asked : known = other
        · subst asked
          simp [get?, erased, Ne.symm erased]
        · simpa [get?, erased, asked] using ih

theorem get?_erase_same (key : κ) (entries : Keyed κ α) :
    get? key (erase key entries) = none := by
  rw [get?_erase, if_pos rfl]

theorem erase_of_get?_none {key : κ} {entries : Keyed κ α} (absent : get? key entries = none) :
    erase key entries = entries := by
  refine List.filter_eq_self.mpr ?_
  intro entry member
  have notKey : key ∉ keys entries := by
    rw [mem_keys_iff, absent]
    simp
  simpa using fun same : entry.1 = key => notKey (same ▸ List.mem_map_of_mem member)

/-- The entries under other keys stay when a value is put. -/
theorem filter_put {key : κ} {keep : κ → Bool} (dropped : keep key = false) (value : α)
    (entries : Keyed κ α) :
    (put key value entries).filter (fun entry => keep entry.1) =
      entries.filter fun entry => keep entry.1 := by
  induction entries with
  | nil => simp [put, dropped]
  | cons entry rest ih =>
      obtain ⟨known, old⟩ := entry
      by_cases same : known = key
      · subst same
        simp [put, dropped]
      · simp only [put, same, if_false, List.filter_cons, ih]

/-- The entries under other keys stay when a key is erased. -/
theorem filter_erase {key : κ} {keep : κ → Bool} (dropped : keep key = false)
    (entries : Keyed κ α) :
    (erase key entries).filter (fun entry => keep entry.1) =
      entries.filter fun entry => keep entry.1 := by
  rw [erase, List.filter_filter]
  refine List.filter_congr ?_
  intro entry _
  by_cases same : entry.1 = key
  · simp [same, dropped]
  · simp [same]

/-- A change of values that depends on their keys keeps every key in its place. -/
theorem get?_map_values {key : κ} (change : κ → α → β) (entries : Keyed κ α) :
    get? key (entries.map fun entry => (entry.1, change entry.1 entry.2)) =
      (get? key entries).map (change key) := by
  induction entries with
  | nil => rfl
  | cons entry rest ih =>
      obtain ⟨known, old⟩ := entry
      by_cases same : known = key
      · simp [get?, same]
      · simpa [get?, same] using ih

theorem mem_putAll {pairs : List (κ × α)} {entries : Keyed κ α} {entry : κ × α}
    (member : entry ∈ putAll pairs entries) : entry ∈ pairs ∨ entry ∈ entries := by
  induction pairs generalizing entries with
  | nil => exact .inr member
  | cons pair rest ih =>
      obtain inRest | inPut := ih member
      · exact .inl (List.mem_cons_of_mem _ inRest)
      · obtain rfl | inEntries := mem_put inPut
        · exact .inl List.mem_cons_self
        · exact .inr inEntries

theorem nodup_keys_putAll (pairs : List (κ × α)) {entries : Keyed κ α}
    (nodup : (keys entries).Nodup) : (keys (putAll pairs entries)).Nodup := by
  induction pairs generalizing entries with
  | nil => exact nodup
  | cons pair rest ih => exact ih (nodup_keys_put nodup)

end Keyed

/-- Values under keys, each of which comes once. -/
@[ext] structure Mapping (κ α : Type) where
  entries : Keyed κ α
  nodup : (Keyed.keys entries).Nodup
  deriving Repr

namespace Mapping

instance {κ α : Type} : EmptyCollection (Mapping κ α) := ⟨⟨[], List.nodup_nil⟩⟩

variable {κ α : Type} [DecidableEq κ]

/-- Puts a value under a key: in place of the old one, or at the end. -/
def put (key : κ) (value : α) (mapping : Mapping κ α) : Mapping κ α :=
  ⟨Keyed.put key value mapping.entries, Keyed.nodup_keys_put mapping.nodup⟩

/-- Puts each pair of a list in turn. -/
def putAll (pairs : List (κ × α)) (mapping : Mapping κ α) : Mapping κ α :=
  ⟨Keyed.putAll pairs mapping.entries, Keyed.nodup_keys_putAll pairs mapping.nodup⟩

/-- The mapping of a list of pairs: a later value of a key replaces an earlier one. -/
def ofPairs (pairs : List (κ × α)) : Mapping κ α :=
  putAll pairs ∅

end Mapping

/-- The distinct members of a list, each at its first place. -/
def distinct [DecidableEq α] : List α → List α
  | [] => []
  | item :: rest => item :: (distinct rest).filter (· ≠ item)

/-- A list with an item at its end, unless it is a member already. -/
def pushNew [DecidableEq α] (items : List α) (item : α) : List α :=
  if item ∈ items then items else items ++ [item]

section Distinct

variable {α : Type} [DecidableEq α]

@[simp] theorem mem_distinct {item : α} {items : List α} :
    item ∈ distinct items ↔ item ∈ items := by
  induction items with
  | nil => simp [distinct]
  | cons head tail ih =>
      by_cases same : item = head
      · simp [distinct, same]
      · simp [distinct, same, ih]

theorem nodup_distinct (items : List α) : (distinct items).Nodup := by
  induction items with
  | nil => simp [distinct]
  | cons head tail ih =>
      simp only [distinct, List.nodup_cons]
      exact ⟨by simp, ih.filter _⟩

theorem distinct_of_nodup {items : List α} (nodup : items.Nodup) : distinct items = items := by
  induction items with
  | nil => rfl
  | cons head tail ih =>
      obtain ⟨fresh, tailNodup⟩ := List.nodup_cons.mp nodup
      rw [distinct, ih tailNodup]
      congr 1
      refine List.filter_eq_self.mpr ?_
      intro item member
      simpa using fun same : item = head => fresh (same ▸ member)

theorem filter_distinct (keep : α → Bool) (items : List α) :
    (distinct items).filter keep = distinct (items.filter keep) := by
  induction items with
  | nil => rfl
  | cons head tail ih =>
      have swapped : ((distinct tail).filter (· ≠ head)).filter keep =
          ((distinct tail).filter keep).filter (· ≠ head) := by
        simp only [List.filter_filter, Bool.and_comm]
      by_cases kept : keep head = true
      · rw [distinct, List.filter_cons_of_pos kept, List.filter_cons_of_pos kept, distinct,
          ← ih, swapped]
      · have dropped : ∀ item ∈ (distinct tail).filter keep, decide (item ≠ head) = true := by
          intro item member
          have keptItem := (List.mem_filter.mp member).2
          simpa using fun same : item = head => kept (same ▸ keptItem)
        rw [distinct, List.filter_cons_of_neg kept, List.filter_cons_of_neg kept,
          ← ih, swapped, List.filter_eq_self.mpr dropped]

/-- The distinct members of two lists in turn are those of the first one and the new ones of the
second one. -/
theorem distinct_append (items others : List α) :
    distinct (items ++ others) =
      distinct items ++ (distinct others).filter fun other => other ∉ items := by
  induction items with
  | nil => exact (List.filter_eq_self.mpr (by simp)).symm
  | cons head tail ih =>
      rw [List.cons_append, distinct, ih, List.filter_append, List.filter_filter,
        distinct, List.cons_append]
      congr 2
      refine List.filter_congr ?_
      intro other _
      by_cases same : other = head <;> simp [same]

theorem distinct_distinct_append (items others : List α) :
    distinct (distinct items ++ others) = distinct (items ++ others) := by
  rw [distinct_append, distinct_append, distinct_of_nodup (nodup_distinct items)]
  simp only [mem_distinct]

/-- Pushing names in turn adds the distinct ones that are new. -/
theorem foldl_pushNew (names items : List α) :
    names.foldl pushNew items =
      items ++ (distinct names).filter fun name => name ∉ items := by
  induction names generalizing items with
  | nil => simp [distinct]
  | cons name rest ih =>
      rw [List.foldl_cons, ih]
      by_cases known : name ∈ items
      · have unchanged : pushNew items name = items := if_pos known
        rw [unchanged, distinct, List.filter_cons_of_neg (by simpa using known),
          List.filter_filter]
        congr 1
        refine List.filter_congr ?_
        intro other _
        by_cases same : other = name
        · simp [same, known]
        · simp [same]
      · have longer : pushNew items name = items ++ [name] := if_neg known
        rw [longer, distinct, List.filter_cons_of_pos (by simpa using known),
          List.filter_filter, List.append_assoc, List.singleton_append]
        congr 2
        refine List.filter_congr ?_
        intro other _
        by_cases same : other = name <;> simp [same]

end Distinct

end IdeModules
