import IdeModules.Proofs.Xml.Names
import IdeModules.Proofs.Xml.Trees
import IdeModules.Xml.Reader
import Mathlib.Data.List.Nodup

/-!
# Prefixes of a printed document

Every namespace that a document uses gets one prefix, the well-known one or a
numbered one, and no two namespaces get the same.  The scope that the root
declares therefore leads from the prefix of a namespace back to it.
-/

namespace IdeModules.Xml

/-- The prefix under which the names of a namespace are printed. -/
def prefixFor (prefixes : Keyed String String) (uri : String) : String :=
  (Keyed.get? uri prefixes).getD "xml"

def numberedPrefix (number : Nat) : String :=
  "ns" ++ Nat.repr number

/-- Whether a namespace gets a prefix as its well-known one or as a number below a count. -/
def MayGet (count : Nat) (uri assigned : String) : Prop :=
  (Keyed.get? uri wellKnownSpaces = some assigned ∧ assigned ≠ "xml") ∨
    (Keyed.get? uri wellKnownSpaces = none ∧
      ∃ number < count, assigned = numberedPrefix number)

/-- What holds of the prefixes that have been given at any point. -/
structure Assigned (assigned : Keyed String String) : Prop where
  spaces : (Keyed.keys assigned).Nodup
  prefixes : (Keyed.values assigned).Nodup
  origin : ∀ entry ∈ assigned, MayGet assigned.length entry.1 entry.2

/-! ## Well-known and numbered prefixes -/

theorem wellKnown_injective {uri other assigned : String}
    (first : Keyed.get? uri wellKnownSpaces = some assigned)
    (second : Keyed.get? other wellKnownSpaces = some assigned) : uri = other := by
  have injective : ∀ entry ∈ wellKnownSpaces, ∀ another ∈ wellKnownSpaces,
      entry.2 = another.2 → entry.1 = another.1 := by decide
  exact injective _ (Keyed.mem_of_get? first) _ (Keyed.mem_of_get? second) rfl

theorem numberedPrefix_injective {number other : Nat}
    (same : numberedPrefix number = numberedPrefix other) : number = other := by
  have digits : Nat.toDigits 10 number = Nat.toDigits 10 other := by
    have lists := congrArg String.toList same
    simpa [numberedPrefix, String.toList_append] using lists
  have values := congrArg (Nat.ofDigitChars 10 · 0) digits
  simpa using values

theorem toList_numberedPrefix (number : Nat) :
    (numberedPrefix number).toList = 'n' :: 's' :: Nat.toDigits 10 number := by
  rw [numberedPrefix, String.toList_append, Nat.toList_repr]
  rfl

theorem numberedPrefix_not_wellKnown (number : Nat) {uri assigned : String}
    (known : Keyed.get? uri wellKnownSpaces = some assigned) :
    assigned ≠ numberedPrefix number := by
  have different : ∀ entry ∈ wellKnownSpaces, entry.2.toList.take 2 ≠ "ns".toList := by decide
  rintro rfl
  refine different _ (Keyed.mem_of_get? known) ?_
  rw [toList_numberedPrefix]
  rfl

theorem isNamePart_numberedPrefix (number : Nat) :
    isNamePart false (numberedPrefix number).toList = true := by
  have digits : ∀ c ∈ Nat.toDigits 10 number, isNameChar false c = true := by
    intro c member
    have digit := Nat.isDigit_of_mem_toDigits (by decide) (by decide) member
    have ascii : c.toNat < 0x80 := by
      simp only [Char.isDigit, Bool.and_eq_true, decide_eq_true_eq] at digit
      have bound : c.toNat ≤ 57 := digit.2
      omega
    simp [isNameChar, ascii, Char.isAlphanum, digit]
  rw [toList_numberedPrefix]
  simp only [isNamePart, List.all_cons, Bool.and_eq_true, List.all_eq_true]
  exact ⟨by decide, by decide, digits⟩

/-- Two namespaces that may get the same prefix are the same, or the prefix is a number. -/
theorem MayGet.cases {count : Nat} {uri other assigned : String}
    (first : MayGet count uri assigned)
    (second : Keyed.get? other wellKnownSpaces = some assigned) : uri = other := by
  rcases first with ⟨known, _⟩ | ⟨_, number, _, rfl⟩
  · exact wellKnown_injective known second
  · exact absurd rfl (numberedPrefix_not_wellKnown number second)

theorem MayGet.mono {count more : Nat} (enough : count ≤ more) {uri assigned : String}
    (origin : MayGet count uri assigned) : MayGet more uri assigned := by
  rcases origin with known | ⟨unknown, number, below, numbered⟩
  · exact .inl known
  · exact .inr ⟨unknown, number, Nat.lt_of_lt_of_le below enough, numbered⟩

theorem MayGet.isNamePart {count : Nat} {uri assigned : String}
    (origin : MayGet count uri assigned) : isNamePart false assigned.toList = true := by
  rcases origin with ⟨known, _⟩ | ⟨_, number, _, rfl⟩
  · have legible : ∀ entry ∈ wellKnownSpaces, Xml.isNamePart false entry.2.toList = true := by
      decide
    exact legible _ (Keyed.mem_of_get? known)
  · exact isNamePart_numberedPrefix number

theorem MayGet.ne_reserved {count : Nat} {uri assigned : String}
    (origin : MayGet count uri assigned) : assigned ≠ "xml" ∧ assigned ≠ "xmlns" := by
  rcases origin with ⟨known, notXml⟩ | ⟨_, number, _, rfl⟩
  · have different : ∀ entry ∈ wellKnownSpaces, entry.2 ≠ "xmlns" := by decide
    exact ⟨notXml, different _ (Keyed.mem_of_get? known)⟩
  · have starts := toList_numberedPrefix number
    constructor
    · intro same
      rw [same] at starts
      exact absurd (List.cons.inj starts).1 (by decide)
    · intro same
      rw [same] at starts
      exact absurd (List.cons.inj starts).1 (by decide)

theorem MayGet.ne_xmlNamespace {count : Nat} {uri assigned : String}
    (origin : MayGet count uri assigned) : uri ≠ xmlNamespace := by
  rintro rfl
  have known : Keyed.get? xmlNamespace wellKnownSpaces = some "xml" := by decide
  rcases origin with ⟨other, notXml⟩ | ⟨unknown, _⟩
  · rw [known] at other
    exact notXml (Option.some.inj other).symm
  · rw [known] at unknown
    exact absurd unknown (by simp)

/-! ## Giving prefixes -/

/-- Behind the prefixes given so far stands one more. -/
theorem Assigned.push {assigned : Keyed String String} (holds : Assigned assigned)
    {uri given : String} (fresh : Keyed.get? uri assigned = none)
    (origin : MayGet (assigned.length + 1) uri given) (unused : given ∉ Keyed.values assigned) :
    Assigned (assigned ++ [(uri, given)]) where
  spaces := by
    have absent : uri ∉ Keyed.keys assigned := by
      intro member
      obtain ⟨value, found⟩ := Keyed.mem_keys_iff.mp member
      rw [fresh] at found
      exact absurd found (by simp)
    have shape : Keyed.keys (assigned ++ [(uri, given)]) = (Keyed.keys assigned).concat uri := by
      simp [Keyed.keys]
    rw [shape]
    exact holds.spaces.concat absent
  prefixes := by
    have shape : Keyed.values (assigned ++ [(uri, given)]) =
        (Keyed.values assigned).concat given := by
      simp [Keyed.values]
    rw [shape]
    exact holds.prefixes.concat unused
  origin := by
    intro entry member
    rw [List.length_append, List.length_singleton]
    rcases List.mem_append.mp member with known | new
    · exact (holds.origin entry known).mono (Nat.le_succ _)
    · obtain rfl := List.mem_singleton.mp new
      exact origin

theorem Assigned.assignPrefix {assigned : Keyed String String} (holds : Assigned assigned)
    (uri : String) : Assigned (assignPrefix assigned uri) := by
  unfold Xml.assignPrefix
  split
  · exact holds
  · rename_i fresh
    split
    · rename_i known isKnown
      split
      · exact holds
      · rename_i notXml
        refine holds.push fresh (.inl ⟨isKnown, notXml⟩) ?_
        intro used
        obtain ⟨entry, member, rfl⟩ := List.mem_map.mp used
        obtain rfl := (holds.origin entry member).cases isKnown
        rw [Keyed.get?_of_mem holds.spaces member] at fresh
        exact absurd fresh (by simp)
    · rename_i unknown
      refine holds.push fresh (.inr ⟨unknown, _, Nat.lt_succ_self _, rfl⟩) ?_
      intro used
      obtain ⟨entry, member, numbered⟩ := List.mem_map.mp used
      rcases holds.origin entry member with ⟨known, _⟩ | ⟨_, number, below, same⟩
      · exact numberedPrefix_not_wellKnown _ known numbered
      · have equal := numberedPrefix_injective (same.symm.trans numbered)
        exact absurd equal (Nat.ne_of_lt below)

theorem assigned_prefixesOf (root : Element) : Assigned (prefixesOf root) := by
  have steps : ∀ (uris : List String) (assigned : Keyed String String), Assigned assigned →
      Assigned (uris.foldl assignPrefix assigned) := by
    intro uris
    induction uris with
    | nil => exact fun _ holds => holds
    | cons uri rest ih =>
        exact fun assigned holds => ih _ (holds.assignPrefix uri)
  exact steps _ [] ⟨List.nodup_nil, List.nodup_nil, by simp⟩

/-! ## Every namespace that is used -/

/-- A namespace has a prefix, or it is the one that XML itself defines. -/
def HasPrefix (assigned : Keyed String String) (uri : String) : Prop :=
  uri ∈ Keyed.keys assigned ∨ uri = xmlNamespace

theorem HasPrefix.assignPrefix {assigned : Keyed String String} {uri : String}
    (has : HasPrefix assigned uri) (other : String) :
    HasPrefix (assignPrefix assigned other) uri := by
  rcases has with known | isXml
  · refine .inl ?_
    unfold Xml.assignPrefix
    repeat' split
    all_goals simp_all [Keyed.keys]
  · exact .inr isXml

theorem hasPrefix_assignPrefix (assigned : Keyed String String) (uri : String) :
    HasPrefix (assignPrefix assigned uri) uri := by
  unfold assignPrefix
  split
  · rename_i found
    exact .inl (Keyed.mem_keys_iff.mpr ⟨_, found⟩)
  · split
    · rename_i known
      split
      · rename_i isXml
        have xmlKnown : Keyed.get? xmlNamespace wellKnownSpaces = some "xml" := by decide
        exact .inr (wellKnown_injective (isXml ▸ known) xmlKnown)
      · exact .inl (by simp [Keyed.keys])
    · exact .inl (by simp [Keyed.keys])

theorem hasPrefix_foldl {uris : List String} {assigned : Keyed String String} {uri : String}
    (has : uri ∈ uris ∨ HasPrefix assigned uri) :
    HasPrefix (uris.foldl assignPrefix assigned) uri := by
  induction uris generalizing assigned with
  | nil => exact has.resolve_left (by simp)
  | cons other rest ih =>
      refine ih ?_
      rcases has with member | known
      · rcases List.mem_cons.mp member with rfl | inRest
        · exact .inr (hasPrefix_assignPrefix assigned _)
        · exact .inl inRest
      · exact .inr (known.assignPrefix other)

theorem mem_foldl_assignPrefix {uris : List String} {assigned : Keyed String String}
    {uri : String} (member : uri ∈ Keyed.keys (uris.foldl assignPrefix assigned)) :
    uri ∈ Keyed.keys assigned ∨ uri ∈ uris := by
  induction uris generalizing assigned with
  | nil => exact .inl member
  | cons other rest ih =>
      rcases ih member with known | inRest
      · have origin : uri ∈ Keyed.keys assigned ∨ uri = other := by
          unfold assignPrefix at known
          repeat' split at known
          all_goals simp_all [Keyed.keys]
        rcases origin with held | rfl
        · exact .inl held
        · exact .inr (by simp)
      · exact .inr (List.mem_cons_of_mem _ inRest)

/-- The namespaces that a root uses. -/
def usedSpaces (root : Element) : List String :=
  namesSpaces root.name root.attributes ++ nodesSpaces root.children

/-- The rules of the trees that only use namespaces of some kind. -/
def usesOnly (allowed : String → Prop) : TreeRules where
  tag name attributes := ∀ uri ∈ namesSpaces name attributes, allowed uri
  text _ := True
  comment _ := True

theorem nodesSpaces_eq_flatMap (nodes : List Node) :
    nodesSpaces nodes = nodes.flatMap nodeSpaces := by
  induction nodes with
  | nil => rfl
  | cons node rest ih => rw [nodesSpaces, ih, List.flatMap_cons]

theorem meets_usesOnly_iff {allowed : String → Prop} {node : Node} :
    node.Meets (usesOnly allowed) ↔ ∀ uri ∈ nodeSpaces node, allowed uri := by
  induction node with
  | element name attributes text children tail ih =>
      rw [meets_element, nodeSpaces, nodesSpaces_eq_flatMap]
      constructor
      · rintro ⟨tagUses, _, childrenUse, _⟩ uri member
        rcases List.mem_append.mp member with inTag | inChildren
        · exact tagUses uri inTag
        · obtain ⟨child, known, inChild⟩ := List.mem_flatMap.mp inChildren
          exact (ih child known).mp (childrenUse child known) uri inChild
      · intro uses
        refine ⟨fun uri inTag => uses uri (List.mem_append_left _ inTag), trivial, ?_, trivial⟩
        intro child known
        refine (ih child known).mpr fun uri inChild => uses uri ?_
        exact List.mem_append_right _ (List.mem_flatMap.mpr ⟨child, known, inChild⟩)
  | comment content tail => simp [nodeSpaces, usesOnly]

theorem Element.meets_usesOnly_iff {allowed : String → Prop} {root : Element} :
    root.Meets (usesOnly allowed) ↔ ∀ uri ∈ usedSpaces root, allowed uri := by
  have asNode : (Node.ofElement root "").Meets (usesOnly allowed) ↔
      ∀ uri ∈ usedSpaces root, allowed uri := Xml.meets_usesOnly_iff
  rw [meets_ofElement] at asNode
  exact (and_iff_left trivial).symm.trans asNode

theorem hasPrefix_of_used {root : Element} {uri : String} (used : uri ∈ usedSpaces root) :
    HasPrefix (prefixesOf root) uri :=
  hasPrefix_foldl (.inl used)

theorem used_of_mem_prefixesOf {root : Element} {entry : String × String}
    (member : entry ∈ prefixesOf root) : entry.1 ∈ usedSpaces root := by
  rcases mem_foldl_assignPrefix (List.mem_map.mpr ⟨entry, member, rfl⟩) with known | used
  · simp [Keyed.keys] at known
  · exact used

/-! ## The scope of the root -/

/-- The declarations on the root of a document, in the order of their prefixes. -/
def declaredSpaces (root : Element) : List (String × String) :=
  (prefixesOf root).mergeSort fun left right => left.2 ≤ right.2

theorem mem_declaredSpaces {root : Element} {entry : String × String} :
    entry ∈ declaredSpaces root ↔ entry ∈ prefixesOf root :=
  List.mem_mergeSort

/-- The scope behind the declarations of namespaces. -/
def scopeBehind (declared : List (String × String)) (scope : Scope) : Scope :=
  (declared.map fun entry => (entry.2.toList, entry.1.toList)).reverse ++ scope

/-- The scope of all elements of a printed document. -/
def documentScope (root : Element) : Scope :=
  scopeBehind (declaredSpaces root) outerScope

theorem lookup_of_unique {scope : Scope} {qualifier uri : List Char}
    (member : (qualifier, uri) ∈ scope)
    (unique : ∀ entry ∈ scope, entry.1 = qualifier → entry.2 = uri) :
    scope.lookup qualifier = some uri := by
  induction scope with
  | nil => simp at member
  | cons entry rest ih =>
      obtain ⟨known, held⟩ := entry
      by_cases same : known = qualifier
      · obtain rfl := same
        obtain rfl : held = uri := unique (known, held) (by simp) rfl
        exact List.lookup_cons_self
      · have inRest : (qualifier, uri) ∈ rest := by
          refine (List.mem_cons.mp member).resolve_left ?_
          exact fun equal => same (Prod.mk.inj equal).1.symm
        have skipped : (qualifier == known) = false := by simpa using Ne.symm same
        rw [List.lookup_cons, skipped]
        exact ih inRest fun entry known => unique entry (List.mem_cons_of_mem _ known)

theorem mem_documentScope {root : Element} {found : List Char × List Char} :
    found ∈ documentScope root ↔
      (∃ entry ∈ prefixesOf root, (entry.2.toList, entry.1.toList) = found) ∨
        found = ("xml".toList, xmlNamespace.toList) := by
  simp only [documentScope, scopeBehind, outerScope, List.mem_append, List.mem_reverse,
    List.mem_map, List.mem_singleton, mem_declaredSpaces]

/-- Two namespaces with one prefix are one. -/
theorem space_unique {root : Element} {entry other : String × String}
    (member : entry ∈ prefixesOf root) (otherMember : other ∈ prefixesOf root)
    (same : entry.2 = other.2) : entry = other :=
  List.inj_on_of_nodup_map (assigned_prefixesOf root).prefixes member otherMember same

theorem origin_of_mem {root : Element} {entry : String × String}
    (member : entry ∈ prefixesOf root) :
    MayGet (prefixesOf root).length entry.1 entry.2 :=
  (assigned_prefixesOf root).origin entry member

theorem lookup_documentScope {root : Element} {entry : String × String}
    (member : entry ∈ prefixesOf root) :
    (documentScope root).lookup entry.2.toList = some entry.1.toList := by
  refine lookup_of_unique (mem_documentScope.mpr (.inl ⟨entry, member, rfl⟩)) ?_
  intro found known same
  rcases mem_documentScope.mp known with ⟨other, otherMember, rfl⟩ | rfl
  · rw [space_unique otherMember member (String.toList_inj.mp same)]
  · exact absurd (String.toList_inj.mp same).symm (origin_of_mem member).ne_reserved.1

theorem lookup_documentScope_xml (root : Element) :
    (documentScope root).lookup "xml".toList = some xmlNamespace.toList := by
  refine lookup_of_unique (mem_documentScope.mpr (.inr rfl)) ?_
  intro found known same
  rcases mem_documentScope.mp known with ⟨other, otherMember, rfl⟩ | rfl
  · exact absurd (String.toList_inj.mp same) (origin_of_mem otherMember).ne_reserved.1
  · rfl

theorem lookup_documentScope_nil (root : Element) : (documentScope root).lookup [] = none := by
  refine List.lookup_eq_none_iff.mpr ?_
  intro found known
  rcases mem_documentScope.mp known with ⟨other, otherMember, rfl⟩ | rfl
  · have part := (origin_of_mem otherMember).isNamePart
    cases chars : other.2.toList with
    | nil => simp [chars, isNamePart] at part
    | cons c rest => simp
  · decide

theorem get?_prefixesOf_xml (root : Element) :
    Keyed.get? xmlNamespace (prefixesOf root) = none := by
  cases found : Keyed.get? xmlNamespace (prefixesOf root) with
  | none => rfl
  | some given => exact absurd rfl (origin_of_mem (Keyed.mem_of_get? found)).ne_xmlNamespace

theorem lookup_prefixFor {root : Element} {uri : String} (used : uri ∈ usedSpaces root) :
    (documentScope root).lookup (prefixFor (prefixesOf root) uri).toList = some uri.toList := by
  rcases hasPrefix_of_used used with known | rfl
  · obtain ⟨given, found⟩ := Keyed.mem_keys_iff.mp known
    rw [prefixFor, found]
    exact lookup_documentScope (Keyed.mem_of_get? found)
  · rw [prefixFor, get?_prefixesOf_xml]
    exact lookup_documentScope_xml root

theorem isNamePart_prefixFor (root : Element) (uri : String) :
    isNamePart false (prefixFor (prefixesOf root) uri).toList = true := by
  rw [prefixFor]
  cases found : Keyed.get? uri (prefixesOf root) with
  | none => decide
  | some given => exact (origin_of_mem (Keyed.mem_of_get? found)).isNamePart

theorem prefixFor_ne_declaringWord (root : Element) (uri : String) :
    (prefixFor (prefixesOf root) uri).toList ≠ declaringWord := by
  have ne : prefixFor (prefixesOf root) uri ≠ "xmlns" := by
    rw [prefixFor]
    cases found : Keyed.get? uri (prefixesOf root) with
    | none => decide
    | some given => exact (origin_of_mem (Keyed.mem_of_get? found)).ne_reserved.2
  exact fun same => ne (String.toList_inj.mp same)

/-! ## Namespaces that may be declared -/

/-- What a URI must be to be the namespace of a name. -/
structure IsSpace (uri : String) : Prop where
  nonempty : uri ≠ ""
  notDeclaring : uri ≠ declaringNamespace
  noBrace : '\x7d' ∉ uri.toList
  admitted : uri.toList.all isXmlChar = true

theorem mayDeclare_of_mem {root : Element} {entry : String × String}
    (member : entry ∈ prefixesOf root) (isSpace : IsSpace entry.1) :
    mayDeclare entry.2.toList entry.1.toList = true := by
  have origin := origin_of_mem member
  have notXml : entry.2.toList ≠ "xml".toList :=
    fun same => origin.ne_reserved.1 (String.toList_inj.mp same)
  have notXmlSpace : entry.1.toList ≠ xmlNamespace.toList :=
    fun same => origin.ne_xmlNamespace (String.toList_inj.mp same)
  have notWord : entry.2.toList ≠ declaringWord :=
    fun same => origin.ne_reserved.2 (String.toList_inj.mp same)
  have notDeclaring : entry.1.toList ≠ declaringNamespace.toList :=
    fun same => isSpace.notDeclaring (String.toList_inj.mp same)
  have nonempty : entry.1.toList ≠ [] :=
    fun same => isSpace.nonempty (String.toList_inj.mp same)
  have bothDiffer : ((entry.2.toList == "xml".toList) ==
      (entry.1.toList == xmlNamespace.toList)) = true := by
    rw [beq_eq_false_iff_ne.mpr notXml, beq_eq_false_iff_ne.mpr notXmlSpace]
    rfl
  rw [mayDeclare, bothDiffer]
  simp [notWord, notDeclaring, nonempty, isSpace.noBrace]

end IdeModules.Xml
