import IdeModules.Proofs.Xml.Documents
import IdeModules.Proofs.Xml.Prologs
import IdeModules.Proofs.Xml.Steps

/-!
# Trees that are read are sound

Whatever a document looks like, the tree that is read from it has names of some
document, attributes with different names and text values, and nothing but
characters that a document may hold.  Tokens have these properties one by one,
and every step of the reading keeps them for all open elements.
-/

namespace IdeModules.Xml

/-- Whether a name may come out of a document. -/
def WrittenName.IsWritten (name : WrittenName) : Prop :=
  (∀ qualifier, name.qualifier = some qualifier → qualifier ≠ []) ∧
    isNamePart true name.localPart = true

/-- Whether a token may come out of a document without carriage returns. -/
def Token.IsSound : Token → Prop
  | .text content _ => content.all isXmlChar = true
  | .literal content => content.all isXmlChar = true
  | .comment content => IsCommentContent content
  | .instruction => True
  | .start name attributes _ => name.IsWritten ∧
    ∀ entry ∈ attributes, entry.name.IsWritten ∧ entry.value.all isXmlChar = true
  | .finish _ => True

section Tokens

variable {dialect : Dialect}

/-! ## References -/

theorem isXmlChar_of_referredChar? {code : Nat} {c : Char}
    (referred : referredChar? code = some c) : isXmlChar c = true := by
  unfold referredChar? at referred
  split at referred
  · rename_i admitted
    obtain rfl := Option.some.inj referred
    simp only [Bool.and_eq_true] at admitted
    exact admitted.2
  · simp at referred

theorem all_isXmlChar_of_referred? {maySkip : Bool} {body found : List Char}
    (referred : referred? dialect maySkip body = some found) : found.all isXmlChar = true := by
  have single : ∀ {code : Option Nat},
      (code.bind referredChar?).map (fun c => [c]) = some found →
        found.all isXmlChar = true := by
    intro code numbered
    obtain ⟨c, bound, rfl⟩ := Option.map_eq_some_iff.mp numbered
    obtain ⟨value, _, isChar⟩ := Option.bind_eq_some_iff.mp bound
    simp [isXmlChar_of_referredChar? isChar]
  unfold referred? at referred
  split at referred
  · exact single referred
  · exact single referred
  · split at referred
    · rename_i c known
      obtain rfl := Option.some.inj referred
      have admitted : ∀ entry ∈ predefinedEntities, isXmlChar entry.2 = true := by decide
      obtain ⟨front, back, split, _⟩ := List.lookup_eq_some_iff.mp known
      simpa using admitted (body, c) (by simp [split])
    · split at referred
      · obtain rfl := Option.some.inj referred
        rfl
      · simp at referred

theorem all_isXmlChar_of_expand {maySkip : Bool} {change : Char → Char}
    (changes : ∀ c, isXmlChar c = true → isXmlChar (change c) = true)
    {body : Option (List Char)} {cs expanded : List Char}
    (expands : expand dialect maySkip change body cs = some expanded) :
    expanded.all isXmlChar = true := by
  induction cs generalizing body expanded with
  | nil =>
      cases body with
      | none =>
          obtain rfl : [] = expanded := by simpa [expand] using expands
          rfl
      | some opened => simp [expand] at expands
  | cons c rest ih =>
      cases body with
      | none =>
          rw [expand] at expands
          split at expands
          · exact ih expands
          split at expands
          · rename_i admitted
            obtain ⟨more, restExpands, rfl⟩ := Option.map_eq_some_iff.mp expands
            simp only [List.all_cons, Bool.and_eq_true]
            exact ⟨changes c admitted, ih restExpands⟩
          · simp at expands
      | some opened =>
          rw [expand] at expands
          split at expands
          · split at expands
            · simp at expands
            · rename_i found referred
              obtain ⟨more, restExpands, rfl⟩ := Option.map_eq_some_iff.mp expands
              rw [List.all_append, all_isXmlChar_of_referred? referred,
                ih restExpands]
              rfl
          · exact ih expands

theorem all_isXmlChar_of_expandValue {cs value : List Char}
    (expands : expandValue dialect cs = some value) : value.all isXmlChar = true := by
  unfold expandValue at expands
  split at expands
  · simp at expands
  · refine all_isXmlChar_of_expand ?_ expands
    intro c admitted
    split
    · decide
    · exact admitted

/-! ## Names and tags -/

theorem isWritten_of_takeName {cs rest : List Char} {name : WrittenName}
    (taken : takeName dialect cs = some (name, rest)) : name.IsWritten := by
  unfold takeName at taken
  split at taken
  · simp at taken
  · rename_i first firstTaken
    obtain ⟨⟨second, after⟩, secondTaken, same⟩ := Option.map_eq_some_iff.mp taken
    obtain ⟨rfl, _⟩ := Prod.mk.inj same
    refine ⟨?_, isNamePart_true (isNamePart_of_takePlainName secondTaken)⟩
    rintro qualifier known rfl
    have part := isNamePart_of_takePlainName firstTaken
    rw [Option.some.inj known] at part
    exact absurd part (by simp [isNamePart])
  · rename_i firstTaken
    obtain ⟨rfl, _⟩ := Prod.mk.inj (Option.some.inj taken)
    exact ⟨by simp, isNamePart_true (isNamePart_of_takePlainName firstTaken)⟩

theorem TakesAttributes.isSound {cs rest : List Char} {attributes : List WrittenAttribute}
    {isClosed : Bool} (takes : TakesAttributes dialect cs attributes isClosed rest) :
    ∀ entry ∈ attributes, entry.name.IsWritten ∧ entry.value.all isXmlChar = true := by
  induction takes with
  | done _ => simp
  | closed _ => simp
  | next nameTaken _ _ expands _ others =>
      exact List.forall_mem_cons.mpr
        ⟨⟨isWritten_of_takeName nameTaken, all_isXmlChar_of_expandValue expands⟩, others⟩

theorem isSound_of_takeComment {cs rest content : List Char} (absent : '\r' ∉ cs)
    (taken : takeComment cs = some (.comment content, rest)) : IsCommentContent content := by
  obtain ⟨content', same, cut, admitted⟩ := comment_of_takeComment taken
  obtain rfl := Token.comment.inj same
  have whole := cutAt_append_of_cutAt (by decide) cut []
  rw [List.append_nil] at whole
  refine ⟨whole, admitted, fun member => absent ?_⟩
  rw [eq_append_of_cutAt cut]
  exact List.mem_append_left _ member

/-! ## Tokens -/

theorem TakesToken.isSound {cs rest : List Char} {token : Token} (absent : '\r' ∉ cs)
    (takes : TakesToken dialect cs token rest) : token.IsSound := by
  cases takes with
  | start nameTaken attributes => exact ⟨isWritten_of_takeName nameTaken, attributes.isSound⟩
  | finish _ _ => trivial
  | instruction _ => trivial
  | comment stripped taken =>
      refine isSound_of_takeComment (fun member => absent ?_) taken
      have inside := (suffix_of_stripWord stripped).subset member
      exact List.mem_cons_of_mem _ (List.mem_cons_of_mem _ inside)
  | literal _ _ admitted => exact admitted
  | text _ _ expands => exact all_isXmlChar_of_expand (fun c admitted => admitted) expands

theorem isSound_of_tokensWithin {steps : Nat} {cs : List Char} {found : List Token}
    (absent : '\r' ∉ cs) (taken : tokensWithin dialect steps cs = some found) :
    ∀ token ∈ found, token.IsSound := by
  induction steps, cs using tokensWithin.induct dialect generalizing found with
  | case1 steps =>
      obtain rfl : [] = found := by simpa [tokensWithin] using taken
      simp
  | case2 c rest => simp [tokensWithin] at taken
  | case3 steps c rest stuck => simp [tokensWithin, stuck] at taken
  | case4 steps c rest token after tokenTaken ih =>
      rw [tokensWithin, tokenTaken] at taken
      obtain ⟨others, othersTaken, rfl⟩ := Option.map_eq_some_iff.mp taken
      have takes := takes_of_takeToken tokenTaken
      have absentBehind : '\r' ∉ after := fun member => absent (takes.behind.suffix.subset member)
      exact List.forall_mem_cons.mpr
        ⟨takes.isSound absent, ih absentBehind othersTaken⟩

/-- All tokens of a document without carriage returns are sound. -/
theorem isSound_of_tokens {cs : List Char} {found : List Token} (absent : '\r' ∉ cs)
    (taken : tokens dialect cs = some found) : ∀ token ∈ found, token.IsSound :=
  isSound_of_tokensWithin absent taken

end Tokens

/-! ## Scopes -/

/-- Whether every namespace in scope may be that of a name; only names without a qualifier may be
in none. -/
def Scope.IsSound (scope : Scope) : Prop :=
  ∀ entry ∈ scope, (entry.1 = [] ∧ entry.2 = []) ∨ IsSpace (String.ofList entry.2)

theorem isSound_outerScope : Scope.IsSound outerScope := by
  intro entry member
  obtain rfl := List.mem_singleton.mp member
  refine .inr ⟨?_, ?_, ?_, ?_⟩ <;> decide

theorem isSpace_of_mayDeclare {qualifier uri : List Char} (may : mayDeclare qualifier uri = true)
    (admitted : uri.all isXmlChar = true) :
    (qualifier = [] ∧ uri = []) ∨ IsSpace (String.ofList uri) := by
  simp only [mayDeclare, Bool.and_eq_true, bne_iff_ne, Bool.or_eq_true, Bool.not_eq_true',
    List.isEmpty_iff, List.isEmpty_eq_false_iff, List.contains_eq_mem,
    decide_eq_false_iff_not] at may
  obtain ⟨⟨⟨⟨_, _⟩, notDeclaring⟩, named⟩, noBrace⟩ := may
  by_cases empty : uri = []
  · exact .inl ⟨named.resolve_right (fun nonempty => nonempty empty), empty⟩
  · refine .inr ⟨?_, ?_, ?_, ?_⟩
    · exact fun same => empty (by simpa using same)
    · exact fun same => notDeclaring (by rw [← same, String.toList_ofList])
    · rwa [String.toList_ofList]
    · rwa [String.toList_ofList]

theorem isSound_extendScope {scope inner : Scope} {attributes : List WrittenAttribute}
    (scopeSound : scope.IsSound)
    (attributesSound : ∀ entry ∈ attributes, entry.value.all isXmlChar = true)
    (extended : extendScope scope attributes = some inner) : inner.IsSound := by
  induction attributes generalizing scope with
  | nil => exact Option.some.inj extended ▸ scopeSound
  | cons found rest ih =>
      have restSound := fun entry member =>
        attributesSound entry (List.mem_cons_of_mem found member)
      rw [extendScope] at extended
      split at extended
      · exact ih scopeSound restSound extended
      split at extended
      · rename_i may
        refine ih ?_ restSound extended
        intro entry member
        rcases List.mem_cons.mp member with rfl | known
        · exact isSpace_of_mayDeclare may (attributesSound found (by simp))
        · exact scopeSound entry known
      · simp at extended

theorem isSound_nameIn {scope : Scope} (scopeSound : scope.IsSound)
    {qualifier uri localPart : List Char} (found : scope.lookup qualifier = some uri)
    (isPart : isNamePart true localPart = true) : (nameIn uri localPart).Sound := by
  obtain ⟨front, back, split, _⟩ := List.lookup_eq_some_iff.mp found
  refine ⟨by simpa [nameIn] using isPart, ?_⟩
  intro space inSpace
  by_cases empty : uri.isEmpty = true
  · simp [nameIn, empty] at inSpace
  · simp only [nameIn, empty, if_false, Bool.false_eq_true, Option.some.injEq] at inSpace
    rcases scopeSound (qualifier, uri) (by simp [split]) with ⟨_, none⟩ | isSpace
    · exact absurd (List.isEmpty_iff.mpr none) empty
    · exact inSpace ▸ isSpace

theorem isSound_nameIn_nil {localPart : List Char} (isPart : isNamePart true localPart = true) :
    (nameIn [] localPart).Sound :=
  ⟨by simpa [nameIn] using isPart, by simp [nameIn]⟩

theorem isSound_elementName? {scope : Scope} (scopeSound : scope.IsSound) {name : WrittenName}
    (written : name.IsWritten) {found : Name} (named : elementName? scope name = some found) :
    found.Sound := by
  unfold elementName? at named
  split at named
  · obtain rfl := Option.some.inj named
    cases looked : scope.lookup [] with
    | none => exact isSound_nameIn_nil written.2
    | some uri => exact isSound_nameIn scopeSound looked written.2
  · obtain ⟨uri, looked, rfl⟩ := Option.map_eq_some_iff.mp named
    exact isSound_nameIn scopeSound looked written.2

/-- An attribute that declares nothing gets a sound name that is not the declaring word. -/
theorem isSound_attributeName? {scope : Scope} (scopeSound : scope.IsSound) {name : WrittenName}
    (written : name.IsWritten) (declaresNothing : declaredQualifier? name = none) {found : Name}
    (named : attributeName? scope name = some found) :
    found.Sound ∧ found ≠ Name.plain "xmlns" := by
  obtain ⟨qualifier, localPart⟩ := name
  cases qualifier with
  | none =>
      obtain rfl : nameIn [] localPart = found := Option.some.inj named
      refine ⟨isSound_nameIn_nil written.2, ?_⟩
      intro same
      have localSame := congrArg (String.toList ∘ Name.localPart) same
      have isWord : localPart = declaringWord := by
        simpa [nameIn, Name.plain, declaringWord] using localSame
      simp [declaredQualifier?, isWord] at declaresNothing
  | some qualifier =>
      obtain ⟨uri, looked, rfl⟩ := Option.map_eq_some_iff.mp named
      refine ⟨isSound_nameIn scopeSound looked written.2, ?_⟩
      intro same
      have qualified : qualifier ≠ [] := written.1 qualifier rfl
      obtain ⟨front, back, split, _⟩ := List.lookup_eq_some_iff.mp looked
      rcases scopeSound (qualifier, uri) (by simp [split]) with ⟨none, _⟩ | isSpace
      · exact qualified none
      · have nonempty : uri.isEmpty = false := by
          have notEmpty := isSpace.nonempty
          cases uri with
          | nil => exact absurd rfl notEmpty
          | cons c rest => rfl
        have spaceSame := congrArg Name.space same
        simp [nameIn, nonempty, Name.plain] at spaceSame

/-! ## Open elements -/

/-- The rules of the trees that are read. -/
def accepted : TreeRules :=
  sound.both admittedValues

theorem isSound_attributesIn {scope : Scope} (scopeSound : scope.IsSound)
    {attributes : List WrittenAttribute} {kept : Attributes}
    (attributesSound : ∀ entry ∈ attributes, entry.name.IsWritten ∧
      entry.value.all isXmlChar = true)
    (found : attributesIn scope attributes = some kept) :
    ∀ entry ∈ kept, (entry.1.Sound ∧ entry.1 ≠ Name.plain "xmlns" ∧ entry.2.IsText) ∧
      entry.2.chars.all isXmlChar = true := by
  induction attributes generalizing kept with
  | nil =>
      obtain rfl : [] = kept := Option.some.inj found
      simp
  | cons written rest ih =>
      have restSound := fun entry member =>
        attributesSound entry (List.mem_cons_of_mem written member)
      rw [attributesIn] at found
      split at found
      · exact ih restSound found
      · rename_i declaresNothing
        split at found
        · rename_i name others named othersFound
          obtain rfl := Option.some.inj found
          obtain ⟨writtenSound, admitted⟩ := attributesSound written (by simp)
          obtain ⟨nameSound, notDeclaring⟩ :=
            isSound_attributeName? scopeSound writtenSound declaresNothing named
          intro entry member
          rcases List.mem_cons.mp member with rfl | inOthers
          · refine ⟨⟨nameSound, notDeclaring, trivial⟩, ?_⟩
            simpa [AttributeValue.chars] using admitted
          · exact ih restSound othersFound entry inOthers
        · simp at found

/-- What holds of an open element at any point of a reading. -/
structure OpenElement.IsSound (opened : OpenElement) : Prop where
  scope : opened.scope.IsSound
  tag : accepted.tag opened.name opened.attributes
  text : accepted.text opened.text
  children : ∀ child ∈ opened.children, child.Meets accepted

theorem OpenElement.isSound_ofStart {scope : Scope} (scopeSound : scope.IsSound)
    {name : WrittenName} {attributes : List WrittenAttribute} (nameWritten : name.IsWritten)
    (attributesSound : ∀ entry ∈ attributes, entry.name.IsWritten ∧
      entry.value.all isXmlChar = true)
    {opened : OpenElement} (opens : OpenElement.ofStart scope name attributes = some opened) :
    opened.IsSound := by
  unfold OpenElement.ofStart at opens
  split at opens
  · simp at opens
  obtain ⟨inner, extended, naming⟩ := Option.bind_eq_some_iff.mp opens
  obtain ⟨found, named, keeping⟩ := Option.bind_eq_some_iff.mp naming
  obtain ⟨kept, keptFound, differing⟩ := Option.bind_eq_some_iff.mp keeping
  split at differing
  · simp at differing
  rename_i different
  obtain rfl := Option.some.inj differing
  have innerSound := isSound_extendScope scopeSound
    (fun entry member => (attributesSound entry member).2) extended
  have keptSound := isSound_attributesIn innerSound attributesSound keptFound
  have nodup : (kept.map Prod.fst).Nodup := allDifferent_iff_nodup.mp (by simpa using different)
  refine ⟨innerSound, ⟨⟨isSound_elementName? innerSound nameWritten named, nodup, ?_⟩, ?_⟩,
    ⟨rfl, trivial⟩, by simp⟩
  · exact fun entry member => (keptSound entry member).1
  · exact fun entry member => (keptSound entry member).2

theorem OpenElement.IsSound.close {opened : OpenElement} (isSound : opened.IsSound) :
    opened.close.Meets accepted :=
  Element.meets_iff.mpr ⟨isSound.tag, isSound.text, fun child member =>
    isSound.children child (List.mem_reverse.mp member)⟩

theorem OpenElement.IsSound.addChild {opened : OpenElement} (isSound : opened.IsSound)
    {child : Node} (childSound : child.Meets accepted) : (opened.addChild child).IsSound where
  scope := isSound.scope
  tag := isSound.tag
  text := isSound.text
  children := by
    intro other member
    rcases List.mem_cons.mp member with rfl | known
    · exact childSound
    · exact isSound.children other known

theorem accepted_append {front back : String} (frontSound : accepted.text front)
    (backSound : accepted.text back) : accepted.text (front ++ back) := by
  refine ⟨?_, trivial⟩
  have frontAll : front.toList.all isXmlChar = true := frontSound.1
  have backAll : back.toList.all isXmlChar = true := backSound.1
  show (front ++ back).toList.all isXmlChar = true
  rw [String.toList_append, List.all_append, frontAll, backAll]
  rfl

theorem OpenElement.IsSound.addText {opened : OpenElement} (isSound : opened.IsSound)
    {content : List Char} (admitted : content.all isXmlChar = true) :
    (opened.addText (String.ofList content)).IsSound := by
  have contentSound : accepted.text (String.ofList content) := by
    refine ⟨?_, trivial⟩
    show (String.ofList content).toList.all isXmlChar = true
    rwa [String.toList_ofList]
  obtain ⟨written, scope, name, attributes, text, children⟩ := opened
  cases children with
  | nil =>
      exact ⟨isSound.scope, isSound.tag, accepted_append isSound.text contentSound,
        by simp [OpenElement.addText]⟩
  | cons last others =>
      have lastSound := isSound.children last List.mem_cons_self
      refine ⟨isSound.scope, isSound.tag, isSound.text, ?_⟩
      intro child member
      rcases List.mem_cons.mp member with rfl | known
      · exact lastSound.withTail (accepted_append lastSound.tail contentSound)
      · exact isSound.children child (List.mem_cons_of_mem _ known)

/-! ## Steps -/

/-- What holds at any point of a reading. -/
def Progress.IsSound : Progress → Prop
  | .before => True
  | .inside innermost outer => innermost.IsSound ∧ ∀ opened ∈ outer, opened.IsSound
  | .after root => root.Meets accepted

theorem Progress.isSound_finish {element : Element} {outer : List OpenElement}
    (elementSound : element.Meets accepted) (outerSound : ∀ opened ∈ outer, opened.IsSound) :
    (Progress.finish element outer).IsSound := by
  cases outer with
  | nil => exact elementSound
  | cons parent others =>
      obtain ⟨parentSound, othersSound⟩ := List.forall_mem_cons.mp outerSound
      have childSound : (Node.ofElement element "").Meets accepted :=
        meets_ofElement.mpr ⟨elementSound, ⟨rfl, trivial⟩⟩
      exact ⟨parentSound.addChild childSound, othersSound⟩

theorem Progress.isSound_around? {progress : Progress} {scope : Scope} {outer : List OpenElement}
    (isSound : progress.IsSound) (around : progress.around? = some (scope, outer)) :
    scope.IsSound ∧ ∀ opened ∈ outer, opened.IsSound := by
  cases progress with
  | before =>
      obtain ⟨rfl, rfl⟩ := Prod.mk.inj (Option.some.inj around)
      exact ⟨isSound_outerScope, by simp⟩
  | inside innermost others =>
      obtain ⟨rfl, rfl⟩ := Prod.mk.inj (Option.some.inj around)
      exact ⟨isSound.1.scope, List.forall_mem_cons.mpr isSound⟩
  | after root => simp [Progress.around?] at around

/-- A sound token keeps what holds of all open elements. -/
theorem Progress.Leads.isSound {keepsComments : Bool} {progress next : Progress} {token : Token}
    (leads : Progress.Leads keepsComments progress token next) (tokenSound : token.IsSound)
    (isSound : progress.IsSound) : next.IsSound := by
  cases leads with
  | blank _ _ => exact isSound
  | instruction => exact isSound
  | dropped _ _ => exact isSound
  | comment innermost outer content _ =>
      refine ⟨isSound.1.addChild ?_, isSound.2⟩
      refine meets_comment.mpr ⟨⟨?_, trivial⟩, ⟨rfl, trivial⟩⟩
      show IsCommentContent (String.ofList content).toList
      rw [String.toList_ofList]
      exact tokenSound
  | text _ _ _ _ => exact ⟨isSound.1.addText tokenSound, isSound.2⟩
  | literal _ _ _ => exact ⟨isSound.1.addText tokenSound, isSound.2⟩
  | opened around opens =>
      obtain ⟨scopeSound, outerSound⟩ := isSound_around? isSound around
      exact ⟨OpenElement.isSound_ofStart scopeSound tokenSound.1 tokenSound.2 opens, outerSound⟩
  | empty around opens =>
      obtain ⟨scopeSound, outerSound⟩ := isSound_around? isSound around
      have openedSound :=
        OpenElement.isSound_ofStart scopeSound tokenSound.1 tokenSound.2 opens
      exact isSound_finish openedSound.close outerSound
  | closed innermost outer => exact isSound_finish isSound.1.close isSound.2

/-- The tree of a document is sound, and its values hold only characters of documents. -/
theorem accepted_of_readDocument {keepsComments : Bool} {text : String} {root : Element}
    (read : readDocument keepsComments text = .ok root) : root.Meets accepted := by
  obtain ⟨dialect, body, found, prolog, taken, stepped⟩ := steps_of_readDocument read
  have absent := not_mem_of_readProlog (not_mem_normalizeLineEnds _) prolog
  exact Progress.steps_keep Progress.Leads.isSound (isSound_of_tokens absent taken) stepped trivial

end IdeModules.Xml
