import IdeModules.Proofs.Xml.Cutting

/-!
# Tokens take characters away

`TakesToken` says kind by kind what characters a token takes.  What it leaves
behind is a suffix of the characters, and a shorter one.
The steps that the reading of a document is given are therefore always enough: the
tokens of a document are its first token and the tokens of the rest.
-/

namespace IdeModules.Xml

/-- What is left of characters once some have been taken off the front. -/
structure Behind (rest cs : List Char) : Prop where
  suffix : rest <:+ cs
  shorter : rest.length < cs.length

namespace Behind

variable {first second third : List Char}

theorem trans (one : Behind first second) (other : Behind second third) : Behind first third :=
  ⟨one.suffix.trans other.suffix, Nat.lt_trans one.shorter other.shorter⟩

theorem of_suffix (one : Behind first second) (other : second <:+ third) : Behind first third :=
  ⟨one.suffix.trans other, Nat.lt_of_lt_of_le one.shorter other.length_le⟩

theorem suffix_of (one : first <:+ second) (other : Behind second third) : Behind first third :=
  ⟨one.trans other.suffix, Nat.lt_of_le_of_lt one.length_le other.shorter⟩

theorem cons (c : Char) (rest : List Char) : Behind rest (c :: rest) :=
  ⟨List.suffix_cons c rest, Nat.lt_succ_self _⟩

theorem of_cons_suffix {c : Char} {rest cs : List Char} (suffix : c :: rest <:+ cs) :
    Behind rest cs :=
  (cons c rest).of_suffix suffix

end Behind

/-! ## Words, marks and names -/

section Consumption

variable {dialect : Dialect}

theorem skipXmlSpace_suffix (cs : List Char) : skipXmlSpace cs <:+ cs :=
  List.dropWhile_suffix isXmlSpace

theorem suffix_of_skipXmlSpace {cs rest : List Char} (skipped : skipXmlSpace cs = rest) :
    rest <:+ cs :=
  skipped ▸ skipXmlSpace_suffix cs

theorem behind_of_skipXmlSpace {c : Char} {cs rest : List Char}
    (skipped : skipXmlSpace cs = c :: rest) : Behind rest cs :=
  Behind.of_cons_suffix (suffix_of_skipXmlSpace skipped)

theorem suffix_of_stripWord {word cs rest : List Char}
    (stripped : stripWord word cs = some rest) : rest <:+ cs :=
  ⟨word, (eq_append_of_stripWord stripped).symm⟩

theorem suffix_of_cutAt {mark cs front rest : List Char}
    (cut : cutAt mark cs = some (front, rest)) : rest <:+ cs :=
  ⟨front ++ mark, by rw [eq_append_of_cutAt cut, List.append_assoc]⟩

theorem behind_of_cutAt {mark cs front rest : List Char} (nonempty : mark ≠ [])
    (cut : cutAt mark cs = some (front, rest)) : Behind rest cs := by
  refine ⟨suffix_of_cutAt cut, ?_⟩
  have lengths := congrArg List.length (eq_append_of_cutAt cut)
  have marked := List.length_pos_iff.mpr nonempty
  simp only [List.length_append] at lengths
  omega

theorem behind_of_takePlainName {cs name rest : List Char}
    (taken : takePlainName dialect cs = some (name, rest)) : Behind rest cs := by
  cases cs with
  | nil => simp [takePlainName] at taken
  | cons c cs =>
      unfold takePlainName at taken
      by_cases start : isNameStart dialect.signLetters c = true
      · simp only [start, if_true, Option.some.injEq, Prod.mk.injEq] at taken
        obtain ⟨_, rfl⟩ := taken
        exact Behind.suffix_of (List.dropWhile_suffix _) (Behind.cons c cs)
      · simp [start] at taken

theorem behind_of_takeName {cs rest : List Char} {name : WrittenName}
    (taken : takeName dialect cs = some (name, rest)) : Behind rest cs := by
  unfold takeName at taken
  split at taken
  · simp at taken
  · rename_i first
    obtain ⟨⟨second, after⟩, secondTaken, same⟩ := Option.map_eq_some_iff.mp taken
    obtain ⟨_, rfl⟩ := Prod.mk.inj same
    exact (behind_of_takePlainName secondTaken).trans
      ((Behind.cons _ _).trans (behind_of_takePlainName first))
  · rename_i first
    obtain ⟨_, rfl⟩ := Prod.mk.inj (Option.some.inj taken)
    exact behind_of_takePlainName first

theorem behind_of_takeQuoted {cs value rest : List Char}
    (taken : takeQuoted cs = some (value, rest)) : Behind rest cs := by
  cases cs with
  | nil => simp [takeQuoted] at taken
  | cons quote cs =>
      unfold takeQuoted at taken
      split at taken
      · rename_i quote' rest' same
        obtain ⟨rfl, rfl⟩ := List.cons.inj same
        split at taken
        · exact (behind_of_cutAt (by simp) taken).trans (Behind.cons _ _)
        · simp at taken
      · simp at taken

/-! ## Markup -/

/-- What stands in a start tag behind its name: attributes, the end of the tag, and the rest. -/
inductive TakesAttributes (dialect : Dialect) :
    List Char → List WrittenAttribute → Bool → List Char → Prop where
  | done {cs rest : List Char} :
      skipXmlSpace cs = '>' :: rest → TakesAttributes dialect cs [] false rest
  | closed {cs rest : List Char} :
      skipXmlSpace cs = '/' :: '>' :: rest → TakesAttributes dialect cs [] true rest
  | next {cs afterName afterSign raw afterValue rest value : List Char} {name : WrittenName}
      {others : List WrittenAttribute} {isClosed : Bool} :
      takeName dialect (skipXmlSpace cs) = some (name, afterName) →
      skipXmlSpace afterName = '=' :: afterSign →
      takeQuoted (skipXmlSpace afterSign) = some (raw, afterValue) →
      expandValue dialect raw = some value →
      TakesAttributes dialect afterValue others isClosed rest →
      TakesAttributes dialect cs (⟨name, value⟩ :: others) isClosed rest

theorem takes_of_takeAttributes {steps : Nat} {cs rest : List Char}
    {attributes : List WrittenAttribute} {isClosed : Bool}
    (taken : takeAttributes dialect steps cs = some (attributes, isClosed, rest)) :
    TakesAttributes dialect cs attributes isClosed rest := by
  induction steps generalizing cs attributes with
  | zero => simp [takeAttributes] at taken
  | succ steps ih =>
      unfold takeAttributes at taken
      split at taken
      · rename_i closing
        simp only [Option.some.injEq, Prod.mk.injEq] at taken
        obtain ⟨rfl, rfl, rfl⟩ := taken
        exact .done closing
      · rename_i closing
        simp only [Option.some.injEq, Prod.mk.injEq] at taken
        obtain ⟨rfl, rfl, rfl⟩ := taken
        exact .closed closing
      · split at taken
        · simp at taken
        split at taken
        · simp at taken
        rename_i nameTaken
        split at taken
        · rename_i sign
          split at taken
          · simp at taken
          rename_i valueTaken
          split at taken
          · rename_i expands othersTaken
            simp only [Option.some.injEq, Prod.mk.injEq] at taken
            obtain ⟨rfl, rfl, rfl⟩ := taken
            exact .next nameTaken sign valueTaken expands (ih othersTaken)
          · simp at taken
        · simp at taken

theorem TakesAttributes.behind {cs rest : List Char} {attributes : List WrittenAttribute}
    {isClosed : Bool} (takes : TakesAttributes dialect cs attributes isClosed rest) :
    Behind rest cs := by
  induction takes with
  | done closing => exact behind_of_skipXmlSpace closing
  | closed closing => exact (Behind.cons _ _).trans (behind_of_skipXmlSpace closing)
  | next nameTaken sign valueTaken _ _ others =>
      have nameBehind := (behind_of_takeName nameTaken).of_suffix (skipXmlSpace_suffix _)
      have signBehind := behind_of_skipXmlSpace sign
      have valueBehind := (behind_of_takeQuoted valueTaken).of_suffix (skipXmlSpace_suffix _)
      exact others.trans (valueBehind.trans (signBehind.trans nameBehind))

theorem comment_of_takeComment {cs rest : List Char} {token : Token}
    (taken : takeComment cs = some (token, rest)) :
    ∃ content, token = .comment content ∧ cutAt "--".toList cs = some (content, '>' :: rest) ∧
      content.all isXmlChar = true := by
  unfold takeComment at taken
  split at taken
  · rename_i content after cut
    split at taken
    · rename_i admitted
      simp only [Option.some.injEq, Prod.mk.injEq] at taken
      obtain ⟨rfl, rfl⟩ := taken
      exact ⟨content, rfl, cut, admitted⟩
    · simp at taken
  · simp at taken

theorem behind_of_takeComment {cs rest : List Char} {token : Token}
    (taken : takeComment cs = some (token, rest)) : Behind rest cs := by
  obtain ⟨content, _, cut, _⟩ := comment_of_takeComment taken
  exact Behind.of_cons_suffix (suffix_of_cutAt cut)

theorem instruction_of_takeInstruction {cs rest : List Char} {token : Token}
    (taken : takeInstruction dialect cs = some (token, rest)) :
    ∃ target afterTarget body, token = .instruction ∧
      takePlainName dialect cs = some (target, afterTarget) ∧
        cutAt "?>".toList afterTarget = some (body, rest) := by
  unfold takeInstruction at taken
  split at taken
  · simp at taken
  · rename_i target afterTarget targetTaken
    split at taken
    · simp at taken
    split at taken
    · simp at taken
    rename_i body after cut
    split at taken
    · simp only [Option.some.injEq, Prod.mk.injEq] at taken
      obtain ⟨rfl, rfl⟩ := taken
      exact ⟨target, afterTarget, body, rfl, targetTaken, cut⟩
    · simp at taken

theorem behind_of_takeInstruction {cs rest : List Char} {token : Token}
    (taken : takeInstruction dialect cs = some (token, rest)) : Behind rest cs := by
  obtain ⟨target, afterTarget, body, _, targetTaken, cut⟩ := instruction_of_takeInstruction taken
  exact Behind.suffix_of (suffix_of_cutAt cut) (behind_of_takePlainName targetTaken)

/-- What characters a token takes, and what it leaves behind. -/
inductive TakesToken (dialect : Dialect) : List Char → Token → List Char → Prop where
  | start {cs afterName rest : List Char} {name : WrittenName}
      {attributes : List WrittenAttribute} {isClosed : Bool} :
      takeName dialect cs = some (name, afterName) →
      TakesAttributes dialect afterName attributes isClosed rest →
      TakesToken dialect ('<' :: cs) (.start name attributes isClosed) rest
  | finish {cs name rest : List Char} :
      skipXmlSpace (cs.dropWhile fun c => !isXmlSpace c && c != '>') = '>' :: rest →
      name = cs.takeWhile (fun c => !isXmlSpace c && c != '>') →
      TakesToken dialect ('<' :: '/' :: cs) (.finish name) rest
  | instruction {cs rest : List Char} :
      takeInstruction dialect cs = some (.instruction, rest) →
      TakesToken dialect ('<' :: '?' :: cs) .instruction rest
  | comment {cs inner content rest : List Char} :
      stripWord "--".toList cs = some inner → takeComment inner = some (.comment content, rest) →
      TakesToken dialect ('<' :: '!' :: cs) (.comment content) rest
  | literal {cs inner content rest : List Char} :
      stripWord "[CDATA[".toList cs = some inner →
      cutAt "]]>".toList inner = some (content, rest) → content.all isXmlChar = true →
      TakesToken dialect ('<' :: '!' :: cs) (.literal content) rest
  | text {c : Char} {cs content : List Char} (isLiteral : Bool) :
      c ≠ '<' →
      expand dialect false id none ((c :: cs).takeWhile (· ≠ '<')) = some content →
      TakesToken dialect (c :: cs) (.text content isLiteral) (cs.dropWhile (· ≠ '<'))

theorem takes_of_takeMarkup {cs rest : List Char} {token : Token}
    (taken : takeMarkup dialect cs = some (token, rest)) :
    TakesToken dialect ('<' :: cs) token rest := by
  unfold takeMarkup at taken
  split at taken
  · unfold takeFinish at taken
    split at taken
    · rename_i closing
      simp only [Option.some.injEq, Prod.mk.injEq] at taken
      obtain ⟨rfl, rfl⟩ := taken
      exact .finish closing rfl
    · simp at taken
  · obtain ⟨_, _, _, rfl, _⟩ := instruction_of_takeInstruction taken
    exact .instruction taken
  · split at taken
    · rename_i stripped
      obtain ⟨content, rfl, _⟩ := comment_of_takeComment taken
      exact .comment stripped taken
    split at taken
    · rename_i stripped
      unfold takeLiteral at taken
      split at taken
      · simp at taken
      rename_i cut
      split at taken
      · rename_i admitted
        simp only [Option.some.injEq, Prod.mk.injEq] at taken
        obtain ⟨rfl, rfl⟩ := taken
        exact .literal stripped cut admitted
      · simp at taken
    · simp at taken
  · unfold takeStart at taken
    split at taken
    · simp at taken
    · rename_i nameTaken
      obtain ⟨⟨attributes, isClosed, after⟩, attributesTaken, same⟩ :=
        Option.map_eq_some_iff.mp taken
      obtain ⟨rfl, rfl⟩ := Prod.mk.inj same
      exact .start nameTaken (takes_of_takeAttributes attributesTaken)

theorem takes_of_takeToken {c : Char} {cs rest : List Char} {token : Token}
    (taken : takeToken dialect (c :: cs) = some (token, rest)) :
    TakesToken dialect (c :: cs) token rest := by
  unfold takeToken at taken
  split at taken
  · rename_i inner same
    obtain ⟨rfl, rfl⟩ := List.cons.inj same
    exact takes_of_takeMarkup taken
  · rename_i notMarkup
    have different : c ≠ '<' := fun same => notMarkup cs (by rw [same])
    unfold takeText at taken
    simp only at taken
    split at taken
    · simp at taken
    · obtain ⟨content, expands, same⟩ := Option.map_eq_some_iff.mp taken
      obtain ⟨rfl, rfl⟩ := Prod.mk.inj same
      rw [List.dropWhile_cons_of_pos (by simpa using different)]
      exact .text _ different expands

theorem TakesToken.behind {cs rest : List Char} {token : Token}
    (takes : TakesToken dialect cs token rest) : Behind rest cs := by
  cases takes with
  | start nameTaken attributes =>
      exact attributes.behind.trans ((behind_of_takeName nameTaken).trans (Behind.cons _ _))
  | finish closing _ =>
      have inside := (behind_of_skipXmlSpace closing).of_suffix (List.dropWhile_suffix _)
      exact inside.trans ((Behind.cons _ _).trans (Behind.cons _ _))
  | instruction taken =>
      exact (behind_of_takeInstruction taken).trans ((Behind.cons _ _).trans (Behind.cons _ _))
  | comment stripped taken =>
      exact ((behind_of_takeComment taken).of_suffix (suffix_of_stripWord stripped)).trans
        ((Behind.cons _ _).trans (Behind.cons _ _))
  | literal stripped cut _ =>
      exact ((behind_of_cutAt (by decide) cut).of_suffix (suffix_of_stripWord stripped)).trans
        ((Behind.cons _ _).trans (Behind.cons _ _))
  | text _ _ _ => exact Behind.suffix_of (List.dropWhile_suffix _) (Behind.cons _ _)

theorem behind_of_takeToken {c : Char} {cs rest : List Char} {token : Token}
    (taken : takeToken dialect (c :: cs) = some (token, rest)) : Behind rest (c :: cs) :=
  (takes_of_takeToken taken).behind

/-! ## Tokens of a document -/

theorem tokensWithin_eq {cs : List Char} {steps others : Nat} (enough : cs.length ≤ steps)
    (alsoEnough : cs.length ≤ others) :
    tokensWithin dialect steps cs = tokensWithin dialect others cs := by
  induction steps generalizing cs others with
  | zero =>
      obtain rfl : cs = [] := by simpa using enough
      cases others <;> rfl
  | succ steps ih =>
      cases cs with
      | nil => cases others <;> rfl
      | cons c cs =>
          cases others with
          | zero => simp at alsoEnough
          | succ others =>
              rw [tokensWithin, tokensWithin]
              cases taken : takeToken dialect (c :: cs) with
              | none => rfl
              | some found =>
                  have shorter := (behind_of_takeToken taken).shorter
                  simp only [List.length_cons] at shorter enough alsoEnough
                  simp only
                  rw [ih (by omega) (by omega : found.2.length ≤ others)]

theorem tokens_of_takeToken {c : Char} {cs rest : List Char} {token : Token}
    (taken : takeToken dialect (c :: cs) = some (token, rest)) :
    tokens dialect (c :: cs) = (tokens dialect rest).map (token :: ·) := by
  have shorter := (behind_of_takeToken taken).shorter
  simp only [List.length_cons] at shorter
  rw [tokens, List.length_cons, tokensWithin, taken]
  simp only
  rw [tokensWithin_eq (by omega) (Nat.le_refl rest.length)]
  rfl

theorem tokens_eq_none_of_takeToken {c : Char} {cs : List Char}
    (stuck : takeToken dialect (c :: cs) = none) : tokens dialect (c :: cs) = none := by
  rw [tokens, List.length_cons, tokensWithin, stuck]

end Consumption

end IdeModules.Xml
