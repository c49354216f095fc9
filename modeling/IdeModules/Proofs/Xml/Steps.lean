import IdeModules.Xml.Reader

/-!
# Steps of a reading

`Progress.Leads` says where each token leads a reading: it leaves what has been
read as it is, adds to the innermost open element, opens an element or closes
one.  What a reading keeps is then shown token by token, and `Progress.steps_keep`
carries it from the start of a document to its end.
-/

namespace IdeModules.Xml

namespace Progress

/-- Whether no element is open. -/
def IsOutside : Progress → Prop
  | .inside _ _ => False
  | _ => True

/-- The scope and the open elements that the next start tag finds, where there may be one. -/
def around? : Progress → Option (Scope × List OpenElement)
  | .before => some (outerScope, [])
  | .inside innermost outer => some (innermost.scope, innermost :: outer)
  | .after _ => none

/-- Where a token leads a reading. -/
inductive Leads (keepsComments : Bool) : Progress → Token → Progress → Prop where
  | blank {progress : Progress} {content : List Char} :
      progress.IsOutside → content.all isXmlSpace = true →
      Leads keepsComments progress (.text content true) progress
  | instruction (progress : Progress) :
      Leads keepsComments progress .instruction progress
  | dropped {progress : Progress} (content : List Char) :
      progress.IsOutside ∨ keepsComments = false →
      Leads keepsComments progress (.comment content) progress
  | comment (innermost : OpenElement) (outer : List OpenElement) (content : List Char) :
      keepsComments = true →
      Leads keepsComments (.inside innermost outer) (.comment content)
        (.inside (innermost.addChild (.comment (String.ofList content) "")) outer)
  | text (innermost : OpenElement) (outer : List OpenElement) (content : List Char)
      (isLiteral : Bool) :
      Leads keepsComments (.inside innermost outer) (.text content isLiteral)
        (.inside (innermost.addText (String.ofList content)) outer)
  | literal (innermost : OpenElement) (outer : List OpenElement) (content : List Char) :
      Leads keepsComments (.inside innermost outer) (.literal content)
        (.inside (innermost.addText (String.ofList content)) outer)
  | opened {progress : Progress} {scope : Scope} {outer : List OpenElement} {name : WrittenName}
      {attributes : List WrittenAttribute} {element : OpenElement} :
      progress.around? = some (scope, outer) →
      OpenElement.ofStart scope name attributes = some element →
      Leads keepsComments progress (.start name attributes false) (.inside element outer)
  | empty {progress : Progress} {scope : Scope} {outer : List OpenElement} {name : WrittenName}
      {attributes : List WrittenAttribute} {element : OpenElement} :
      progress.around? = some (scope, outer) →
      OpenElement.ofStart scope name attributes = some element →
      Leads keepsComments progress (.start name attributes true) (finish element.close outer)
  | closed (innermost : OpenElement) (outer : List OpenElement) :
      Leads keepsComments (.inside innermost outer) (.finish innermost.written)
        (finish innermost.close outer)

variable {keepsComments : Bool} {progress next : Progress} {token : Token}

theorem leads_of_start {scope : Scope} {outer : List OpenElement} {name : WrittenName}
    {attributes : List WrittenAttribute} {isClosed : Bool}
    (around : progress.around? = some (scope, outer))
    (started : start scope outer name attributes isClosed = some next) :
    Leads keepsComments progress (.start name attributes isClosed) next := by
  obtain ⟨element, opens, rfl⟩ := Option.map_eq_some_iff.mp started
  cases isClosed with
  | false => exact .opened around opens
  | true => exact .empty around opens

theorem leads_of_stepOutside (outside : progress.IsOutside)
    (stepped : progress.stepOutside token = some next) :
    Leads keepsComments progress token next := by
  cases token with
  | text content isLiteral =>
      rw [stepOutside] at stepped
      split at stepped
      · rename_i blank
        obtain ⟨rfl, allSpace⟩ := (Bool.and_eq_true _ _).mp blank
        exact Option.some.inj stepped ▸ .blank outside allSpace
      · simp at stepped
  | literal content => simp [stepOutside] at stepped
  | comment content => exact Option.some.inj stepped ▸ .dropped content (.inl outside)
  | instruction => exact Option.some.inj stepped ▸ .instruction progress
  | start name attributes isClosed =>
      cases progress with
      | before => exact leads_of_start rfl stepped
      | inside innermost outer => exact outside.elim
      | after root => simp [stepOutside] at stepped
  | finish name => simp [stepOutside] at stepped

theorem leads_of_stepInside {innermost : OpenElement} {outer : List OpenElement}
    (stepped : stepInside keepsComments innermost outer token = some next) :
    Leads keepsComments (.inside innermost outer) token next := by
  cases token with
  | text content isLiteral =>
      exact Option.some.inj stepped ▸ .text innermost outer content isLiteral
  | literal content => exact Option.some.inj stepped ▸ .literal innermost outer content
  | comment content =>
      cases keepsComments with
      | false => exact Option.some.inj stepped ▸ .dropped content (.inr rfl)
      | true => exact Option.some.inj stepped ▸ .comment innermost outer content rfl
  | instruction => exact Option.some.inj stepped ▸ .instruction _
  | start name attributes isClosed => exact leads_of_start rfl stepped
  | finish name =>
      rw [stepInside] at stepped
      split at stepped
      · rename_i same
        exact Option.some.inj stepped ▸ same ▸ .closed innermost outer
      · simp at stepped

/-- A step of the reader leads where its token leads. -/
theorem leads_of_step (stepped : progress.step keepsComments token = some next) :
    Leads keepsComments progress token next := by
  cases progress with
  | before => exact leads_of_stepOutside trivial stepped
  | inside innermost outer => exact leads_of_stepInside stepped
  | after root => exact leads_of_stepOutside trivial stepped

/-- What every token keeps that has a property is kept by all tokens that have it. -/
theorem steps_keep {holds : Progress → Prop} {tokenHolds : Token → Prop}
    (keeps : ∀ {progress token next}, Leads keepsComments progress token next →
      tokenHolds token → holds progress → holds next)
    {found : List Token} (tokensHold : ∀ token ∈ found, tokenHolds token)
    (stepped : progress.steps keepsComments found = some next) (holdsSoFar : holds progress) :
    holds next := by
  induction found generalizing progress with
  | nil => exact Option.some.inj stepped ▸ holdsSoFar
  | cons token rest ih =>
      obtain ⟨tokenMeets, restMeet⟩ := List.forall_mem_cons.mp tokensHold
      obtain ⟨middle, first, others⟩ := Option.bind_eq_some_iff.mp stepped
      exact ih restMeet others (keeps (leads_of_step first) tokenMeets holdsSoFar)

end Progress

/-- A document that is read has a prolog, and the tokens behind it lead to its root. -/
theorem steps_of_readDocument {keepsComments : Bool} {text : String} {root : Element}
    (read : readDocument keepsComments text = .ok root) :
    ∃ dialect body found,
      readProlog (normalizeLineEnds (withoutMark text.toList)) = .ok (dialect, body) ∧
        tokens dialect body = some found ∧
        Progress.before.steps keepsComments found = some (.after root) := by
  obtain ⟨⟨dialect, body⟩, prolog, building⟩ := except_bind_ok read
  simp only at building
  split at building
  · rename_i element built
    obtain rfl := Except.ok.inj building
    obtain ⟨found, taken, elementBuilt⟩ := Option.bind_eq_some_iff.mp built
    obtain ⟨progress, stepped, isRoot⟩ := Option.bind_eq_some_iff.mp elementBuilt
    refine ⟨dialect, body, found, prolog, taken, ?_⟩
    cases progress with
    | before => simp [Progress.root?] at isRoot
    | inside innermost outer => simp [Progress.root?] at isRoot
    | after root => rw [stepped, ← Option.some.inj isRoot]
  · simp at building

end IdeModules.Xml
