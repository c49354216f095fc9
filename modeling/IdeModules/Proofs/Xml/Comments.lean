import IdeModules.Proofs.Xml.Acceptance
import IdeModules.Proofs.Xml.Documents
import IdeModules.Proofs.Xml.Indentation

/-!
# Trees without comments

A document that is read without its comments gives a tree that has none, and the
document of such a tree is read alike whether comments are kept or dropped.
-/

namespace IdeModules.Xml

/-- The rules of trees without comments. -/
def commentless : TreeRules where
  tag _ _ := True
  text _ := True
  comment _ := False

/-! ## Reading without comments -/

/-- Whether no comment has been read into an open element. -/
def OpenElement.IsCommentless (opened : OpenElement) : Prop :=
  ∀ child ∈ opened.children, child.Meets commentless

/-- Whether no comment has been read into what there is of a document. -/
def Progress.IsCommentless : Progress → Prop
  | .before => True
  | .inside innermost outer =>
    innermost.IsCommentless ∧ ∀ opened ∈ outer, OpenElement.IsCommentless opened
  | .after root => root.Meets commentless

theorem OpenElement.isCommentless_ofStart {scope : Scope} {name : WrittenName}
    {attributes : List WrittenAttribute} {opened : OpenElement}
    (opens : OpenElement.ofStart scope name attributes = some opened) : opened.IsCommentless := by
  unfold OpenElement.ofStart at opens
  split at opens
  · simp at opens
  obtain ⟨_, _, naming⟩ := Option.bind_eq_some_iff.mp opens
  obtain ⟨_, _, keeping⟩ := Option.bind_eq_some_iff.mp naming
  obtain ⟨_, _, differing⟩ := Option.bind_eq_some_iff.mp keeping
  split at differing
  · simp at differing
  obtain rfl := Option.some.inj differing
  exact fun child member => absurd member List.not_mem_nil

theorem OpenElement.IsCommentless.close {opened : OpenElement}
    (commentlessSoFar : opened.IsCommentless) : opened.close.Meets commentless :=
  Element.meets_iff.mpr ⟨trivial, trivial, fun child member =>
    commentlessSoFar child (List.mem_reverse.mp member)⟩

theorem OpenElement.IsCommentless.addText {opened : OpenElement}
    (commentlessSoFar : opened.IsCommentless) (content : String) :
    (opened.addText content).IsCommentless := by
  obtain ⟨written, scope, name, attributes, text, children⟩ := opened
  cases children with
  | nil => exact fun child member => absurd member List.not_mem_nil
  | cons last others =>
      obtain ⟨lastMeets, othersMeet⟩ := List.forall_mem_cons.mp commentlessSoFar
      exact List.forall_mem_cons.mpr ⟨lastMeets.withTail trivial, othersMeet⟩

theorem Progress.isCommentless_finish {element : Element} {outer : List OpenElement}
    (elementMeets : element.Meets commentless)
    (outerMeet : ∀ opened ∈ outer, OpenElement.IsCommentless opened) :
    (Progress.finish element outer).IsCommentless := by
  cases outer with
  | nil => exact elementMeets
  | cons parent others =>
      obtain ⟨parentMeets, othersMeet⟩ := List.forall_mem_cons.mp outerMeet
      exact ⟨List.forall_mem_cons.mpr ⟨meets_ofElement.mpr ⟨elementMeets, trivial⟩, parentMeets⟩,
        othersMeet⟩

theorem Progress.isCommentless_around? {progress : Progress} {scope : Scope}
    {outer : List OpenElement} (soFar : progress.IsCommentless)
    (around : progress.around? = some (scope, outer)) :
    ∀ opened ∈ outer, OpenElement.IsCommentless opened := by
  cases progress with
  | before =>
      obtain ⟨_, rfl⟩ := Prod.mk.inj (Option.some.inj around)
      simp
  | inside innermost others =>
      obtain ⟨_, rfl⟩ := Prod.mk.inj (Option.some.inj around)
      exact List.forall_mem_cons.mpr soFar
  | after root => simp [Progress.around?] at around

/-- Where comments are dropped, no token adds one to what has been read without any. -/
theorem Progress.Leads.isCommentless {progress next : Progress} {token : Token}
    (leads : Progress.Leads false progress token next) (soFar : progress.IsCommentless) :
    next.IsCommentless := by
  cases leads with
  | blank _ _ => exact soFar
  | instruction => exact soFar
  | dropped _ _ => exact soFar
  | comment _ _ _ keeps => exact absurd keeps Bool.false_ne_true
  | text _ _ _ _ => exact ⟨soFar.1.addText _, soFar.2⟩
  | literal _ _ _ => exact ⟨soFar.1.addText _, soFar.2⟩
  | opened around opens =>
      exact ⟨OpenElement.isCommentless_ofStart opens, isCommentless_around? soFar around⟩
  | empty around opens =>
      exact isCommentless_finish (OpenElement.isCommentless_ofStart opens).close
        (isCommentless_around? soFar around)
  | closed _ _ => exact isCommentless_finish soFar.1.close soFar.2

theorem commentless_of_readDocument {text : String} {root : Element}
    (read : readDocument false text = .ok root) : root.Meets commentless := by
  obtain ⟨dialect, body, found, _, _, stepped⟩ := steps_of_readDocument read
  have anyToken : ∀ token ∈ found, True := fun _ _ => trivial
  have nothing : Progress.before.IsCommentless := trivial
  exact Progress.steps_keep (fun leads _ => leads.isCommentless) anyToken stepped nothing

/-! ## Documents without comments -/

def Token.IsNoComment : Token → Prop
  | .comment _ => False
  | _ => True

theorem steps_of_isNoComment {keepsComments : Bool} {progress : Progress} {found : List Token}
    (noComments : ∀ token ∈ found, token.IsNoComment) :
    progress.steps keepsComments found = progress.steps true found := by
  induction found generalizing progress with
  | nil => rfl
  | cons token rest ih =>
      obtain ⟨noComment, others⟩ := List.forall_mem_cons.mp noComments
      have same : progress.step keepsComments token = progress.step true token := by
        cases token with
        | comment content => exact noComment.elim
        | _ => rfl
      rw [Progress.steps, Progress.steps, same]
      exact Option.bind_congr fun next _ => ih others

theorem isNoComment_textToken (text : List Char) :
    ∀ token ∈ Piece.textToken text, token.IsNoComment := by
  unfold Piece.textToken
  split
  · simp
  · simp [Token.IsNoComment]

theorem isNoComment_tagPieces {name : WrittenName} {attributes : List WrittenAttribute}
    {text tail : String} {isEmpty : Bool} {inner : List Piece}
    (innerTokens : ∀ token ∈ inner.flatMap Piece.tokens, token.IsNoComment) :
    ∀ token ∈ (tagPieces name attributes text isEmpty inner tail).flatMap Piece.tokens,
      token.IsNoComment := by
  unfold tagPieces
  split
  · simpa [Piece.tokens, Markup.token, Token.IsNoComment] using isNoComment_textToken tail.toList
  · simp only [List.flatMap_cons, List.flatMap_append, List.flatMap_nil, List.append_nil,
      Piece.tokens, Markup.token, List.forall_mem_append, List.forall_mem_cons]
    exact ⟨⟨trivial, isNoComment_textToken _⟩, innerTokens, trivial, isNoComment_textToken _⟩

theorem isNoComment_nodesPieces {prefixes : Keyed String String} {nodes : List Node}
    (each : ∀ node ∈ nodes,
      ∀ token ∈ (nodePieces prefixes node).flatMap Piece.tokens, token.IsNoComment) :
    ∀ token ∈ (nodesPieces prefixes nodes).flatMap Piece.tokens, token.IsNoComment := by
  intro token member
  rw [nodesPieces_eq_flatMap, List.flatMap_assoc] at member
  obtain ⟨node, isNode, isToken⟩ := List.mem_flatMap.mp member
  exact each node isNode token isToken

theorem isNoComment_nodePieces {prefixes : Keyed String String} {node : Node}
    (meets : node.Meets commentless) :
    ∀ token ∈ (nodePieces prefixes node).flatMap Piece.tokens, token.IsNoComment := by
  induction node with
  | element name attributes text children tail ih =>
      obtain ⟨_, _, childrenMeet, _⟩ := meets_element.mp meets
      exact isNoComment_tagPieces (isNoComment_nodesPieces fun child member =>
        ih child member (childrenMeet child member))
  | comment content tail => exact (meets_comment.mp meets).1.elim

/-- Without comments it makes no difference whether a reader keeps them. -/
theorem elementOfTokens_of_commentless {keepsComments : Bool} {root : Element}
    (meets : root.Meets commentless) (tail : String) :
    elementOfTokens keepsComments ((rootPieces root tail).flatMap Piece.tokens) =
      elementOfTokens true ((rootPieces root tail).flatMap Piece.tokens) := by
  obtain ⟨_, _, childrenMeet⟩ := Element.meets_iff.mp meets
  have noComments : ∀ token ∈ (rootPieces root tail).flatMap Piece.tokens, token.IsNoComment :=
    isNoComment_tagPieces (isNoComment_nodesPieces fun child member =>
      isNoComment_nodePieces (childrenMeet child member))
  rw [elementOfTokens, elementOfTokens]
  exact congrArg (fun progress => progress.bind Progress.root?) (steps_of_isNoComment noComments)

/-- A legible tree without comments is read back from its document by every reader. -/
theorem readDocument_document_of_commentless {root : Element} (isSound : root.Meets sound)
    (meets : root.Meets commentless) (namesPlain : root.Meets plainNames)
    (valuesAdmitted : root.Meets admittedValues) (keepsComments : Bool) :
    readDocument keepsComments (document root) = .ok (root.change settling) := by
  have settledMeets : (root.change settling).Meets commentless :=
    (Element.meets_change_text_iff fun _ => trivial).mpr meets
  rw [readDocument_eq isSound, ← readDocument_document isSound namesPlain valuesAdmitted,
    readDocument_eq isSound]
  have sameElements : (tokens plainDialect
        ((rootPieces (root.change settling) "\n").flatMap Piece.chars)).bind
          (elementOfTokens keepsComments) =
      (tokens plainDialect
        ((rootPieces (root.change settling) "\n").flatMap Piece.chars)).bind
          (elementOfTokens true) := by
    rw [tokens_pieces (sound_rootPieces (sound_settled isSound) (by decide))]
    split
    · rw [Option.bind_some, Option.bind_some]
      exact elementOfTokens_of_commentless settledMeets "\n"
    · rfl
  rw [sameElements]

end IdeModules.Xml
