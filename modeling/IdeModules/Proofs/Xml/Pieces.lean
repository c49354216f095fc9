import IdeModules.Proofs.Xml.Consumption
import IdeModules.Proofs.Xml.Tags

/-!
# Pieces of printed markup

A printed document is a sequence of pieces: a tag or a comment with the text
behind it.  Every piece starts with a bracket that nothing else holds, so the
tokens of the document are those of its pieces, one after another, if every
piece is legible; otherwise the document has no tokens.
-/

namespace IdeModules.Xml

/-- A tag or a comment. -/
inductive Markup where
  | start (name : WrittenName) (attributes : List WrittenAttribute) (isClosed : Bool)
  | finish (name : WrittenName)
  | comment (content : List Char)

/-- A tag or a comment, and the text up to the next one. -/
structure Piece where
  markup : Markup
  text : List Char

/-- Whether two hyphens occur in a comment only at its end. -/
def IsCommentContent (content : List Char) : Prop :=
  cutAt "--".toList (content ++ "--".toList) = some (content, []) ∧
    content.all isXmlChar = true ∧ '\r' ∉ content

namespace Markup

def chars : Markup → List Char
  | start name attributes isClosed =>
    '<' :: (name.chars ++ (attributes.flatMap WrittenAttribute.chars ++ tagClosing isClosed))
  | finish name => '<' :: '/' :: (name.chars ++ ['>'])
  | comment content => '<' :: '!' :: '-' :: '-' :: (content ++ "-->".toList)

def token : Markup → Token
  | start name attributes isClosed => .start name attributes isClosed
  | finish name => .finish name.chars
  | comment content => .comment content

/-- Whether a markup is made of sound names and contents. -/
def Sound : Markup → Prop
  | start name attributes _ => name.Sound ∧ ∀ entry ∈ attributes, entry.name.Sound
  | finish name => name.Sound
  | comment content => IsCommentContent content

/-- Whether a sound markup is read back. -/
def isLegible : Markup → Bool
  | start name attributes _ => name.isLegible && attributes.all WrittenAttribute.isLegible
  | finish _ => true
  | comment _ => true

end Markup

namespace Piece

def chars (piece : Piece) : List Char :=
  piece.markup.chars ++ escapedTextChars piece.text

def textToken (text : List Char) : List Token :=
  if text.isEmpty then [] else [.text text (!(escapedTextChars text).contains '&')]

def tokens (piece : Piece) : List Token :=
  piece.markup.token :: textToken piece.text

/-- Whether a piece is made of sound markup and of characters that a document may hold. -/
def Sound (piece : Piece) : Prop :=
  piece.markup.Sound ∧ piece.text.all isXmlChar = true

end Piece

/-! ## Markup -/

/-- The characters that no part of a tag but its end holds. -/
theorem WrittenName.Sound.not_mem_chars {name : WrittenName} (sound : name.Sound) {c : Char}
    (separates : c ∈ separators) (notColon : c ≠ ':') : c ∉ name.chars := by
  intro member
  rcases sound.of_mem_chars member with colon | inName
  · exact notColon colon
  · exact not_separator_of_isNameChar inName separates

theorem takeFinish_chars {name : WrittenName} (sound : name.Sound) (rest : List Char) :
    takeFinish (name.chars ++ '>' :: rest) = some (.finish name.chars, rest) := by
  have inside : ∀ c ∈ name.chars, (!isXmlSpace c && c != '>') = true := by
    intro c member
    have notBracket : c ≠ '>' := fun same =>
      sound.not_mem_chars (c := '>') (by decide) (by decide) (same ▸ member)
    have notSpace : isXmlSpace c = false := by
      rcases sound.of_mem_chars member with rfl | inName
      · rfl
      · exact not_isXmlSpace_of_isNameChar inName
    simp [notBracket, notSpace]
  have stops : (!isXmlSpace '>' && '>' != '>') = false := by decide
  rw [takeFinish, List.takeWhile_append_of_pos inside, List.dropWhile_append_of_pos inside,
    List.takeWhile_cons_of_neg (by simp), List.dropWhile_cons_of_neg (by simp),
    skipXmlSpace_of_not_space (by decide)]
  simp

theorem IsCommentContent.cutAt {content : List Char} (isContent : IsCommentContent content)
    (rest : List Char) :
    cutAt "--".toList (content ++ ("--".toList ++ rest)) = some (content, rest) :=
  cutAt_append_of_cutAt (by decide) isContent.1 rest

theorem takeComment_chars {content : List Char} (isContent : IsCommentContent content)
    (rest : List Char) :
    takeComment (content ++ ("-->".toList ++ rest)) = some (.comment content, rest) := by
  have cut := isContent.cutAt ('>' :: rest)
  have split : content ++ ("-->".toList ++ rest) =
      content ++ ("--".toList ++ '>' :: rest) := rfl
  rw [split, takeComment, cut]
  simp [isContent.2.1]

/-- A sound name does not start like an end tag, an instruction or a comment. -/
theorem takeMarkup_name {name : WrittenName} (sound : name.Sound) (rest : List Char) :
    takeMarkup plainDialect (name.chars ++ rest) = takeStart plainDialect (name.chars ++ rest) := by
  obtain ⟨c, more, split, inName⟩ := sound.chars_eq_cons
  have notSeparator := not_separator_of_isNameChar inName
  simp only [separators, List.mem_cons, List.not_mem_nil, or_false, not_or] at notSeparator
  rw [split, List.cons_append, takeMarkup]
  · exact fun other same => notSeparator.2.2.2.2.2.1 (List.cons.inj same).1
  · exact fun other same => notSeparator.2.2.2.2.2.2.2.2.2.2.2.1 (List.cons.inj same).1
  · exact fun other same => notSeparator.2.2.2.2.2.2.2.2.2.2.2.2 (List.cons.inj same).1

theorem takeToken_markup {markup : Markup} (sound : markup.Sound) (rest : List Char) :
    takeToken plainDialect (markup.chars ++ rest) =
      if markup.isLegible then some (markup.token, rest) else none := by
  cases markup with
  | start name attributes isClosed =>
      have started : takeToken plainDialect ((Markup.start name attributes isClosed).chars ++
          rest) = takeMarkup plainDialect (name.chars ++
            (attributes.flatMap WrittenAttribute.chars ++ (tagClosing isClosed ++ rest))) := by
        simp [Markup.chars, takeToken]
      rw [started, takeMarkup_name sound.1, takeStart_chars sound.1 sound.2]
      rfl
  | finish name =>
      have started : takeToken plainDialect ((Markup.finish name).chars ++ rest) =
          takeFinish (name.chars ++ '>' :: rest) := by
        simp [Markup.chars, takeToken, takeMarkup]
      rw [started, takeFinish_chars sound]
      rfl
  | comment content =>
      have started : takeToken plainDialect ((Markup.comment content).chars ++ rest) =
          takeComment (content ++ ("-->".toList ++ rest)) := by
        simp [Markup.chars, takeToken, takeMarkup, stripWord]
      rw [started, takeComment_chars sound]
      rfl

theorem Markup.chars_eq_cons (markup : Markup) : ∃ more, markup.chars = '<' :: more := by
  cases markup <;> exact ⟨_, rfl⟩

/-! ## Text -/

/-- Nothing or the start of a markup. -/
def StartsMarkup (cs : List Char) : Prop :=
  cs = [] ∨ ∃ more, cs = '<' :: more

theorem takeText_escapedTextChars {text rest : List Char} (admitted : text.all isXmlChar = true)
    (ends : StartsMarkup rest) :
    takeText plainDialect (escapedTextChars text ++ rest) =
      some (.text text (!(escapedTextChars text).contains '&'), rest) := by
  have inside : ∀ c ∈ escapedTextChars text, decide (c ≠ '<') = true := by
    intro c member
    simpa using (escapedTextChars_ne member).1
  have stops : rest.takeWhile (fun c => decide (c ≠ '<')) = [] ∧
      rest.dropWhile (fun c => decide (c ≠ '<')) = rest := by
    rcases ends with rfl | ⟨more, rfl⟩
    · exact ⟨rfl, rfl⟩
    · exact ⟨rfl, rfl⟩
  have noEnd : cutAt "]]>".toList (escapedTextChars text) = none :=
    cutAt_eq_none_of_not_mem (c := '>') (by decide) fun member => (escapedTextChars_ne member).2 rfl
  rw [takeText, List.takeWhile_append_of_pos inside, List.dropWhile_append_of_pos inside,
    stops.1, stops.2, List.append_nil, noEnd, expand_escapedTextChars, if_pos admitted]
  rfl

theorem tokens_text {text rest : List Char} (admitted : text.all isXmlChar = true)
    (ends : StartsMarkup rest) :
    tokens plainDialect (escapedTextChars text ++ rest) =
      (tokens plainDialect rest).map (Piece.textToken text ++ ·) := by
  cases escaped : escapedTextChars text with
  | nil =>
      obtain rfl := escapedTextChars_eq_nil_iff.mp escaped
      rw [List.nil_append]
      cases tokens plainDialect rest <;> rfl
  | cons c more =>
      have nonempty : text ≠ [] := fun same => by
        rw [same] at escaped
        exact absurd escaped (by simp [escapedTextChars])
      have different : c ≠ '<' := (escapedTextChars_ne (d := c) (escaped ▸ List.mem_cons_self)).1
      have taken : takeToken plainDialect (c :: (more ++ rest)) =
          some (.text text (!(escapedTextChars text).contains '&'), rest) := by
        rw [← takeText_escapedTextChars admitted ends, escaped, List.cons_append, takeToken]
        exact fun other same => different (List.cons.inj same).1
      rw [List.cons_append, tokens_of_takeToken taken]
      simp [Piece.textToken, nonempty]

/-! ## Pieces -/

theorem startsMarkup_pieces (pieces : List Piece) :
    StartsMarkup (pieces.flatMap Piece.chars) := by
  cases pieces with
  | nil => exact .inl rfl
  | cons piece rest =>
      obtain ⟨more, split⟩ := piece.markup.chars_eq_cons
      exact .inr ⟨more ++ (escapedTextChars piece.text ++ rest.flatMap Piece.chars), by
        simp [Piece.chars, split]⟩

theorem tokens_piece {piece : Piece} (sound : piece.Sound) {rest : List Char}
    (ends : StartsMarkup rest) :
    tokens plainDialect (piece.chars ++ rest) =
      if piece.markup.isLegible then (tokens plainDialect rest).map (piece.tokens ++ ·)
      else none := by
  obtain ⟨more, split⟩ := piece.markup.chars_eq_cons
  have taken := takeToken_markup sound.1 (escapedTextChars piece.text ++ rest)
  rw [Piece.chars, List.append_assoc]
  by_cases legible : piece.markup.isLegible = true
  · rw [if_pos legible] at taken ⊢
    rw [split, List.cons_append] at taken ⊢
    rw [tokens_of_takeToken taken, tokens_text sound.2 ends, Option.map_map]
    rfl
  · rw [if_neg legible] at taken ⊢
    rw [split, List.cons_append] at taken ⊢
    exact tokens_eq_none_of_takeToken taken

/-- The tokens of sound pieces are the tokens of each of them in turn. -/
theorem tokens_pieces {pieces : List Piece} (sound : ∀ piece ∈ pieces, piece.Sound) :
    tokens plainDialect (pieces.flatMap Piece.chars) =
      if pieces.all (·.markup.isLegible) then some (pieces.flatMap Piece.tokens) else none := by
  induction pieces with
  | nil => rfl
  | cons piece rest ih =>
      have others := ih fun other member => sound other (List.mem_cons_of_mem _ member)
      rw [List.flatMap_cons, tokens_piece (sound piece (by simp)) (startsMarkup_pieces rest),
        others]
      by_cases legible : piece.markup.isLegible = true
      · by_cases othersLegible : rest.all (·.markup.isLegible) = true <;>
          simp [legible, othersLegible]
      · simp [legible]

end IdeModules.Xml
