import IdeModules.Text.Digits
import IdeModules.Text.Split
import IdeModules.Xml.Characters

/-!
# Tokens of XML markup

The characters of a document, with line ends normalized, fall into tokens:
tags, comments, instructions, sections of literal text, and runs of character
data between them.  Each token is found by looking at its first characters
only, and a run of character data ends where the next markup starts.
-/

namespace IdeModules.Xml

/-- What the start of a document settles about the reading of the rest. -/
structure Dialect where
  /-- Whether three signs of the single-byte set count as letters of names. -/
  signLetters : Bool
  /-- Whether attributes may refer to entities that the document does not declare. -/
  skipsEntities : Bool
  deriving DecidableEq, Repr

/-- A name as it is written: with or without a qualifier before a colon. -/
structure WrittenName where
  qualifier : Option (List Char)
  localPart : List Char
  deriving DecidableEq, Repr

/-- An attribute as it is written, its value already expanded. -/
structure WrittenAttribute where
  name : WrittenName
  value : List Char
  deriving DecidableEq, Repr

/-- A token of a document. -/
inductive Token where
  /-- Character data, and whether all of them stand for themselves. -/
  | text (content : List Char) (isLiteral : Bool)
  /-- A section of literal text. -/
  | literal (content : List Char)
  | comment (content : List Char)
  | instruction
  /-- A start tag, and whether it closes itself. -/
  | start (name : WrittenName) (attributes : List WrittenAttribute) (isClosed : Bool)
  /-- An end tag, with its name as it stands. -/
  | finish (name : List Char)
  deriving DecidableEq, Repr

namespace WrittenName

def chars (name : WrittenName) : List Char :=
  match name.qualifier with
  | none => name.localPart
  | some qualifier => qualifier ++ ':' :: name.localPart

end WrittenName

/-- Characters with every line end written as a line feed. -/
def normalizeLineEnds : List Char → List Char
  | [] => []
  | '\r' :: '\n' :: rest => '\n' :: normalizeLineEnds rest
  | c :: rest => (if c = '\r' then '\n' else c) :: normalizeLineEnds rest

/-- The characters before the first occurrence of a mark, and those after it. -/
def cutAt (mark : List Char) : List Char → Option (List Char × List Char)
  | [] => none
  | c :: rest =>
    match stripWord mark (c :: rest) with
    | some after => some ([], after)
    | none => (cutAt mark rest).map fun found => (c :: found.1, found.2)

/-- The characters after those that only separate. -/
def skipXmlSpace (cs : List Char) : List Char :=
  cs.dropWhile isXmlSpace

/-- The name without a colon that comes next. -/
def takePlainName (dialect : Dialect) : List Char → Option (List Char × List Char)
  | [] => none
  | c :: rest =>
    if isNameStart dialect.signLetters c then
      some (c :: rest.takeWhile (isNameChar dialect.signLetters),
        rest.dropWhile (isNameChar dialect.signLetters))
    else none

/-- The name that comes next, with or without a qualifier. -/
def takeName (dialect : Dialect) (cs : List Char) : Option (WrittenName × List Char) :=
  match takePlainName dialect cs with
  | none => none
  | some (first, ':' :: rest) =>
    (takePlainName dialect rest).map fun found => (⟨some first, found.1⟩, found.2)
  | some (first, rest) => some (⟨none, first⟩, rest)

/-- The number that digits of a base write; it stays above every code point once it is. -/
def baseNumeral? (base : Nat) (cs : List Char) : Option Nat :=
  if cs.isEmpty then none
  else
    cs.foldl
      (fun value c => value.bind fun known =>
        (baseDigit? base c).map fun digit => min (base * known + digit) 0x110000)
      (some 0)

/-- The character of a code point, if a document may refer to it. -/
def referredChar? (code : Nat) : Option Char :=
  if code < 0x110000 && !(0xd800 ≤ code && code < 0xe000) && isXmlChar (Char.ofNat code) then
    some (Char.ofNat code)
  else none

/-- The entities that every document may refer to. -/
def predefinedEntities : List (List Char × Char) :=
  [("lt".toList, '<'), ("gt".toList, '>'), ("amp".toList, '&'), ("quot".toList, '"'),
    ("apos".toList, Char.ofNat 39)]

/-- Whether characters are a name without a colon. -/
def isPlainName (dialect : Dialect) (cs : List Char) : Bool :=
  match takePlainName dialect cs with
  | some (_, []) => true
  | _ => false

/-- What a reference between an ampersand and a semicolon stands for.  An entity that is not
declared stands for nothing where it may be skipped. -/
def referred? (dialect : Dialect) (maySkip : Bool) (body : List Char) : Option (List Char) :=
  match body with
  | '#' :: 'x' :: digits => ((baseNumeral? 16 digits).bind referredChar?).map fun c => [c]
  | '#' :: digits => ((baseNumeral? 10 digits).bind referredChar?).map fun c => [c]
  | _ =>
    match predefinedEntities.lookup body with
    | some c => some [c]
    | none => if maySkip && isPlainName dialect body then some [] else none

/-- Characters with their references expanded; those read since an open ampersand come
last first.  A literal character stands for itself after the given change. -/
def expand (dialect : Dialect) (maySkip : Bool) (change : Char → Char) :
    Option (List Char) → List Char → Option (List Char)
  | none, [] => some []
  | some _, [] => none
  | none, c :: rest =>
    if c = '&' then expand dialect maySkip change (some []) rest
    else if isXmlChar c then (expand dialect maySkip change none rest).map (change c :: ·)
    else none
  | some body, c :: rest =>
    if c = ';' then
      match referred? dialect maySkip body.reverse with
      | none => none
      | some found => (expand dialect maySkip change none rest).map (found ++ ·)
    else expand dialect maySkip change (some (c :: body)) rest

/-- The value of an attribute: white space counts as blanks. -/
def expandValue (dialect : Dialect) (cs : List Char) : Option (List Char) :=
  if cs.contains '<' then none
  else expand dialect dialect.skipsEntities (fun c => if isXmlSpace c then ' ' else c) none cs

/-- A value between quotes, and what follows it. -/
def takeQuoted (cs : List Char) : Option (List Char × List Char) :=
  match cs with
  | quote :: rest =>
    if quote = '"' || quote = Char.ofNat 39 then cutAt [quote] rest else none
  | [] => none

/-- The rest of a start tag: its attributes, and whether it closes itself. -/
def takeAttributes (dialect : Dialect) :
    Nat → List Char → Option (List WrittenAttribute × Bool × List Char)
  | 0, _ => none
  | steps + 1, cs =>
    match skipXmlSpace cs with
    | '>' :: rest => some ([], false, rest)
    | '/' :: '>' :: rest => some ([], true, rest)
    | inner =>
      if inner.length = cs.length then none
      else
        match takeName dialect inner with
        | none => none
        | some (name, afterName) =>
          match skipXmlSpace afterName with
          | '=' :: afterSign =>
            match takeQuoted (skipXmlSpace afterSign) with
            | none => none
            | some (raw, afterValue) =>
              match expandValue dialect raw, takeAttributes dialect steps afterValue with
              | some value, some (others, isClosed, rest) =>
                some (⟨name, value⟩ :: others, isClosed, rest)
              | _, _ => none
          | _ => none

def takeStart (dialect : Dialect) (cs : List Char) : Option (Token × List Char) :=
  match takeName dialect cs with
  | none => none
  | some (name, rest) =>
    (takeAttributes dialect (rest.length + 1) rest).map fun found =>
      (.start name found.1 found.2.1, found.2.2)

def takeFinish (cs : List Char) : Option (Token × List Char) :=
  let name := cs.takeWhile fun c => !isXmlSpace c && c != '>'
  match skipXmlSpace (cs.dropWhile fun c => !isXmlSpace c && c != '>') with
  | '>' :: rest => some (.finish name, rest)
  | _ => none

/-- A comment after its opening mark: two hyphens end it. -/
def takeComment (cs : List Char) : Option (Token × List Char) :=
  match cutAt "--".toList cs with
  | some (content, '>' :: rest) =>
    if content.all isXmlChar then some (.comment content, rest) else none
  | _ => none

/-- Whether a name is reserved for the declaration of a document. -/
def isReservedTarget (name : List Char) : Bool :=
  name.map Char.toLower == "xml".toList

/-- An instruction after its opening mark. -/
def takeInstruction (dialect : Dialect) (cs : List Char) : Option (Token × List Char) :=
  match takePlainName dialect cs with
  | none => none
  | some (target, rest) =>
    if isReservedTarget target then none
    else
      match cutAt "?>".toList rest with
      | none => none
      | some (body, after) =>
        if body.all isXmlChar && (body.isEmpty || body.head?.any isXmlSpace) then
          some (.instruction, after)
        else none

/-- A section of literal text after its opening mark. -/
def takeLiteral (cs : List Char) : Option (Token × List Char) :=
  match cutAt "]]>".toList cs with
  | none => none
  | some (content, rest) => if content.all isXmlChar then some (.literal content, rest) else none

/-- A run of character data: it ends before the next markup and does not hold the end of a
literal section. -/
def takeText (dialect : Dialect) (cs : List Char) : Option (Token × List Char) :=
  let raw := cs.takeWhile (· ≠ '<')
  if (cutAt "]]>".toList raw).isSome then none
  else
    (expand dialect false id none raw).map fun content =>
      (.text content (!raw.contains '&'), cs.dropWhile (· ≠ '<'))

/-- The markup that comes next, after its opening bracket. -/
def takeMarkup (dialect : Dialect) (cs : List Char) : Option (Token × List Char) :=
  match cs with
  | '/' :: rest => takeFinish rest
  | '?' :: rest => takeInstruction dialect rest
  | '!' :: rest =>
    match stripWord "--".toList rest with
    | some inner => takeComment inner
    | none =>
      match stripWord "[CDATA[".toList rest with
      | some inner => takeLiteral inner
      | none => none
  | _ => takeStart dialect cs

def takeToken (dialect : Dialect) (cs : List Char) : Option (Token × List Char) :=
  match cs with
  | '<' :: rest => takeMarkup dialect rest
  | _ => takeText dialect cs

/-- The tokens of a list of characters, as many as the steps allow. -/
def tokensWithin (dialect : Dialect) : Nat → List Char → Option (List Token)
  | _, [] => some []
  | 0, _ :: _ => none
  | steps + 1, c :: rest =>
    match takeToken dialect (c :: rest) with
    | none => none
    | some (token, after) => (tokensWithin dialect steps after).map (token :: ·)

def tokens (dialect : Dialect) (cs : List Char) : Option (List Token) :=
  tokensWithin dialect cs.length cs

end IdeModules.Xml
