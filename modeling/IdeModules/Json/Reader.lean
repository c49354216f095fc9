import IdeModules.Json.Value
import IdeModules.Keyed
import IdeModules.Text.Digits
import IdeModules.Text.Split

/-!
# Reading JSON text

Reading follows the grammar of JSON, with `NaN`, `Infinity` and `-Infinity` as
further numbers.  Only space, tab, line feed and carriage return stand between
tokens, a text holds no raw control characters, and a member name that comes
again replaces the earlier value in its place.  A number with a fraction or an
exponent is binary, any other is whole.
-/

namespace IdeModules.Json

/-- Whether a character may stand between tokens. -/
def isSpace (c : Char) : Bool :=
  c == ' ' || c == '\t' || c == '\n' || c == '\r'

def skipSpace (cs : List Char) : List Char :=
  cs.dropWhile isSpace

/-- The code unit that four digits in base sixteen write. -/
def readUnit : List Char → Option (Nat × List Char)
  | a :: b :: c :: d :: rest => do
    let a ← baseDigit? 16 a
    let b ← baseDigit? 16 b
    let c ← baseDigit? 16 c
    let d ← baseDigit? 16 d
    pure (((a * 16 + b) * 16 + c) * 16 + d, rest)
  | _ => none

def isHighHalf (unit : Nat) : Bool :=
  0xd800 ≤ unit && unit < 0xdc00

def isLowHalf (unit : Nat) : Bool :=
  0xdc00 ≤ unit && unit < 0xe000

/-- The character of a code unit, taken together with a second half that follows it. -/
def readCharacter (cs : List Char) : Option (Char × List Char) :=
  match readUnit cs with
  | none => none
  | some (unit, rest) =>
    if isHighHalf unit then
      match rest with
      | '\\' :: 'u' :: more =>
        match readUnit more with
        | some (low, after) =>
          if isLowHalf low then
            some (Char.ofNat (0x10000 + (unit - 0xd800) * 0x400 + (low - 0xdc00)), after)
          else some (Char.ofNat 0xfffd, rest)
        | none => none
      | _ => some (Char.ofNat 0xfffd, rest)
    else if isLowHalf unit then some (Char.ofNat 0xfffd, rest)
    else some (Char.ofNat unit, rest)

/-- The character that a letter stands for after a backslash. -/
def escaped? (c : Char) : Option Char :=
  if c = '"' || c = '\\' || c = '/' then some c
  else if c = 'b' then some '\x08'
  else if c = 'f' then some '\x0c'
  else if c = 'n' then some '\n'
  else if c = 'r' then some '\r'
  else if c = 't' then some '\t'
  else none

/-- The characters of a text up to its closing quote. -/
def readText : Nat → List Char → Option (List Char × List Char)
  | 0, _ => none
  | _ + 1, [] => none
  | steps + 1, c :: rest =>
    if c = '"' then some ([], rest)
    else if c = '\\' then
      match rest with
      | 'u' :: digits => do
        let (found, after) ← readCharacter digits
        let (text, last) ← readText steps after
        pure (found :: text, last)
      | letter :: after => do
        let found ← escaped? letter
        let (text, last) ← readText steps after
        pure (found :: text, last)
      | [] => none
    else if c.toNat < 0x20 then none
    else do
      let (text, last) ← readText steps rest
      pure (c :: text, last)

def isAsciiDigit (c : Char) : Bool :=
  '0' ≤ c && c ≤ '9'

/-- The digits of ASCII at the start, and what follows them. -/
def takeAsciiDigits (cs : List Char) : List Char × List Char :=
  (cs.takeWhile isAsciiDigit, cs.dropWhile isAsciiDigit)

/-- The number that digits of ASCII write. -/
def asciiNumeral (digits : List Char) : Nat :=
  numeral (digits.map fun c => c.toNat - 48)

/-- The exponent part of a number, if one comes next. -/
def readExponent (cs : List Char) : Option (Int × List Char) :=
  match cs with
  | mark :: rest =>
    if mark = 'e' || mark = 'E' then
      let (negative, digits) : Bool × List Char := match rest with
        | '-' :: more => (true, more)
        | '+' :: more => (false, more)
        | _ => (false, rest)
      match takeAsciiDigits digits with
      | ([], _) => none
      | (found, after) =>
        let size : Int := asciiNumeral found
        some (if negative then -size else size, after)
    else none
  | [] => none

/-- The digits behind the point of a number, if a point and digits come next. -/
def readFraction : List Char → Option (List Char × List Char)
  | '.' :: rest =>
    match takeAsciiDigits rest with
    | ([], _) => none
    | (found, after) => some (found, after)
  | _ => none

/-- The digits before the point: a zero alone, or digits that start with another one. -/
def readWhole : List Char → Option (List Char × List Char)
  | '0' :: rest => some (['0'], rest)
  | cs =>
    match takeAsciiDigits cs with
    | ([], _) => none
    | (found, after) => some (found, after)

/-- A number whose sign has been read. -/
def readMagnitude (negative : Bool) (cs : List Char) : Option (Value × List Char) :=
  match readWhole cs with
  | none => none
  | some (whole, rest) =>
    let (fraction, afterFraction) := (readFraction rest).getD ([], rest)
    let exponent := readExponent afterFraction
    if fraction.isEmpty && exponent.isNone then
      let size : Int := asciiNumeral whole
      some (.int (if negative then -size else size), rest)
    else
      let (power, after) := exponent.getD (0, afterFraction)
      some (.real (Binary64.ofDecimal negative (asciiNumeral (whole ++ fraction))
        (power - fraction.length)), after)

/-- The words that stand for a value. -/
def wordValues : List (List Char × Value) :=
  [("null".toList, .null), ("true".toList, .bool true), ("false".toList, .bool false),
    ("NaN".toList, .real Binary64.nan), ("Infinity".toList, .real (Binary64.infinity false)),
    ("-Infinity".toList, .real (Binary64.infinity true))]

/-- A number, or a word that stands for a value. -/
def readScalar (cs : List Char) : Option (Value × List Char) :=
  match wordValues.findSome? fun word => (stripWord word.1 cs).map (word.2, ·) with
  | some found => some found
  | none =>
    match cs with
    | '-' :: rest => readMagnitude true rest
    | _ => readMagnitude false cs

mutual

def readValue : Nat → List Char → Option (Value × List Char)
  | 0, _ => none
  | depth + 1, cs =>
    match cs with
    | '"' :: rest => do
      let (text, after) ← readText (rest.length + 1) rest
      pure (.str (String.ofList text), after)
    | '[' :: rest =>
      match skipSpace rest with
      | ']' :: after => some (.arr [], after)
      | inner => do
        let (items, after) ← readItems depth inner
        pure (.arr items, after)
    | '\x7b' :: rest =>
      match skipSpace rest with
      | '\x7d' :: after => some (.obj [], after)
      | inner => do
        let (members, after) ← readMembers depth inner
        pure (.obj (Keyed.ofPairs members), after)
    | _ => readScalar cs

def readItems : Nat → List Char → Option (List Value × List Char)
  | 0, _ => none
  | depth + 1, cs => do
    let (item, rest) ← readValue depth cs
    match skipSpace rest with
    | ']' :: after => pure ([item], after)
    | ',' :: after => do
      let (items, last) ← readItems depth (skipSpace after)
      pure (item :: items, last)
    | _ => none

def readMembers : Nat → List Char → Option (List (String × Value) × List Char)
  | 0, _ => none
  | depth + 1, cs =>
    match cs with
    | '"' :: rest => do
      let (name, afterName) ← readText (rest.length + 1) rest
      match skipSpace afterName with
      | ':' :: afterColon => do
        let (value, afterValue) ← readValue depth (skipSpace afterColon)
        let member := (String.ofList name, value)
        match skipSpace afterValue with
        | '\x7d' :: after => pure ([member], after)
        | ',' :: after => do
          let (members, last) ← readMembers depth (skipSpace after)
          pure (member :: members, last)
        | _ => none
      | _ => none
    | _ => none

end

/-- The value that a text of characters writes. -/
def readChars (cs : List Char) : Option Value :=
  match readValue (cs.length + 1) (skipSpace cs) with
  | some (value, rest) => if (skipSpace rest).isEmpty then some value else none
  | none => none

def read (text : String) : Option Value :=
  readChars text.toList

end IdeModules.Json
