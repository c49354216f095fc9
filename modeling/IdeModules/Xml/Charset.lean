import IdeModules.Text.Split
import IdeModules.Xml.Codecs

/-!
# Character sets of documents

A document is a sequence of bytes, the UTF-8 form of its text.  The character
set that it declares decides how these bytes make characters: UTF-8 gives the
text back, and a set of single bytes makes each byte a character or refuses it.
Such a set has to leave the signs of markup to their bytes in ASCII.  The
two-byte sets cannot hold a document that was read as bytes, and where the name
of a set leads to no single bytes, the reading ends with the error of the lookup.
-/

namespace IdeModules.Xml

/-- Whether a character has a part in markup: blanks, letters, digits, and most signs of ASCII. -/
def isMarkupChar (c : Char) : Bool :=
  c = '\t' || c = '\n' || c = '\r' || ' ' ≤ c && c ≤ '|' && !"$@\\^`\x7b".toList.contains c

/-- Whether the byte of a character in markup and no other byte makes this character. -/
def keepsMarkupAt (chars : List Char) (byte : Nat) : Bool :=
  let found := chars.getD byte missingChar
  let own := Char.ofNat byte
  (found = own || !isMarkupChar own && !isMarkupChar found) && found.toNat ≤ 0xffff

/-- The characters of bytes, where those in markup have their bytes in ASCII. -/
structure ByteChart where
  chars : List Char
  keepsMarkup : (List.range 256).all (keepsMarkupAt chars) = true
  deriving DecidableEq, Repr

/-- A character set that a document may declare. -/
inductive Charset where
  /-- The set that every document has unless it declares another one. -/
  | utf8
  /-- One byte, one character, with three signs as letters of names. -/
  | latin
  /-- One byte of the lower half, one character. -/
  | ascii
  /-- One byte, the character of a chart, if it has one there. -/
  | bytes (chart : ByteChart)
  deriving DecidableEq, Repr

namespace Charset

def plainChar (c : Char) : Char :=
  if c.isAlphanum then c.toLower else if c = '.' then c else '_'

/-- A name in small letters, with one underscore for all signs between two of its parts. -/
def plainSpelling (name : List Char) : String :=
  joined "_" (((splitChars '_' (name.map plainChar)).filter (!·.isEmpty)).map String.ofList)

/-- What a name in plain spelling leads to: it is another name of a set, in which a point may
stand for an underscore, or the own name of one. -/
def codecOf? (name : String) : Option Codec :=
  let underscored := String.ofList (name.toList.map fun c => if c = '.' then '_' else c)
  let found := (knownCodecs.find? (·.aliases.contains name)).or
    ((knownCodecs.find? (·.aliases.contains underscored)).or
      (knownCodecs.find? (·.names.contains name)))
  found.map NamedCodec.codec

/-- The characters of the bytes of a set, in their order. -/
def charsOf : Codec → Except Error (List Char)
  | .upperHalf parts => .ok (charsFrom 0 128 ++ String.join parts).toList
  | .whole parts => .ok (String.join parts).toList
  | .failing failure => .error failure

/-- The character set with a chart, unless markup could not be told in it. -/
def ofChars (chars : List Char) : Except Error Charset :=
  if keepsMarkup : (List.range 256).all (keepsMarkupAt chars) = true then
    .ok (.bytes ⟨chars, keepsMarkup⟩)
  else .error .malformedMarkup

/-- The character set of a name, in small or capital letters. -/
def ofName (name : List Char) : Except Error Charset :=
  let capitals := String.ofList (name.map Char.toUpper)
  if capitals = "UTF-8" then .ok .utf8
  else if capitals = "ISO-8859-1" then .ok .latin
  else if capitals = "US-ASCII" then .ok .ascii
  else if capitals = "UTF-16" || capitals = "UTF-16BE" || capitals = "UTF-16LE" then
    .error .malformedMarkup
  else
    match codecOf? (plainSpelling name) with
    | some codec => (charsOf codec).bind ofChars
    | none => .error .unknownEncoding

def charOf? (chart : ByteChart) (byte : UInt8) : Option Char :=
  match chart.chars[byte.toNat]? with
  | some c => if c = missingChar then none else some c
  | none => none

def bytesOf (cs : List Char) : List UInt8 :=
  (String.ofList cs).toUTF8.toList

/-- The characters that a document of a set holds, from those of its text. -/
def decode (charset : Charset) (cs : List Char) : Except Error (List Char) :=
  match charset with
  | utf8 => .ok cs
  | latin => .ok ((bytesOf cs).map fun byte => Char.ofNat byte.toNat)
  | ascii => if cs.all fun c => c.toNat < 0x80 then .ok cs else .error .malformedMarkup
  | bytes chart =>
    match (bytesOf cs).mapM (charOf? chart) with
    | some decoded => .ok decoded
    | none => .error .malformedMarkup

end Charset

end IdeModules.Xml
