import IdeModules.Json.Value
import IdeModules.Number.Shortest
import IdeModules.Text.Printable
import IdeModules.Text.Split

/-!
# Values as plain text

A value is shown as the text that stands for it in names, levels and file
paths.  A text alone is shown as it is; inside an array or an object it is
quoted, by single quotes unless it holds single quotes and no double ones.
-/

namespace IdeModules.Json

/-- Numbers are shown without an exponent from 0.0001 up to below 10^16. -/
def numberStyle : NumberStyle where
  leastPlain := -4
  firstScientific := 16
  exponentDigits := 2
  nan := "nan"
  infinity := "inf"

def singleQuote : Char := Char.ofNat 39

/-- A number in base sixteen with at least so many digits. -/
def hexadecimal (width number : Nat) : String :=
  let digits := Nat.toDigits 16 number
  String.ofList (List.replicate (width - digits.length) '0' ++ digits)

def quotedChar (quote c : Char) : String :=
  if c = quote || c = '\\' then String.ofList ['\\', c]
  else if c = '\n' then "\\n"
  else if c = '\r' then "\\r"
  else if c = '\t' then "\\t"
  else if isPrintable c then String.singleton c
  else if c.toNat < 0x100 then "\\x" ++ hexadecimal 2 c.toNat
  else if c.toNat < 0x10000 then "\\u" ++ hexadecimal 4 c.toNat
  else "\\U" ++ hexadecimal 8 c.toNat

def quoted (text : String) : String :=
  let quote :=
    if text.toList.contains singleQuote && !text.toList.contains '"' then '"' else singleQuote
  String.singleton quote ++ joined "" (text.toList.map (quotedChar quote)) ++
    String.singleton quote

namespace Value

mutual

/-- A value as it is shown inside an array or an object. -/
def shown : Value → String
  | .null => "None"
  | .bool value => if value then "True" else "False"
  | .int value => toString value
  | .real value => numberStyle.text value
  | .str text => quoted text
  | .arr items => "[" ++ joined ", " (shownItems items) ++ "]"
  | .obj members => "\x7b" ++ joined ", " (shownMembers members) ++ "\x7d"

def shownItems : List Value → List String
  | [] => []
  | item :: rest => shown item :: shownItems rest

def shownMembers : List (String × Value) → List String
  | [] => []
  | (name, value) :: rest => (quoted name ++ ": " ++ shown value) :: shownMembers rest

end

/-- The text that stands for a value. -/
def display : Value → String
  | .str text => text
  | value => shown value

end Value

end IdeModules.Json
