import IdeModules.Text.Blank
import IdeModules.Text.Digits
import IdeModules.Text.Split

/-!
# Language levels

A source compatibility is a text that starts with a version number, possibly
after `JDK_` or `VERSION_` with underscores for points.  The old numbering
`1.x` means version `x`.  A level is named `JDK_1_x` below version ten and
`JDK_x` from there on, and a module states its own level only where it differs
from the one that its project provides.
-/

namespace IdeModules.LanguageLevel

/-- The capital form of a letter, as far as the letters of the two leading words go. -/
def capital (c : Char) : Char :=
  if c = 'ı' then 'I' else if c = 'ſ' then 'S' else c.toUpper

/-- Points in place of underscores. -/
def pointed (cs : List Char) : List Char :=
  cs.map fun c => if c = '_' then '.' else c

/-- A compatibility text without blanks around it and without a leading word. -/
def versionChars (text : String) : List Char :=
  let cs := (trimBoth isBlank text.toList).map capital
  match stripWord "JDK_".toList cs with
  | some rest => pointed rest
  | none =>
    match stripWord "VERSION_".toList cs with
    | some rest => pointed rest
    | none => cs

def leadingVersion (cs : List Char) : Option Nat :=
  match takeDigits cs with
  | ([], _) => none
  | (major, rest) =>
    match rest with
    | '.' :: more =>
      match takeDigits more with
      | ([], _) => some (numeral major)
      | (minor, _) => some (if numeral major = 1 then numeral minor else numeral major)
    | _ => some (numeral major)

/-- The version that a compatibility text means. -/
def version? (text : String) : Option Nat :=
  leadingVersion (versionChars text)

def ofVersion (version : Nat) : String :=
  if 10 ≤ version then "JDK_" ++ Nat.repr version else "JDK_1_" ++ Nat.repr version

/-- The name of the level that a compatibility text means. -/
def ofText (text : String) : Option String :=
  (version? text).map ofVersion

def ofOptional (text : Option String) : Option String :=
  text.bind ofText

/-- The level of a project: the stated one, or else the highest of its modules. -/
def ofProject (modules : List (Option String)) (stated : Option String) : Option String :=
  match stated with
  | some text => ofText text
  | none => ((modules.filterMap fun text => text.bind version?).max?).map ofVersion

/-- The level that a module states: none if the project provides the same one. -/
def ofModule (own project : Option String) (hasBaseline : Bool) : Option String :=
  match ofOptional own with
  | none => none
  | some level =>
    if hasBaseline && some level == ofOptional project then none else some level

end IdeModules.LanguageLevel
