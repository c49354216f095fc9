import IdeModules.Path

/-!
# Errors

Everything that can stop a run is one of the causes below.  The causes that the
program words itself have a message; the others are known by their kind alone.
-/

namespace IdeModules

/-- Why the data of a build description do not make a build. -/
inductive BuildFault where
  /-- The text is no JSON. -/
  | notJson
  /-- The data are no object, or their modules are no list. -/
  | notModules
  /-- A member was asked of a project entry that has none. -/
  | projectWithoutMembers
  /-- A member was asked of a value in a module entry that has none. -/
  | moduleWithoutMembers
  /-- A value in a module entry has a kind that cannot be used. -/
  | moduleKind
  /-- A value in a module entry lacks a member. -/
  | moduleMember (name : String)
  deriving DecidableEq, Repr

/-- Why a text is no module descriptor. -/
inductive DescriptorFault where
  /-- The text is no well-formed XML. -/
  | malformed
  /-- The bytes are no UTF-8. -/
  | notText
  /-- The root element is another one. -/
  | wrongRoot (name : String)
  deriving DecidableEq, Repr

/-- Why a run stopped. -/
inductive Error where
  /-- A file or directory that was named does not exist. -/
  | missingInput (what : String) (path : Path)
  /-- A build description cannot be used. -/
  | invalidBuild (file : Path) (fault : BuildFault)
  /-- A descriptor cannot be read. -/
  | invalidDescriptor (file : Path) (fault : DescriptorFault)
  /-- A hook stopped the run with a text of its own. -/
  | hook (text : String)
  /-- A value has a kind that cannot be used in its place. -/
  | wrongKind
  /-- A member or an operation was asked of a value that has none. -/
  | noSuchMember
  /-- An object lacks a member. -/
  | missingMember (name : String)
  /-- A text is no well-formed XML. -/
  | malformedMarkup
  /-- The name of a character encoding is not known. -/
  | unknownEncoding
  /-- The characters of a character encoding have several bytes. -/
  | multiByteEncoding
  /-- A character encoding makes no characters of bytes. -/
  | unusableEncoding
  /-- The bytes of a file are no UTF-8. -/
  | notText
  /-- A directory stands where a file is needed. -/
  | isDirectory
  /-- A file stands where a directory is needed. -/
  | fileExists
  /-- A file stands on the way to a place. -/
  | notDirectory
  /-- A file could not take the place of another one. -/
  | notReplaced
  deriving DecidableEq, Repr

namespace BuildFault

/-- The reason as it stands in a message. -/
def message : BuildFault → String
  | notJson => "<JSONDecodeError>"
  | notModules => "expected an object with a 'modules' list"
  | projectWithoutMembers => "malformed project entry (<AttributeError>)"
  | moduleWithoutMembers => "malformed module entry (<AttributeError>)"
  | moduleKind => "malformed module entry (<TypeError>)"
  | moduleMember name => "malformed module entry ('" ++ name ++ "')"

end BuildFault

namespace DescriptorFault

/-- The reason as it stands in a message. -/
def message : DescriptorFault → String
  | malformed => "<ParseError>"
  | notText => "<UnicodeDecodeError>"
  | wrongRoot name => "expected <module> root element, found <" ++ name ++ ">"

end DescriptorFault

namespace Error

/-- Whether an error is about the input of a run, and so ends it with a report. -/
def isReported : Error → Bool
  | missingInput .. => true
  | invalidBuild .. => true
  | invalidDescriptor .. => true
  | _ => false

def message? : Error → Option String
  | missingInput what path => some ("No " ++ what ++ " found at " ++ path.text)
  | invalidBuild file fault =>
    some ("Invalid build file " ++ file.text ++ ": " ++ fault.message)
  | invalidDescriptor file fault =>
    some ("Could not parse module descriptor " ++ file.text ++ ": " ++ fault.message)
  | hook text => some text
  | _ => none

end Error

/-- A success of two steps is a success of each. -/
theorem except_bind_ok {α β : Type} {step : Except Error α} {next : α → Except Error β} {value : β}
    (done : step >>= next = .ok value) : ∃ found, step = .ok found ∧ next found = .ok value := by
  cases step with
  | error failure => simp [bind, Except.bind] at done
  | ok found => exact ⟨found, rfl, done⟩

theorem except_bind_eq_ok_iff {α β : Type} {step : Except Error α} {next : α → Except Error β}
    {value : β} :
    (step >>= next) = .ok value ↔ ∃ found, step = .ok found ∧ next found = .ok value := by
  constructor
  · exact except_bind_ok
  · rintro ⟨found, rfl, done⟩
    exact done

end IdeModules
