import IdeModules.Json.Display
import IdeModules.Keyed
import IdeModules.Text.Blank
import IdeModules.Text.Digits

/-!
# Command line arguments

The command takes the path of a build file and options in any order.  A long
option may be shortened as long as it stays unique, its value may follow an
equals sign, and short options may be joined to each other and to a value.
After two hyphens nothing is an option.  The first fault in the order of the
arguments is the one that is reported.
-/

namespace IdeModules

/-- What a command line asks for. -/
structure Arguments where
  build : String
  modules : List String
  isDry : Bool
  workers : Int
  deriving DecidableEq, Repr

/-- How a command line ends before anything is run: with its help, or with a fault. -/
inductive ArgumentsEnd where
  | help
  | fault (message : String)
  deriving DecidableEq, Repr

namespace Arguments

/-- The options of the command. -/
inductive Switch where
  | help
  | module
  | dryRun
  | workers
  deriving DecidableEq, Repr

/-- The spellings of the options, in the order in which they are known. -/
def spellings : Keyed String Switch :=
  [("-h", .help), ("--help", .help), ("--module", .module), ("-m", .module),
    ("--dry-run", .dryRun), ("-n", .dryRun), ("--workers", .workers), ("-j", .workers)]

def Switch.label : Switch → String
  | .help => "-h/--help"
  | .module => "--module/-m"
  | .dryRun => "--dry-run/-n"
  | .workers => "--workers/-j"

def Switch.takesValue : Switch → Bool
  | .help => false
  | .module => true
  | .dryRun => false
  | .workers => true

/-- What is joined to an option in its own argument. -/
inductive Attached where
  /-- The value behind an equals sign. -/
  | assigned (value : String)
  /-- What stands right behind the letter of a short option. -/
  | trailing (letters : List Char)
  deriving DecidableEq, Repr

/-- What an argument is taken for. -/
inductive Part where
  /-- A value of the command or of an option. -/
  | value (text : String)
  /-- An option, and what is joined to it. -/
  | option (switch : Switch) (attached : Option Attached)
  /-- An option that is not known. -/
  | unknown (text : String)
  /-- The two hyphens after which nothing is an option. -/
  | mark
  deriving DecidableEq, Repr

def switchFault (switch : Switch) (message : String) : ArgumentsEnd :=
  .fault ("argument " ++ switch.label ++ ": " ++ message)

/-- A text before and after its first equals sign. -/
def cutAtEquals (text : String) : String × Option String :=
  let cs := text.toList
  match cs.dropWhile (· ≠ '=') with
  | [] => (text, none)
  | _ :: rest => (String.ofList (cs.takeWhile (· ≠ '=')), some (String.ofList rest))

def isNegativeNumber (text : String) : Bool :=
  match text.toList with
  | '-' :: rest =>
    let whole := rest.takeWhile fun c => (digitValue? c).isSome
    match rest.dropWhile fun c => (digitValue? c).isSome with
    | [] => !whole.isEmpty
    | '.' :: fraction => !fraction.isEmpty && fraction.all fun c => (digitValue? c).isSome
    | _ => false
  | _ => false

/-- A known option that a spelling may mean, with its full spelling and what is joined to it. -/
structure Candidate where
  switch : Switch
  spelling : String
  attached : Option Attached
  deriving DecidableEq, Repr

/-- The known options that a shortened spelling may mean. -/
def candidates (text : String) : List Candidate :=
  match text.toList with
  | '-' :: '-' :: _ =>
    let (start, value) := cutAtEquals text
    spellings.filterMap fun entry =>
      if start.toList.isPrefixOf entry.1.toList then
        some ⟨entry.2, entry.1, value.map .assigned⟩
      else none
  | '-' :: letter :: rest =>
    let short := String.ofList ['-', letter]
    spellings.filterMap fun entry =>
      if entry.1 = short then some ⟨entry.2, entry.1, some (.trailing rest)⟩
      else if text.toList.isPrefixOf entry.1.toList then some ⟨entry.2, entry.1, none⟩
      else none
  | _ => []

/-- An argument that starts with a hyphen and is no known spelling. -/
def partOfStart (text : String) : Except ArgumentsEnd Part :=
  match candidates text with
  | [candidate] => .ok (.option candidate.switch candidate.attached)
  | [] =>
    if isNegativeNumber text || text.toList.contains ' ' then .ok (.value text)
    else .ok (.unknown text)
  | several =>
    .error (.fault ("ambiguous option: " ++ text ++ " could match " ++
      joined ", " (several.map Candidate.spelling)))

/-- What an argument before the two hyphens is taken for. -/
def partOf (text : String) : Except ArgumentsEnd Part :=
  match text.toList with
  | '-' :: _ :: _ =>
    match Keyed.get? text spellings with
    | some switch => .ok (.option switch none)
    | none =>
      match cutAtEquals text with
      | (start, some value) =>
        match Keyed.get? start spellings with
        | some switch => .ok (.option switch (some (.assigned value)))
        | none => partOfStart text
      | (_, none) => partOfStart text
  | _ => .ok (.value text)

def partsOf : List String → Except ArgumentsEnd (List Part)
  | [] => .ok []
  | text :: rest =>
    if text = "--" then .ok (.mark :: rest.map .value)
    else do
      let part ← partOf text
      let others ← partsOf rest
      pure (part :: others)

/-- Digits between single underscores. -/
def groupedDigits : Bool → List Char → Option (List Nat)
  | _, [] => some []
  | mayBreak, c :: rest =>
    match digitValue? c with
    | some digit => (groupedDigits true rest).map (digit :: ·)
    | none =>
      if c = '_' ∧ mayBreak ∧ !rest.isEmpty then groupedDigits false rest else none

/-- The whole number that a text writes, with blanks around it and a sign before it. -/
def integer? (text : String) : Option Int :=
  let trimmed := trimBoth isBlank text.toList
  let (negative, digits) : Bool × List Char := match trimmed with
    | '-' :: rest => (true, rest)
    | '+' :: rest => (false, rest)
    | _ => (false, trimmed)
  match groupedDigits false digits with
  | none => none
  | some [] => none
  | some found => some (if negative then -(numeral found : Int) else numeral found)

/-- What has been read of a command line: the build file, the options, and what had no use. -/
structure Found where
  build : Option String
  arguments : Arguments
  extras : List String

def Found.nothing : Found := ⟨none, ⟨"", [], false, 1⟩, []⟩

def Found.takeSwitch (found : Found) (switch : Switch) (value : String) :
    Except ArgumentsEnd Found :=
  match switch with
  | .module =>
    .ok { found with
      arguments := { found.arguments with modules := found.arguments.modules ++ [value] } }
  | .workers =>
    match integer? value with
    | some count => .ok { found with arguments := { found.arguments with workers := count } }
    | none => .error (switchFault .workers ("invalid int value: " ++ Json.quoted value))
  | .dryRun => .ok { found with arguments := { found.arguments with isDry := true } }
  | .help => .error .help

/-- Takes a value: the first one is the build file. -/
def Found.takeValue (found : Found) (value : String) : Found :=
  match found.build with
  | none => { found with build := some value }
  | some _ => { found with extras := found.extras ++ [value] }

/-- How an argument of joined options ends. -/
inductive JoinedEnd where
  /-- With an option that has no value in the argument. -/
  | bare (switch : Switch)
  /-- With an option and its value. -/
  | given (switch : Switch) (value : String)
  /-- With letters that stand for no option. -/
  | stray (text : String)
  deriving DecidableEq, Repr

/-- The options of one argument: those that stand alone, and what comes behind them. -/
structure Joined where
  alone : List Switch
  ending : JoinedEnd
  deriving DecidableEq, Repr

/-- Options with one that stands alone in front of them. -/
def Joined.behind (switch : Switch) (options : Joined) : Joined :=
  { options with alone := switch :: options.alone }

/-- The fault of a value that is joined to an option that takes none. -/
def ignored (switch : Switch) (value : String) : ArgumentsEnd :=
  switchFault switch ("ignored explicit argument " ++ Json.quoted value)

/-- An option with a value behind an equals sign. -/
def assign (switch : Switch) (value : String) : Except ArgumentsEnd Joined :=
  if switch.takesValue then .ok ⟨[], .given switch value⟩ else .error (ignored switch value)

/-- The options that an option and the letters behind it stand for.  The first one that takes
a value takes all that is left. -/
def unjoin (switch : Switch) : List Char → Except ArgumentsEnd Joined
  | [] => .ok ⟨[], .bare switch⟩
  | letter :: rest =>
    if switch.takesValue then .ok ⟨[], .given switch (String.ofList (letter :: rest))⟩
    else if letter = '-' then .error (ignored switch (String.ofList (letter :: rest)))
    else
      match Keyed.get? (String.ofList ['-', letter]) spellings with
      | none => .ok ⟨[switch], .stray (String.ofList ('-' :: letter :: rest))⟩
      | some next =>
        match rest with
        | '=' :: value => (assign next (String.ofList value)).map (Joined.behind switch)
        | _ => (unjoin next rest).map (Joined.behind switch)

/-- The options that an option and what is joined to it stand for. -/
def joinedOptions (switch : Switch) : Option Attached → Except ArgumentsEnd Joined
  | none => .ok ⟨[], .bare switch⟩
  | some (.assigned value) => assign switch value
  | some (.trailing letters) => unjoin switch letters

/-- Whether joined options end with one that waits for a value. -/
def Joined.awaitsValue (options : Joined) : Option Switch :=
  match options.ending with
  | .bare switch => if switch.takesValue then some switch else none
  | _ => none

/-- Takes the options of one argument; a last one that waits for its value takes `next`. -/
def Found.takeJoined (found : Found) (options : Joined) (next : String) :
    Except ArgumentsEnd Found := do
  let taken ← options.alone.foldlM (fun held switch => held.takeSwitch switch "") found
  match options.ending with
  | .bare switch => taken.takeSwitch switch next
  | .given switch value => taken.takeSwitch switch value
  | .stray text => pure { taken with extras := taken.extras ++ [text] }

/-- Reads the parts of a command line in order.  Two hyphens next to the build file belong to
it; behind it they have no use. -/
def Found.read (found : Found) : List Part → Except ArgumentsEnd Found
  | [] => .ok found
  | .value text :: .mark :: rest =>
    if found.build.isNone then (found.takeValue text).read rest
    else ((found.takeValue text).takeValue "--").read rest
  | .value text :: rest => (found.takeValue text).read rest
  | .unknown text :: rest => ({ found with extras := found.extras ++ [text] } : Found).read rest
  | .mark :: rest =>
    if found.build.isNone then found.read rest else (found.takeValue "--").read rest
  | .option switch attached :: .value text :: rest => do
    let options ← joinedOptions switch attached
    let taken ← found.takeJoined options text
    match options.awaitsValue with
    | some _ => taken.read rest
    | none => taken.read (.value text :: rest)
  | .option switch attached :: rest => do
    let options ← joinedOptions switch attached
    match options.awaitsValue with
    | some last => .error (switchFault last "expected one argument")
    | none => (← found.takeJoined options "").read rest

/-- What a command line asks for. -/
def ofList (texts : List String) : Except ArgumentsEnd Arguments := do
  let found ← Found.nothing.read (← partsOf texts)
  match found.build with
  | none => throw (.fault "the following arguments are required: build")
  | some build =>
    if found.extras.isEmpty then pure { found.arguments with build := build }
    else throw (.fault ("unrecognized arguments: " ++ joined " " found.extras))

end Arguments

end IdeModules
