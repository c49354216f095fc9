import IdeModules.Xml.Charset
import IdeModules.Xml.Token

/-!
# The start of a document

Before its root a document may declare its version and character set, hold
comments, instructions and blanks, and name its type.  All of it is read away;
what remains is the rest of the document and what was settled about its
reading.  A document type that refers to something outside the document lets
attributes refer to entities that are not declared, unless the document claims
to stand alone.
-/

namespace IdeModules.Xml

/-- What the declaration of a document states. -/
structure Declaration where
  encoding : Option (List Char)
  standsAlone : Bool
  deriving DecidableEq, Repr

/-- Whether a character may stand in the value of a declaration. -/
def isDeclarationChar (c : Char) : Bool :=
  c.isAlphanum || c == '.' || c == '-' || c == '_'

/-- The next name and value of a declaration, which blanks set off from what is before. -/
def takeStatement (cs : List Char) : Option (List Char × List Char × List Char) :=
  let inner := skipXmlSpace cs
  if inner.length = cs.length then none
  else
    let name := inner.takeWhile fun c => !isXmlSpace c && c != '='
    match skipXmlSpace (inner.dropWhile fun c => !isXmlSpace c && c != '=') with
    | '=' :: rest =>
      match takeQuoted (skipXmlSpace rest) with
      | some (value, after) =>
        if value.all isDeclarationChar then some (name, value, after) else none
      | none => none
    | _ => none

def readStandalone (encoding : Option (List Char)) (cs : List Char) : Option Declaration :=
  if (skipXmlSpace cs).isEmpty then some ⟨encoding, false⟩
  else
    match takeStatement cs with
    | none => none
    | some (name, value, rest) =>
      if name = "standalone".toList && (skipXmlSpace rest).isEmpty then
        if value = "yes".toList then some ⟨encoding, true⟩
        else if value = "no".toList then some ⟨encoding, false⟩
        else none
      else none

/-- The statements of a declaration: a version, and then possibly a character set and whether
the document stands alone. -/
def readStatements (cs : List Char) : Option Declaration :=
  match takeStatement cs with
  | none => none
  | some (name, _, rest) =>
    if name ≠ "version".toList then none
    else
      match takeStatement rest with
      | none => readStandalone none rest
      | some (second, value, after) =>
        if second = "encoding".toList then
          if value.head?.any Char.isAlpha then readStandalone (some value) after else none
        else readStandalone none rest

/-- The declaration at the start of a document, if there is one, and what follows it. -/
def takeDeclaration (cs : List Char) : Option (Option Declaration × List Char) :=
  match stripWord "<?xml".toList cs with
  | none => some (none, cs)
  | some inner =>
    if inner.head?.any (isNameChar false) then some (none, cs)
    else
      match cutAt "?>".toList inner with
      | none => none
      | some (body, rest) => (readStatements body).map fun found => (some found, rest)

def isPublicChar (c : Char) : Bool :=
  c.isAlphanum || " \n-'()+,./:=?;!*#@$_%".toList.contains c

/-- The characters after blanks, of which there must be one. -/
def requireSpace (cs : List Char) : Option (List Char) :=
  if (skipXmlSpace cs).length = cs.length then none else some (skipXmlSpace cs)

/-- An identifier between quotes, all of its characters of one class. -/
def takeIdentifier (allowed : Char → Bool) (cs : List Char) : Option (List Char) :=
  match takeQuoted cs with
  | some (content, rest) => if content.all allowed then some rest else none
  | none => none

/-- Reads away a reference to something outside the document; the last part may be missing
after a public identifier where a notation is declared. -/
def skipExternal (needsSystem : Bool) (cs : List Char) : Option (List Char) :=
  match stripWord "SYSTEM".toList cs with
  | some rest => (requireSpace rest).bind (takeIdentifier isXmlChar)
  | none =>
    match stripWord "PUBLIC".toList cs with
    | none => none
    | some rest =>
      match (requireSpace rest).bind (takeIdentifier isPublicChar) with
      | none => none
      | some after =>
        match (requireSpace after).bind (takeIdentifier isXmlChar) with
        | some last => some last
        | none => if needsSystem then none else some after

/-- The characters after a sign of repetition, if there is one. -/
def skipRepetition : List Char → List Char
  | '?' :: rest => rest
  | '*' :: rest => rest
  | '+' :: rest => rest
  | cs => cs

mutual

/-- Reads away one particle of a content model: a name or a group. -/
def skipParticle (dialect : Dialect) : Nat → List Char → Option (List Char)
  | 0, _ => none
  | steps + 1, cs =>
    match cs with
    | '(' :: rest => skipGroup dialect steps none rest
    | _ => (takeName dialect cs).map fun found => skipRepetition found.2

/-- Reads away the particles of a group, all joined by one sign, up to its end. -/
def skipGroup (dialect : Dialect) : Nat → Option Char → List Char → Option (List Char)
  | 0, _, _ => none
  | steps + 1, sign, cs =>
    match skipParticle dialect steps (skipXmlSpace cs) with
    | none => none
    | some rest =>
      match skipXmlSpace rest with
      | ')' :: after => some (skipRepetition after)
      | c :: after =>
        if (c = ',' || c = '|') && sign.all (· = c) then skipGroup dialect steps (some c) after
        else none
      | [] => none

end

/-- Reads away the names of a mixed content model, up to its end. -/
def skipMixed (dialect : Dialect) : Nat → Bool → List Char → Option (List Char)
  | 0, _, _ => none
  | steps + 1, hasNames, cs =>
    match skipXmlSpace cs with
    | ')' :: '*' :: rest => some rest
    | ')' :: rest => if hasNames then none else some rest
    | '|' :: rest =>
      (takeName dialect (skipXmlSpace rest)).bind fun found =>
        skipMixed dialect steps true found.2
    | _ => none

def skipModel (dialect : Dialect) (cs : List Char) : Option (List Char) :=
  match stripWord "EMPTY".toList cs with
  | some rest => some rest
  | none =>
    match stripWord "ANY".toList cs with
    | some rest => some rest
    | none =>
      match cs with
      | '(' :: inner =>
        match stripWord "#PCDATA".toList (skipXmlSpace inner) with
        | some rest => skipMixed dialect (rest.length + 1) false rest
        | none => skipGroup dialect (2 * inner.length + 2) none inner
      | _ => none

/-- Reads away the declaration of an element after its opening word. -/
def skipElementDeclaration (dialect : Dialect) (cs : List Char) : Option (List Char) := do
  let afterName := (← takeName dialect (← requireSpace cs)).2
  match skipXmlSpace (← skipModel dialect (← requireSpace afterName)) with
  | '>' :: rest => some rest
  | _ => none

/-- Reads away the declaration of a notation after its opening word. -/
def skipNotationDeclaration (dialect : Dialect) (cs : List Char) : Option (List Char) := do
  let afterName := (← takePlainName dialect (← requireSpace cs)).2
  match skipXmlSpace (← skipExternal false (← requireSpace afterName)) with
  | '>' :: rest => some rest
  | _ => none

/-- Reads away the declarations inside a document type, up to their closing bracket; tells
whether they refer to something outside the document. -/
def skipDeclarations (dialect : Dialect) : Nat → List Char → Option (Bool × List Char)
  | 0, _ => none
  | steps + 1, cs =>
    match skipXmlSpace cs with
    | ']' :: rest => some (false, rest)
    | '%' :: rest =>
      match takePlainName dialect rest with
      | some (_, ';' :: after) =>
        (skipDeclarations dialect steps after).map fun found => (true, found.2)
      | _ => none
    | '<' :: '?' :: rest =>
      (takeInstruction dialect rest).bind fun found => skipDeclarations dialect steps found.2
    | '<' :: '!' :: rest =>
      let after :=
        match stripWord "--".toList rest with
        | some inner => (takeComment inner).map Prod.snd
        | none =>
          match stripWord "ELEMENT".toList rest with
          | some inner => skipElementDeclaration dialect inner
          | none => (stripWord "NOTATION".toList rest).bind (skipNotationDeclaration dialect)
      after.bind (skipDeclarations dialect steps)
    | _ => none

/-- Reads away a document type after its opening word; tells whether it refers to something
outside the document. -/
def skipDocumentType (dialect : Dialect) (cs : List Char) : Option (Bool × List Char) := do
  let afterName := (← takeName dialect (← requireSpace cs)).2
  let (isOpen, afterExternal) ←
    match skipXmlSpace afterName with
    | '[' :: _ => some (false, afterName)
    | '>' :: _ => some (false, afterName)
    | _ => ((requireSpace afterName).bind (skipExternal true)).map fun rest => (true, rest)
  let (refers, afterSubset) ←
    match skipXmlSpace afterExternal with
    | '[' :: inner => skipDeclarations dialect (inner.length + 1) inner
    | rest => some (false, rest)
  match skipXmlSpace afterSubset with
  | '>' :: rest => some (isOpen || refers, rest)
  | _ => none

/-- Reads away what stands before the root, and tells what it settles about the rest. -/
def skipProlog (dialect : Dialect) (standsAlone : Bool) :
    Nat → Bool → List Char → Option (Dialect × List Char)
  | 0, _, _ => none
  | steps + 1, hasType, cs =>
    match skipXmlSpace cs with
    | '<' :: '?' :: rest =>
      (takeInstruction dialect rest).bind fun found =>
        skipProlog dialect standsAlone steps hasType found.2
    | '<' :: '!' :: rest =>
      match stripWord "--".toList rest with
      | some inner =>
        (takeComment inner).bind fun found =>
          skipProlog dialect standsAlone steps hasType found.2
      | none =>
        if hasType then none
        else
          match (stripWord "DOCTYPE".toList rest).bind (skipDocumentType dialect) with
          | none => none
          | some (refers, after) =>
            skipProlog { dialect with skipsEntities := refers && !standsAlone } standsAlone
              steps true after
    | inner => some (dialect, inner)

/-- What the start of a document settles about the reading of the rest, and that rest. -/
def readProlog (cs : List Char) : Except Error (Dialect × List Char) :=
  match takeDeclaration cs with
  | none => .error .malformedMarkup
  | some (declaration, rest) => do
    let charset ← match declaration.bind Declaration.encoding with
      | none => pure Charset.utf8
      | some name => Charset.ofName name
    let decoded ← charset.decode rest
    let dialect : Dialect := ⟨charset = .latin, false⟩
    match skipProlog dialect (declaration.any Declaration.standsAlone)
        (decoded.length + 1) false decoded with
    | some found => pure found
    | none => .error .malformedMarkup

end IdeModules.Xml
