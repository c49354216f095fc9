import IdeModules.Xml.Printer
import IdeModules.Xml.Prolog

/-!
# Reading XML

The tokens of a document build its root element from a stack of open elements.
Start and end tags match by the name as it is written; then the qualifiers of
names give way to the namespaces that are declared in scope.  Comments inside
the root are kept or dropped as the caller asks, instructions are dropped, and
the text around a dropped token joins.
-/

namespace IdeModules.Xml

/-- The namespaces in scope, innermost first, by the qualifier that stands for them; the empty
qualifier stands for names without one. -/
abbrev Scope := List (List Char × List Char)

def declaringNamespace : String := "http://www.w3.org/2000/xmlns/"

/-- The word that declares a namespace. -/
def declaringWord : List Char := "xmlns".toList

/-- The scope outside the root. -/
def outerScope : Scope := [("xml".toList, xmlNamespace.toList)]

/-- The qualifier that an attribute declares, if it declares one. -/
def declaredQualifier? (name : WrittenName) : Option (List Char) :=
  match name.qualifier with
  | none => if name.localPart = declaringWord then some [] else none
  | some qualifier => if qualifier = declaringWord then some name.localPart else none

/-- Whether a qualifier may stand for a namespace. -/
def mayDeclare (qualifier uri : List Char) : Bool :=
  (qualifier == "xml".toList) == (uri == xmlNamespace.toList) &&
    qualifier != declaringWord && uri != declaringNamespace.toList &&
    (qualifier.isEmpty || !uri.isEmpty) && !uri.contains '\x7d'

/-- The scope of an element, which its own attributes may extend. -/
def extendScope (scope : Scope) : List WrittenAttribute → Option Scope
  | [] => some scope
  | found :: rest =>
    match declaredQualifier? found.name with
    | none => extendScope scope rest
    | some qualifier =>
      if mayDeclare qualifier found.value then
        extendScope ((qualifier, found.value) :: scope) rest
      else none

/-- A name with a namespace, unless the URI is empty. -/
def nameIn (uri localPart : List Char) : Name :=
  ⟨if uri.isEmpty then none else some (String.ofList uri), String.ofList localPart⟩

def elementName? (scope : Scope) (name : WrittenName) : Option Name :=
  match name.qualifier with
  | none => some (nameIn ((scope.lookup []).getD []) name.localPart)
  | some qualifier => (scope.lookup qualifier).map fun uri => nameIn uri name.localPart

/-- The name of an attribute: without a qualifier it is in no namespace. -/
def attributeName? (scope : Scope) (name : WrittenName) : Option Name :=
  match name.qualifier with
  | none => some (nameIn [] name.localPart)
  | some qualifier => (scope.lookup qualifier).map fun uri => nameIn uri name.localPart

/-- Whether no member of a list comes again. -/
def allDifferent [DecidableEq α] : List α → Bool
  | [] => true
  | item :: rest => !rest.contains item && allDifferent rest

/-- The attributes of an element that declare no namespace. -/
def attributesIn (scope : Scope) : List WrittenAttribute → Option Attributes
  | [] => some []
  | found :: rest =>
    match declaredQualifier? found.name with
    | some _ => attributesIn scope rest
    | none =>
      match attributeName? scope found.name, attributesIn scope rest with
      | some name, some others => some ((name, .text (String.ofList found.value)) :: others)
      | _, _ => none

/-- An element whose end tag has not been read: its name as it is written, its scope, and what
has been read of it, the last child first. -/
structure OpenElement where
  written : List Char
  scope : Scope
  name : Name
  attributes : Attributes
  text : String
  children : List Node

namespace OpenElement

def ofStart (scope : Scope) (name : WrittenName) (attributes : List WrittenAttribute) :
    Option OpenElement := do
  if !allDifferent (attributes.map WrittenAttribute.name) then none
  let inner ← extendScope scope attributes
  let found ← elementName? inner name
  let kept ← attributesIn inner attributes
  if !allDifferent (kept.map Prod.fst) then none
  pure ⟨name.chars, inner, found, kept, "", []⟩

def addText (opened : OpenElement) (content : String) : OpenElement :=
  match opened.children with
  | [] => { opened with text := opened.text ++ content }
  | last :: others =>
    { opened with children := last.withTail (last.tail ++ content) :: others }

def addChild (opened : OpenElement) (child : Node) : OpenElement :=
  { opened with children := child :: opened.children }

def close (opened : OpenElement) : Element :=
  ⟨opened.name, opened.attributes, opened.text, opened.children.reverse⟩

end OpenElement

/-- How far a document has been read: its open elements, innermost first, or its root. -/
inductive Progress where
  | before
  | inside (innermost : OpenElement) (outer : List OpenElement)
  | after (root : Element)

namespace Progress

def finish (element : Element) : List OpenElement → Progress
  | [] => .after element
  | parent :: outer => .inside (parent.addChild (Node.ofElement element "")) outer

/-- Opens an element inside the innermost one. -/
def start (scope : Scope) (outer : List OpenElement) (name : WrittenName)
    (attributes : List WrittenAttribute) (isClosed : Bool) : Option Progress :=
  (OpenElement.ofStart scope name attributes).map fun opened =>
    if isClosed then finish opened.close outer else .inside opened outer

/-- Reads one token outside the root. -/
def stepOutside (progress : Progress) : Token → Option Progress
  | .text content isLiteral =>
    if isLiteral && content.all isXmlSpace then some progress else none
  | .comment _ => some progress
  | .instruction => some progress
  | .start name attributes isClosed =>
    match progress with
    | .before => start outerScope [] name attributes isClosed
    | _ => none
  | .literal _ => none
  | .finish _ => none

/-- Reads one token inside the root. -/
def stepInside (keepsComments : Bool) (innermost : OpenElement) (outer : List OpenElement) :
    Token → Option Progress
  | .text content _ => some (.inside (innermost.addText (String.ofList content)) outer)
  | .literal content => some (.inside (innermost.addText (String.ofList content)) outer)
  | .comment content =>
    if keepsComments then
      some (.inside (innermost.addChild (.comment (String.ofList content) "")) outer)
    else some (.inside innermost outer)
  | .instruction => some (.inside innermost outer)
  | .start name attributes isClosed =>
    start innermost.scope (innermost :: outer) name attributes isClosed
  | .finish name =>
    if name = innermost.written then some (finish innermost.close outer) else none

/-- Reads one token. -/
def step (keepsComments : Bool) (progress : Progress) (token : Token) : Option Progress :=
  match progress with
  | .inside innermost outer => stepInside keepsComments innermost outer token
  | other => stepOutside other token

/-- Reads tokens in order. -/
def steps (keepsComments : Bool) (progress : Progress) : List Token → Option Progress
  | [] => some progress
  | token :: rest => (progress.step keepsComments token).bind fun next =>
    next.steps keepsComments rest

/-- The root of a document that has been read to its end. -/
def root? : Progress → Option Element
  | .after root => some root
  | _ => none

end Progress

/-- The root element of the tokens of a document. -/
def elementOfTokens (keepsComments : Bool) (found : List Token) : Option Element :=
  (Progress.before.steps keepsComments found).bind Progress.root?

/-- The characters of a document without a mark of its byte order. -/
def withoutMark : List Char → List Char
  | '\ufeff' :: rest => rest
  | cs => cs

/-- The root element of a document. -/
def readDocument (keepsComments : Bool) (text : String) : Except Error Element := do
  let (dialect, body) ← readProlog (normalizeLineEnds (withoutMark text.toList))
  match (tokens dialect body).bind (elementOfTokens keepsComments) with
  | some root => pure root
  | none => .error .malformedMarkup

end IdeModules.Xml
