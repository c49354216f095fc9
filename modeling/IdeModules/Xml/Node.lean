import IdeModules.Keyed
import IdeModules.Text.Split

/-!
# XML elements

An element has a name, attributes in order, the text before its first child and
its children.  A child is an element or a comment, together with the text that
follows it, its tail.  Names in a namespace carry the URI of that namespace and
differ from every plain name.
-/

namespace IdeModules.Xml

/-- The name of an element or attribute: the URI of its namespace, if it has one, and its
local part. -/
structure Name where
  space : Option String
  localPart : String
  deriving DecidableEq, Repr, Inhabited

namespace Name

def plain (localPart : String) : Name := ⟨none, localPart⟩

/-- The text of a name: the URI stands in braces before the local part. -/
def text (name : Name) : String :=
  match name.space with
  | none => name.localPart
  | some uri => "\x7b" ++ uri ++ "\x7d" ++ name.localPart

end Name

/-- The value of an attribute.  A value that came from build data may be no text: it is then
written as it stands, or has no written form at all. -/
inductive AttributeValue where
  | text (content : String)
  | verbatim (content : String)
  | unwritable
  deriving DecidableEq, Repr, Inhabited

/-- Attributes in order. -/
abbrev Attributes := Keyed Name AttributeValue

/-- A child of an element, with the text that follows it. -/
inductive Node where
  | element (name : Name) (attributes : Attributes) (text : String) (children : List Node)
      (tail : String)
  | comment (content : String) (tail : String)
  deriving Repr, Inhabited

mutual

/-- Decides whether two children are the same. -/
def sameNode : (left right : Node) → Decidable (left = right)
  | .element name attributes text children tail, .element name' attributes' text' children' tail' =>
    match sameNodes children children' with
    | .isTrue same =>
      if others : (name, attributes, text, tail) = (name', attributes', text', tail') then
        .isTrue (by cases others; cases same; rfl)
      else .isFalse fun both => others (by cases both; rfl)
    | .isFalse differ => .isFalse fun both => differ (Node.element.inj both).2.2.2.1
  | .comment content tail, .comment content' tail' =>
    if same : (content, tail) = (content', tail') then .isTrue (by cases same; rfl)
    else .isFalse fun both => same (by cases both; rfl)
  | .element .., .comment .. => .isFalse nofun
  | .comment .., .element .. => .isFalse nofun

def sameNodes : (left right : List Node) → Decidable (left = right)
  | [], [] => .isTrue rfl
  | node :: rest, node' :: rest' =>
    match sameNode node node', sameNodes rest rest' with
    | .isTrue first, .isTrue others => .isTrue (congr (congrArg List.cons first) others)
    | .isFalse differ, _ => .isFalse fun both => differ (List.cons.inj both).1
    | _, .isFalse differ => .isFalse fun both => differ (List.cons.inj both).2
  | [], _ :: _ => .isFalse nofun
  | _ :: _, [] => .isFalse nofun

end

instance : DecidableEq Node := sameNode

/-- An element without regard to what follows it. -/
structure Element where
  name : Name
  attributes : Attributes
  text : String
  children : List Node
  deriving DecidableEq, Repr, Inhabited

namespace Node

/-- The child that an element makes with a tail. -/
def ofElement (content : Element) (tail : String) : Node :=
  .element content.name content.attributes content.text content.children tail

def element? : Node → Option Element
  | .element name attributes text children _ => some ⟨name, attributes, text, children⟩
  | .comment .. => none

def tail : Node → String
  | .element _ _ _ _ tail => tail
  | .comment _ tail => tail

def withTail : Node → String → Node
  | .element name attributes text children _, tail => .element name attributes text children tail
  | .comment content _, tail => .comment content tail

def isNamed (localPart : String) (node : Node) : Bool :=
  match node with
  | .element name .. => name = Name.plain localPart
  | .comment .. => false

/-- Whether a child is an element with one of several plain names. -/
def isNamedIn (names : List String) (node : Node) : Bool :=
  names.any fun name => node.isNamed name

end Node

namespace Element

/-- An element with a plain name and text attributes, and nothing in it. -/
def make (name : String) (attributes : List (String × String)) : Element where
  name := Name.plain name
  attributes := attributes.map fun entry => (Name.plain entry.1, .text entry.2)
  text := ""
  children := []

/-- An element with children that nothing follows. -/
def withChildren (element : Element) (children : List Element) : Element :=
  { element with children := children.map fun child => Node.ofElement child "" }

/-- The text of an attribute with a plain name. -/
def attribute? (element : Element) (name : String) : Option String :=
  match Keyed.get? (Name.plain name) element.attributes with
  | some (.text content) => some content
  | _ => none

/-- The element with a text attribute in the place of an older one, or behind the others. -/
def setAttribute (element : Element) (name : Name) (value : String) : Element :=
  { element with attributes := Keyed.put name (.text value) element.attributes }

def removeAttribute (element : Element) (name : String) : Element :=
  { element with attributes := Keyed.erase (Name.plain name) element.attributes }

/-- The children with a plain name. -/
def childrenNamed (element : Element) (name : String) : List Element :=
  (element.children.filter (Node.isNamed name)).filterMap Node.element?

def child? (element : Element) (name : String) : Option Element :=
  (element.childrenNamed name).head?

/-- The element with a child at its end that nothing follows. -/
def append (element child : Element) : Element :=
  { element with children := element.children ++ [Node.ofElement child ""] }

end Element

/-- A list in which the first member that passes a test is replaced. -/
def replaceFirst (test : α → Bool) (change : α → α) : List α → List α
  | [] => []
  | item :: rest => if test item then change item :: rest else item :: replaceFirst test change rest

end IdeModules.Xml
