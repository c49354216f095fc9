import IdeModules.Xml.Node

/-!
# Printing XML

A document is printed with the namespaces of all its names declared on the
root, under prefixes that are numbered by first use unless the namespace has a
well-known one.  Markup characters are escaped in text; attributes also escape
quotes, line ends and tabs.  An element with neither text nor children is
closed at once.
-/

namespace IdeModules.Xml

/-- The namespace of the names that XML itself defines. -/
def xmlNamespace : String := "http://www.w3.org/XML/1998/namespace"

/-- The namespaces with a well-known prefix. -/
def wellKnownSpaces : Keyed String String :=
  [(xmlNamespace, "xml"),
    ("http://www.w3.org/1999/xhtml", "html"),
    ("http://www.w3.org/1999/02/22-rdf-syntax-ns#", "rdf"),
    ("http://schemas.xmlsoap.org/wsdl/", "wsdl"),
    ("http://www.w3.org/2001/XMLSchema", "xs"),
    ("http://www.w3.org/2001/XMLSchema-instance", "xsi"),
    ("http://purl.org/dc/elements/1.1/", "dc")]

def escapedTextChar (c : Char) : List Char :=
  if c = '&' then "&amp;".toList
  else if c = '<' then "&lt;".toList
  else if c = '>' then "&gt;".toList
  else [c]

/-- A character of an attribute value. -/
def escapedAttributeChar (c : Char) : List Char :=
  if c = '"' then "&quot;".toList
  else if c = '\r' then "&#13;".toList
  else if c = '\n' then "&#10;".toList
  else if c = '\t' then "&#09;".toList
  else escapedTextChar c

def escapedText (text : String) : List Char :=
  text.toList.flatMap escapedTextChar

/-- An attribute value between its quotes. -/
def escapedAttribute (text : String) : List Char :=
  text.toList.flatMap escapedAttributeChar

/-- The namespaces of the names of an element and its attributes. -/
def namesSpaces (name : Name) (attributes : Attributes) : List String :=
  name.space.toList ++ attributes.flatMap fun entry => entry.1.space.toList

mutual

/-- The namespaces that a child uses, in the order of the document. -/
def nodeSpaces : Node → List String
  | .element name attributes _ children _ =>
    namesSpaces name attributes ++ nodesSpaces children
  | .comment .. => []

def nodesSpaces : List Node → List String
  | [] => []
  | node :: rest => nodeSpaces node ++ nodesSpaces rest

end

/-- Gives a prefix to a namespace that has none yet. -/
def assignPrefix (assigned : Keyed String String) (uri : String) : Keyed String String :=
  match Keyed.get? uri assigned with
  | some _ => assigned
  | none =>
    match Keyed.get? uri wellKnownSpaces with
    | some known => if known = "xml" then assigned else assigned ++ [(uri, known)]
    | none => assigned ++ [(uri, "ns" ++ Nat.repr assigned.length)]

/-- The prefixes of the namespaces that a document uses. -/
def prefixesOf (root : Element) : Keyed String String :=
  (namesSpaces root.name root.attributes ++ nodesSpaces root.children).foldl assignPrefix []

def printedName (prefixes : Keyed String String) (name : Name) : List Char :=
  match name.space with
  | none => name.localPart.toList
  | some uri =>
    match Keyed.get? uri prefixes with
    | some assigned => assigned.toList ++ ':' :: name.localPart.toList
    | none => "xml:".toList ++ name.localPart.toList

/-- The printed form of an attribute value, as far as it has one. -/
def printedValue : AttributeValue → List Char
  | .text content => escapedAttribute content
  | .verbatim content => content.toList
  | .unwritable => []

/-- An attribute with the blank before it. -/
def printedAttribute (prefixes : Keyed String String) (entry : Name × AttributeValue) :
    List Char :=
  ' ' :: printedName prefixes entry.1 ++ '=' :: '"' :: printedValue entry.2 ++ ['"']

/-- The declaration of a namespace with the blank before it. -/
def printedSpace (entry : String × String) : List Char :=
  " xmlns:".toList ++ entry.2.toList ++ '=' :: '"' :: escapedAttribute entry.1 ++ ['"']

mutual

/-- A child with its tail. -/
def printNode (prefixes : Keyed String String) : Node → List Char
  | .element name attributes text children tail =>
    '<' :: printedName prefixes name ++ attributes.flatMap (printedAttribute prefixes) ++
      (if text = "" && children.isEmpty then " />".toList
        else '>' :: escapedText text ++ printNodes prefixes children ++
          "</".toList ++ printedName prefixes name ++ ['>']) ++
      escapedText tail
  | .comment content tail =>
    "<!--".toList ++ content.toList ++ "-->".toList ++ escapedText tail

def printNodes (prefixes : Keyed String String) : List Node → List Char
  | [] => []
  | node :: rest => printNode prefixes node ++ printNodes prefixes rest

end

/-- A root element with the declarations of its namespaces. -/
def printRoot (root : Element) : List Char :=
  let prefixes := prefixesOf root
  let declared := prefixes.mergeSort fun left right => left.2 ≤ right.2
  '<' :: printedName prefixes root.name ++ declared.flatMap printedSpace ++
    root.attributes.flatMap (printedAttribute prefixes) ++
    (if root.text = "" && root.children.isEmpty then " />".toList
      else '>' :: escapedText root.text ++ printNodes prefixes root.children ++
        "</".toList ++ printedName prefixes root.name ++ ['>'])

def attributesWritable (attributes : Attributes) : Bool :=
  attributes.all fun entry => entry.2 != .unwritable

mutual

/-- Whether all attributes of a child and below have a written form. -/
def nodeWritable : Node → Bool
  | .element _ attributes _ children _ => attributesWritable attributes && nodesWritable children
  | .comment .. => true

def nodesWritable : List Node → Bool
  | [] => true
  | node :: rest => nodeWritable node && nodesWritable rest

end

/-- Whether all attributes of an element and below have a written form. -/
def Element.isWritable (root : Element) : Bool :=
  attributesWritable root.attributes && nodesWritable root.children

/-- The line that every printed document starts with. -/
def declarationLine : String := "<?xml version=\"1.0\" encoding=\"UTF-8\"?>\n"

/-- The printed document of a root element. -/
def document (root : Element) : String :=
  declarationLine ++ String.ofList (printRoot root) ++ "\n"

end IdeModules.Xml
