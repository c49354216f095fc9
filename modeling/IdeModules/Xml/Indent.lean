import IdeModules.Text.Blank
import IdeModules.Xml.Node

/-!
# Indentation

Indenting gives every child of an element a line of its own, two spaces deeper
than the element.  It only replaces text that is empty or blank, and it leaves
alone an element without children.
-/

namespace IdeModules.Xml

/-- A line end and the indentation of a depth. -/
def lineIndent (depth : Nat) : String :=
  String.ofList ('\n' :: List.replicate (2 * depth) ' ')

/-- A text, unless it is blank and makes room for an indentation. -/
def orIndent (text : String) (depth : Nat) : String :=
  if allBlank text then lineIndent depth else text

mutual

/-- A child with everything below it indented; its tail leads to the next child or, behind
the last one, to the end of its parent. -/
def indentNode (depth : Nat) (isLast : Bool) : Node → Node
  | .element name attributes text children tail =>
    .element name attributes
      (if children.isEmpty then text else orIndent text (depth + 1))
      (indentNodes (depth + 1) children)
      (orIndent tail (if isLast then depth - 1 else depth))
  | .comment content tail => .comment content (orIndent tail (if isLast then depth - 1 else depth))

/-- Children of one element, indented to a depth. -/
def indentNodes (depth : Nat) : List Node → List Node
  | [] => []
  | node :: rest => indentNode depth rest.isEmpty node :: indentNodes depth rest

end

/-- A root element with everything below it indented. -/
def Element.indent (root : Element) : Element :=
  { root with
    text := if root.children.isEmpty then root.text else orIndent root.text 1
    children := indentNodes 1 root.children }

end IdeModules.Xml
