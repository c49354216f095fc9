import IdeModules.Descriptor.Reading
import IdeModules.Xml.Indent

/-!
# Writing descriptors

Writing puts the managed state of a descriptor into its tree.  The managed
children of the root manager are made anew in a fixed order; its other children
and attributes, and all other components, stay as they are.  The first content
element is kept with what it holds beside its source and excluded folders.
-/

namespace IdeModules

/-- The children of the root manager that are made anew. -/
def managedTags : List String :=
  ["output", "output-test", "exclude-output", "content", "orderEntry"]

/-- The children of a content element that are made anew. -/
def folderTags : List String := ["sourceFolder", "excludeFolder"]

/-- The group of a library's roots of one kind. -/
def rootGroup (kind : String) (urls : List String) : Xml.Element :=
  (Xml.Element.make kind []).withChildren
    (urls.map fun url => Xml.Element.make "root" [("url", url)])

/-- The attribute that names a scope; the usual scope is not named. -/
def scopeAttribute (scope : String) : List (String × String) :=
  if scope = "" ∨ scope = "COMPILE" then [] else [("scope", scope)]

def rootGroups (classes javadoc sources : List String) : List Xml.Element :=
  [rootGroup "CLASSES" classes, rootGroup "JAVADOC" javadoc, rootGroup "SOURCES" sources]

/-- The order entry that a library is written as. -/
def Library.element : Library → Xml.Element
  | .files scope classes javadoc sources =>
    (Xml.Element.make "orderEntry" (("type", "module-library") :: scopeAttribute scope)).append
      ((Xml.Element.make "library" []).withChildren (rootGroups classes javadoc sources))
  | .unresolved scope group name version =>
    (Xml.Element.make "orderEntry" (("type", "module-library") :: scopeAttribute scope)).append
      ((Xml.Element.make "library"
        [("name", placeholderName group name version)]).withChildren (rootGroups [] [] []))
  | .otherModule scope name =>
    Xml.Element.make "orderEntry"
      ([("type", "module"), ("module-name", name)] ++ scopeAttribute scope)

/-- A truth value as an attribute. -/
def truthText (value : Bool) : String :=
  if value then "true" else "false"

def SourceFolder.element (folder : SourceFolder) : Xml.Element :=
  Xml.Element.make "sourceFolder"
    [("url", folder.url), ("isTestSource", truthText folder.isTest)]

def excludedFolderElement (url : String) : Xml.Element :=
  Xml.Element.make "excludeFolder" [("url", url)]

def ContentRoot.folders (root : ContentRoot) : List Xml.Element :=
  root.sourceFolders.map SourceFolder.element ++ root.excludedFolders.map excludedFolderElement

/-- The content element of a content root: an earlier one keeps what is not a folder, behind
the folders, and the text after it. -/
def contentNode (existing : Option Xml.Node) (root : ContentRoot) : Xml.Node :=
  let old := (existing.bind Xml.Node.element?).getD (Xml.Element.make "content" [])
  let kept := old.children.filter fun child => !child.isNamedIn folderTags
  let folders := root.folders.map fun folder => Xml.Node.ofElement folder ""
  Xml.Node.ofElement
    { old.setAttribute (Xml.Name.plain "url") root.url with
      text := "", children := folders ++ kept }
    ((existing.map Xml.Node.tail).getD "")

/-- The attribute value that a development kit's name makes: only a text is escaped, and a
value without parts has no written form. -/
def jdkAttribute : Json.Value → Xml.AttributeValue
  | .str name => .text name
  | .arr items =>
    if items.any isMarkupText then .unwritable else .verbatim (Json.Value.arr items).display
  | .obj members =>
    if members.any fun member => isMarkupText (.str member.1) then .unwritable
    else .verbatim (Json.Value.obj members).display
  | _ => .unwritable
where
  /-- Whether a value is one of the characters that an attribute escapes. -/
  isMarkupText : Json.Value → Bool
    | .str text => ["&", "<", ">", "\"", "\r", "\n", "\t"].contains text
    | _ => false

namespace Descriptor

def jdkElement (descriptor : Descriptor) : Xml.Element :=
  if descriptor.jdkName.isEmpty then Xml.Element.make "orderEntry" [("type", "inheritedJdk")]
  else
    { Xml.Element.make "orderEntry" [] with
      attributes :=
        [(Xml.Name.plain "type", .text "jdk"),
          (Xml.Name.plain "jdkName", jdkAttribute descriptor.jdkName),
          (Xml.Name.plain "jdkType", .text "JavaSDK")] }

/-- The elements of the output directories, if the module has its own. -/
def outputElements (descriptor : Descriptor) : List Xml.Element :=
  if descriptor.inheritsOutput then []
  else
    outputElement "output" descriptor.outputUrl ++
      outputElement "output-test" descriptor.testOutputUrl
where
  /-- The element of an output directory, if there is one. -/
  outputElement (tag : String) (url : Option String) : List Xml.Element :=
    ((url.filter (· ≠ "")).map fun found => Xml.Element.make tag [("url", found)]).toList

def orderElements (descriptor : Descriptor) : List Xml.Element :=
  [descriptor.jdkElement,
    Xml.Element.make "orderEntry" [("type", "sourceFolder"), ("forTests", "false")]] ++
  descriptor.libraries.map Library.element

/-- The managed children of the root manager, in their order. -/
def managedNodes (descriptor : Descriptor) (existing : Option Xml.Node) : List Xml.Node :=
  let plain := List.map fun element => Xml.Node.ofElement element ""
  plain (descriptor.outputElements ++ [Xml.Element.make "exclude-output" []]) ++
    (descriptor.root.map (contentNode existing)).toList ++
    plain descriptor.orderElements

/-- The root manager with a language level, or without one. -/
def withLanguageLevel (level : Option String) (component : Xml.Element) : Xml.Element :=
  match level with
  | none => component.removeAttribute "LANGUAGE_LEVEL"
  | some name => component.setAttribute (Xml.Name.plain "LANGUAGE_LEVEL") name

/-- The root manager with the managed state of a descriptor. -/
def writeComponent (descriptor : Descriptor) (component : Xml.Element) : Xml.Element :=
  let existing := component.children.find? (Xml.Node.isNamed "content")
  let kept := component.children.filter fun child => !child.isNamedIn managedTags
  let marked := withLanguageLevel descriptor.languageLevel
    (component.setAttribute (Xml.Name.plain "inherit-compiler-output")
      (truthText descriptor.inheritsOutput))
  { marked with children := kept ++ descriptor.managedNodes existing }

def writeNode (descriptor : Descriptor) (node : Xml.Node) : Xml.Node :=
  match node.element? with
  | some component => Xml.Node.ofElement (descriptor.writeComponent component) node.tail
  | none => node

/-- A module element with a root manager: one without it gets one as its first child. -/
def withRootManager (root : Xml.Element) : Xml.Element :=
  if root.children.any (isComponent rootManager) then root
  else
    { root with
      children :=
        Xml.Node.ofElement (Xml.Element.make "component" [("name", rootManager)]) "" ::
          root.children }

/-- A module element with the managed state of a descriptor. -/
def writeTo (descriptor : Descriptor) (root : Xml.Element) : Xml.Element :=
  let prepared := withRootManager root
  { prepared with
    children :=
      Xml.replaceFirst (isComponent rootManager) descriptor.writeNode prepared.children }

def startingTree (descriptor : Descriptor) : Except Error Xml.Element :=
  match descriptor.tree with
  | some root => .ok root
  | none => Xml.readDocument false templateText

/-- The tree of a descriptor with its managed state. -/
def writtenTree (descriptor : Descriptor) : Except Error Xml.Element :=
  descriptor.startingTree.map descriptor.writeTo

end Descriptor

/-- The document of an indented tree; a tree that holds a value without a written form has
none. -/
def serialize (indented : Xml.Element) : Except Error String :=
  if indented.isWritable then .ok (Xml.document indented) else .error .wrongKind

namespace Descriptor

/-- Writes a descriptor into its tree, and gives the document of the tree.  The descriptor keeps
the written and indented tree, also where the tree has no document. -/
def write (descriptor : Descriptor) : Descriptor × Except Error String :=
  match descriptor.writtenTree with
  | .error failure => (descriptor, .error failure)
  | .ok tree => ({ descriptor with tree := some tree.indent }, serialize tree.indent)

end Descriptor

end IdeModules
