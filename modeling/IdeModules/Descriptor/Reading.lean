import IdeModules.Descriptor
import IdeModules.Xml.Reader

/-!
# Reading descriptors

A descriptor is read from the first root manager component of a module element.
Its order entries are grouped by scope: the built-in scopes come first, then
the others in the order of their first entry, and the entries of a scope keep
the order of the document.
-/

namespace IdeModules

/-- The component that holds what the generator manages. -/
def rootManager : String := "NewModuleRootManager"

def templateText : String :=
  "<?xml version=\"1.0\" encoding=\"UTF-8\"?>\n" ++
  "<module relativePaths=\"true\" type=\"JAVA_MODULE\" version=\"4\">\n" ++
  "  <component name=\"NewModuleRootManager\" inherit-compiler-output=\"true\">\n" ++
  "    <exclude-output/>\n" ++
  "    <orderEntry type=\"inheritedJdk\"/>\n" ++
  "    <content url=\"file://$MODULE_DIR$/\"/>\n" ++
  "    <orderEntry type=\"sourceFolder\" forTests=\"false\"/>\n" ++
  "  </component>\n" ++
  "  <component name=\"ModuleRootManager\"/>\n" ++
  "</module>\n"

/-- Whether a child is a component with a name. -/
def isComponent (name : String) (node : Xml.Node) : Bool :=
  node.isNamed "component" &&
    (node.element?.bind fun element => element.attribute? "name") == some name

def component? (root : Xml.Element) (name : String) : Option Xml.Element :=
  (root.children.find? (isComponent name)).bind Xml.Node.element?

/-- The URLs of the roots below a child of a library. -/
def rootUrls (library : Xml.Element) (kind : String) : List String :=
  match library.child? kind with
  | none => []
  | some group =>
    ((group.childrenNamed "root").filterMap fun root => root.attribute? "url").filter (· ≠ "")

/-- The placeholder that a name after its mark describes. -/
def placeholderOf (scope : String) (rest : List Char) : Library :=
  let parts := pieces ' ' (String.ofList rest)
  .unresolved scope (parts.getD 0 "") (parts.getD 1 "") parts[2]?

/-- The library that an order entry of its own describes. -/
def moduleLibraryOf (scope : String) (entry : Xml.Element) : Library :=
  match entry.child? "library" with
  | none => .files scope [] [] []
  | some library =>
    let name := ((library.attribute? "name").getD "").toList
    if placeholderMark.toList.isPrefixOf name then
      placeholderOf scope (name.drop placeholderMark.length)
    else
      .files scope (rootUrls library "CLASSES") (rootUrls library "JAVADOC")
        (rootUrls library "SOURCES")

def scopeOf (entry : Xml.Element) : String :=
  ((entry.attribute? "scope").filter (· ≠ "")).getD "COMPILE"

def libraryOf (entry : Xml.Element) : Option Library :=
  match entry.attribute? "type" with
  | some "module" => some (.otherModule (scopeOf entry) ((entry.attribute? "module-name").getD ""))
  | some "module-library" => some (moduleLibraryOf (scopeOf entry) entry)
  | _ => none

def isJdkEntry (entry : Xml.Element) : Bool :=
  entry.attribute? "type" == some "jdk"

def sourceFolderOf (folder : Xml.Element) : SourceFolder :=
  ⟨(folder.attribute? "url").getD "", folder.attribute? "isTestSource" == some "true"⟩

/-- The content root that an element describes, each folder once. -/
def contentRootOf (content : Xml.Element) : ContentRoot where
  url := (content.attribute? "url").getD ""
  sourceFolders := distinct ((content.childrenNamed "sourceFolder").map sourceFolderOf)
  excludedFolders := distinct ((content.childrenNamed "excludeFolder").map fun folder =>
    (folder.attribute? "url").getD "")

/-- Libraries under their scopes, each scope at its first library. -/
def groupByScope (libraries : List Library) : ScopedLibraries :=
  libraries.foldl
    (fun scopes library => Keyed.put library.scope
      ((Keyed.get? library.scope scopes).getD [] ++ [library]) scopes)
    []

/-- Scopes with the built-in ones in front. -/
def orderScopes (scopes : ScopedLibraries) : ScopedLibraries :=
  (builtInScopes ++ (Keyed.keys scopes).filter (· ∉ builtInScopes)).filterMap fun name =>
    (Keyed.get? name scopes).map fun libraries => (name, libraries)

namespace Descriptor

/-- The development kit that order entries name: the last one counts. -/
def jdkNameOf (entries : List Xml.Element) : Json.Value :=
  match ((entries.filter isJdkEntry).map fun entry => entry.attribute? "jdkName").getLast? with
  | some (some name) => .str name
  | _ => .null

/-- The descriptor that a root manager describes. -/
def ofComponent (name : Json.Value) (root component : Xml.Element) : Descriptor :=
  let entries := component.childrenNamed "orderEntry"
  { name := name
    root := (component.child? "content").map contentRootOf
    outputUrl := (component.child? "output").bind fun output => output.attribute? "url"
    testOutputUrl := (component.child? "output-test").bind fun output => output.attribute? "url"
    inheritsOutput := component.attribute? "inherit-compiler-output" != some "false"
    jdkName := jdkNameOf entries
    languageLevel := component.attribute? "LANGUAGE_LEVEL"
    scopes := orderScopes (groupByScope (entries.filterMap libraryOf))
    tree := some root }

/-- The descriptor that a module element describes. -/
def ofElement (name : Json.Value) (root : Xml.Element) : Descriptor :=
  match component? root rootManager with
  | none => { ofName name with tree := some root }
  | some component => ofComponent name root component

/-- The descriptor that a text writes; the path stands for it in messages. -/
def ofText (path : Path) (name : Json.Value) (text : String) : Except Error Descriptor :=
  match Xml.readDocument true text with
  | .error .malformedMarkup => .error (.invalidDescriptor path .malformed)
  | .error other => .error other
  | .ok root =>
    if root.name = Xml.Name.plain "module" then .ok (ofElement name root)
    else .error (.invalidDescriptor path (.wrongRoot root.name.text))

/-- The path that stands for a descriptor that has none. -/
def pathOfName (name : Json.Value) : Path :=
  Path.ofText (name.display ++ ".iml")

/-- The descriptor of a module that has none yet. -/
def template (name : Json.Value) : Except Error Descriptor :=
  ofText (pathOfName name) name templateText

end Descriptor

end IdeModules
