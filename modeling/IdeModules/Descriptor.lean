import IdeModules.Layout
import IdeModules.Xml.Node

/-!
# Module descriptors

A descriptor is the generated or the persisted state of a module's file.  A
persisted one carries the XML tree that it was read from, so that what the
generator does not manage stays as it is.
-/

namespace IdeModules

/-- The state of a module's descriptor. -/
structure Descriptor where
  name : Json.Value
  root : Option ContentRoot
  outputUrl : Option String
  testOutputUrl : Option String
  inheritsOutput : Bool
  jdkName : Json.Value
  languageLevel : Option String
  scopes : ScopedLibraries
  tree : Option Xml.Element
  deriving Repr

/-- An entry of a descriptor's order: the development kit, the sources, or a library. -/
inductive OrderEntry where
  | jdk (name : Json.Value)
  | inheritedJdk
  | sources
  | library (library : Library)
  deriving Repr

namespace Descriptor

def ofName (name : Json.Value) : Descriptor where
  name := name
  root := none
  outputUrl := none
  testOutputUrl := none
  inheritsOutput := true
  jdkName := .null
  languageLevel := none
  scopes := []
  tree := none

def libraries (descriptor : Descriptor) : List Library :=
  (Keyed.values descriptor.scopes).flatten

/-- The entry of the development kit: the named one, or that of the project. -/
def jdkEntry (descriptor : Descriptor) : OrderEntry :=
  if descriptor.jdkName.isEmpty then .inheritedJdk else .jdk descriptor.jdkName

def orderEntries (descriptor : Descriptor) : List OrderEntry :=
  [descriptor.jdkEntry, .sources] ++ descriptor.libraries.map .library

/-- The content root of a descriptor; one without is at the directory of the descriptor. -/
def rootOrDefault (descriptor : Descriptor) : ContentRoot :=
  descriptor.root.getD ⟨"file://$MODULE_DIR$/", [], []⟩

end Descriptor

end IdeModules
