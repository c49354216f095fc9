import IdeModules.Build
import IdeModules.Generation

/-!
# The workspace

The workspace file lists the descriptors of all modules.  Its list is made
anew; everything else in an earlier file is kept.  A build writes it once all
of its modules have been generated.
-/

namespace IdeModules

/-- The workspace file of a build that has none yet. -/
def workspaceTemplate : String :=
  "<?xml version=\"1.0\" encoding=\"UTF-8\"?>\n" ++
  "<project version=\"4\">\n" ++
  "  <component name=\"ProjectModuleManager\">\n" ++
  "    <modules/>\n" ++
  "  </component>\n" ++
  "</project>\n"

/-- The component that lists the modules. -/
def moduleManager : String := "ProjectModuleManager"

/-- A listed descriptor: its URL and its path. -/
structure ListedModule where
  url : String
  path : String
  deriving DecidableEq, Repr

def ListedModule.element (listed : ListedModule) : Xml.Element :=
  Xml.Element.make "module" [("fileurl", listed.url), ("filepath", listed.path)]

/-- An element with a child at its end, unless it has one that passes a test. -/
def withChild (test : Xml.Node → Bool) (child parent : Xml.Element) : Xml.Element :=
  if parent.children.any test then parent else parent.append child

/-- A node with a change of its element, if it is one. -/
def changedNode (change : Xml.Element → Xml.Element) (node : Xml.Node) : Xml.Node :=
  match node.element? with
  | some child => Xml.Node.ofElement (change child) node.tail
  | none => node

/-- An element with its first child that passes a test changed. -/
def changeChild (test : Xml.Node → Bool) (change : Xml.Element → Xml.Element)
    (parent : Xml.Element) : Xml.Element :=
  { parent with children := Xml.replaceFirst test (changedNode change) parent.children }

def listModules (modules : List ListedModule) (list : Xml.Element) : Xml.Element :=
  list.withChildren (modules.map ListedModule.element)

def manageModules (modules : List ListedModule) (component : Xml.Element) : Xml.Element :=
  changeChild (Xml.Node.isNamed "modules") (listModules modules)
    (withChild (Xml.Node.isNamed "modules") (Xml.Element.make "modules" []) component)

/-- The root of a workspace file with other modules. -/
def writeModules (modules : List ListedModule) (root : Xml.Element) : Xml.Element :=
  changeChild (isComponent moduleManager) (manageModules modules)
    (withChild (isComponent moduleManager)
      (Xml.Element.make "component" [("name", moduleManager)]) root)

/-- The text of a workspace file that lists modules; an earlier text is kept but for its
list. -/
def workspaceDocument (modules : List ListedModule) (existing : Option String) :
    Except Error String := do
  let root ← Xml.readDocument false ((existing.filter (· ≠ "")).getD workspaceTemplate)
  serialize (writeModules modules root).indent

namespace Build

/-- A generated descriptor as it is listed, seen from the root of the build. -/
def listed (build : Build) (start : Path) (result : GenerationResult) : ListedModule :=
  let anchors := PathVariables.ofPairs start [("PROJECT_DIR", some build.rootDirectory)] none
  let path := anchors.render (some result.path)
  ⟨"file://" ++ path, path⟩

/-- The earlier text of the workspace file. -/
def existingWorkspace (build : Build) (files : FileTree) : Except Error (Option String) :=
  if files.contains build.modulesPath then (files.readText build.modulesPath).map some
  else .ok none

/-- The text of the workspace file for generated modules. -/
def workspaceText (build : Build) (files : FileTree) (results : List GenerationResult) :
    Except Error String := do
  let existing ← build.existingWorkspace files
  match workspaceDocument (results.map (build.listed files.workingDirectory)) existing with
  | .error .malformedMarkup => .error (.invalidDescriptor build.modulesPath .malformed)
  | other => other

/-- The modules that a run is restricted to; an empty list does not restrict it. -/
def selected (build : Build) (only : List String) : List ModuleSettings :=
  if only.isEmpty then build.modules
  else build.modules.filter fun settings => match settings.name with
    | .str name => only.contains name
    | _ => false

/-- The callbacks that are registered for a module; its name must have no parts. -/
def hooksOf (hooks : Keyed String Hooks) (settings : ModuleSettings) : Except Error Hooks :=
  match settings.name with
  | .str name => .ok ((Keyed.get? name hooks).getD Hooks.none)
  | other => (keyOf other).map fun _ => Hooks.none

/-- How a project is run. -/
structure Options where
  only : List String
  runsTasks : Bool
  isDry : Bool
  workers : Int

/-- The options that every module of a build is run with. -/
def moduleOptions (build : Build) (options : Options) : RunOptions where
  context := ⟨build.projectLevel, build.project.isSome⟩
  shared := build.pathVariables
  runsTasks := options.runsTasks
  isDry := options.isDry

def runModuleOn (disk : Disk) (build : Build) (hooks : Keyed String Hooks) (options : Options)
    (settings : ModuleSettings) : Run GenerationResult := do
  let found ← Run.ofResult (hooksOf hooks settings)
  settings.runOn disk settings.name.display found (build.moduleOptions options)

/-- Runs the selected modules of a build on a disk, side by side if there are workers for it. -/
def runModulesOn (disk : Disk) (build : Build) (hooks : Keyed String Hooks)
    (options : Options) : Run (List GenerationResult) :=
  let modules := build.selected options.only
  if 1 < options.workers && 1 < modules.length then
    Run.sideBySide (build.runModuleOn disk hooks options) modules
  else modules.mapM (build.runModuleOn disk hooks options)

/-- The text of the workspace file for generated modules, as a disk lets the earlier one be read. -/
def workspaceTextOn (disk : Disk) (build : Build) (files : FileTree)
    (results : List GenerationResult) : Except Error String :=
  disk.reading files build.modulesPath (build.workspaceText files results)

/-- Lists results in the workspace file on a disk, unless modules were left out. -/
def listOn (disk : Disk) (build : Build) (options : Options) (results : List GenerationResult) :
    Run Unit := do
  if !options.isDry && options.only.isEmpty then
    let text ← Run.ofResult (build.workspaceTextOn disk (← get).files results)
    Run.replaceFileOn disk build.modulesPath text

/-- Runs the selected modules of a build on a disk, and lists them. -/
def runOn (disk : Disk) (build : Build) (hooks : Keyed String Hooks) (options : Options) :
    Run (List GenerationResult) := do
  let results ← build.runModulesOn disk hooks options
  build.listOn disk options results
  pure results

section Plain

variable (build : Build) (hooks : Keyed String Hooks) (options : Options)

def runModule (settings : ModuleSettings) : Run GenerationResult :=
  build.runModuleOn (.plain false) hooks options settings

def runModules : Run (List GenerationResult) :=
  build.runModulesOn (.plain false) hooks options

/-- Runs the selected modules of a build on a disk that refuses nothing, and lists them. -/
def run : Run (List GenerationResult) :=
  build.runOn (.plain false) hooks options

end Plain

end Build

end IdeModules
