import IdeModules.Descriptor.Merging
import IdeModules.Run

/-!
# Generating the descriptor of a module

A run for one module computes its layout, runs the tasks that generate its
directories, generates its descriptor, loads the persisted one, merges the two
between the callbacks of the module, and replaces the file by the written tree.
Nothing is written unless every step before has succeeded.
-/

namespace IdeModules

/-- What a run for a module gives. -/
structure GenerationResult where
  path : Path
  descriptor : Descriptor
  content : String
  diagnostics : List String
  executedTasks : List Json.Value
  deriving Repr

namespace Descriptor

/-- The descriptor in the file at a path, named after the file. -/
def readFile (files : FileTree) (path : Path) : Except Error Descriptor :=
  match files.readText path with
  | .error .notText => .error (.invalidDescriptor path .notText)
  | .error other => .error other
  | .ok text => ofText path (.str path.stem) text

/-- The descriptor at a path, or the one of a module that has none yet, under the given name
or that of the file. -/
def load (files : FileTree) (path : Path) (name : Json.Value) : Except Error Descriptor :=
  if files.contains path then readFile files path
  else template (if name.isEmpty then .str path.stem else name)

end Descriptor

/-- How the modules of a build are run. -/
structure RunOptions where
  context : ProjectContext
  shared : Mapping String (Option Path)
  runsTasks : Bool
  isDry : Bool

namespace ModuleSettings

/-- Merges the generated descriptor of a module into the persisted one between the callbacks
of the module; gives the merged descriptor with its indented tree, and the written text. -/
def revise (owner : String) (hooks : Hooks) (persisted generated : Descriptor) :
    Run (Descriptor × String) := do
  let prepared ← Run.callBack owner .before hooks.before persisted
  let merged ← Run.callBack owner .when hooks.when (prepared.merge generated)
  let tree ← Run.ofResult merged.writtenTree
  let edited ← Run.callBack owner .raw hooks.raw tree
  let indented := edited.indent
  let content ← Run.ofResult (serialize indented)
  pure ({ merged with tree := some indented }, content)

def runTasks (options : RunOptions) (layout : Layout) : Run (List Json.Value) := do
  if options.runsTasks then
    layout.tasks.forM Run.runTask
    pure layout.tasks
  else pure []

/-- The descriptor of a module as a disk lets it be loaded. -/
def loadOn (disk : Disk) (settings : ModuleSettings) (files : FileTree) :
    Except Error Descriptor :=
  disk.reading files settings.descriptorPath
    (Descriptor.load files settings.descriptorPath settings.name)

/-- Generates, merges and writes the descriptor of a module on a disk. -/
def runOn (disk : Disk) (settings : ModuleSettings) (owner : String) (hooks : Hooks)
    (options : RunOptions) : Run GenerationResult := do
  let path := settings.descriptorPath
  let anchors := settings.anchors (← get).files.workingDirectory options.shared
  let layout ← Run.ofResult (settings.layout anchors)
  let executed ← runTasks options layout
  let (generated, diagnostics) ← Run.ofResult
    (Descriptor.generate settings anchors options.context layout)
  diagnostics.forM Run.reportLine
  let persisted ← Run.ofResult (settings.loadOn disk (← get).files)
  let (descriptor, content) ← revise owner hooks persisted generated
  if !options.isDry then Run.replaceFileOn disk path content
  pure ⟨path, descriptor, content, diagnostics, executed⟩

def run (settings : ModuleSettings) (owner : String) (hooks : Hooks) (options : RunOptions) :
    Run GenerationResult :=
  settings.runOn (.plain false) owner hooks options

end ModuleSettings

end IdeModules
