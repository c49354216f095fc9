import IdeModules.Arguments
import IdeModules.Build.Reading
import IdeModules.Workspace

/-!
# The command line

The command loads a build file, generates the descriptors of its modules, and
tells what it has written.  A dry run prints what it would write.  A command
line that cannot be read ends with code 2, an error about the input with code 1.
-/

namespace IdeModules

namespace Build

/-- The build that a file describes, given which paths lead to directories. -/
def loadWith (isDirectory : Path → Bool) (files : FileTree) (path : Path) : Except Error Build :=
  if files.contains path then
    match files.readText path with
    | .error failure => .error failure
    | .ok text =>
      match Json.read text with
      | none => .error (.invalidBuild path .notJson)
      | some data => ofData isDirectory files.workingDirectory path.parent path data
  else .error (.missingInput "build file" path)

def load (files : FileTree) (path : Path) : Except Error Build :=
  loadWith files.isDirectory files path

/-- The paths that a run of a build looks at. -/
def inspected (build : Build) : List Path :=
  (build.modules.flatMap fun settings =>
    [settings.projectDirectory, settings.descriptorPath]) ++ [build.modulesPath]

end Build

namespace CommandLine

/-- The line that shows how the command is called. -/
def usage : String :=
  "usage: imlgen [-h] [--module MODULES] [--dry-run] [--workers WORKERS] build"

/-- The lines that tell what the command does and what its arguments mean. -/
def help : List String :=
  [usage,
    "",
    "Generate IDEA module files (.iml) from a build description",
    "",
    "positional arguments:",
    "  build                 Path to the JSON build file",
    "",
    "options:",
    "  -h, --help            show this help message and exit",
    "  --module MODULES, -m MODULES",
    "                        Only regenerate this module (repeatable)",
    "  --dry-run, -n         Print output without writing files",
    "  --workers WORKERS, -j WORKERS",
    "                        Modules generated in parallel (default: 1)"]

def loadBuild (path : Path) : Run Build := do
  Run.ofResult (Build.load (← get).files path)

/-- The line around the title of a preview. -/
def rule : String := String.ofList (List.replicate 60 '=')

/-- Prints the content that a file would have. -/
def preview (path : Path) (content : String) : Run Unit := do
  Run.printLine rule
  Run.printLine path.text
  Run.printLine rule
  Run.printLine content

/-- Prints what a dry run would write. -/
def previewAll (build : Build) (only : List String) (results : List GenerationResult) :
    Run Unit := do
  results.forM fun result => preview result.path result.content
  if only.isEmpty then
    Run.printLine rule
    Run.printLine build.modulesPath.text
    Run.printLine rule
    Run.printLine (← Run.ofResult (build.workspaceText (← get).files results))

/-- Tells what a run has written. -/
def summarize (build : Build) (only : List String) (results : List GenerationResult) :
    Run Unit := do
  results.forM fun result => Run.printLine ("  ✓ " ++ result.path.text)
  if only.isEmpty then Run.printLine ("  ✓ " ++ build.modulesPath.text)
  let unresolved := (results.flatMap GenerationResult.diagnostics).length
  Run.printLine ("\n✅ Generated " ++ Nat.repr results.length ++ " module file(s) in: " ++
    build.rootDirectory.text)
  if 0 < unresolved then
    Run.printLine ("⚠️  " ++ Nat.repr unresolved ++
      " dependency(ies) could not be resolved; see messages above")

/-- The keys of the names of modules, none of which may have parts. -/
def knownNames (build : Build) : Except Error (List Json.Key) :=
  keysOf (build.modules.map ModuleSettings.name)

/-- Warns of names that no module of a build has. -/
def warnUnknown (known : List Json.Key) (only : List String) : Run Unit :=
  (only.filter fun name => Json.Key.str name ∉ known).forM fun name =>
    Run.reportLine ("WARNING: Module '" ++ name ++ "' is not part of the build, skipping")

/-- Generates the descriptors of the build that a file describes. -/
def generate (path : Path) (only : List String) (isDry : Bool) (workers : Int) :
    Run (List GenerationResult) := do
  let build ← loadBuild path
  warnUnknown (← Run.ofResult (knownNames build)) only
  let results ← build.run [] ⟨only, false, isDry, workers⟩
  if isDry then previewAll build only results else summarize build only results
  pure results

def reportError (failure : Error) : Run Nat :=
  match failure.isReported, failure.message? with
  | true, some message => do
    Run.reportLine ("ERROR: " ++ message)
    pure 1
  | _, _ => throw failure

def run (texts : List String) : Run Nat :=
  match Arguments.ofList texts with
  | .error .help => do
    help.forM Run.printLine
    pure 0
  | .error (.fault message) => do
    Run.reportLine usage
    Run.reportLine ("imlgen: error: " ++ message)
    pure 2
  | .ok arguments =>
    tryCatch
      (do
        let _ ← generate (Path.ofText arguments.build) arguments.modules arguments.isDry
          arguments.workers
        pure 0)
      reportError

/-- The path of the build file that a command line names, if it can be read. -/
def buildPath? (texts : List String) : Option Path :=
  match Arguments.ofList texts with
  | .ok arguments => some (Path.ofText arguments.build)
  | .error _ => none

/-- The paths that a run looks at besides its build file. -/
def inspected (files : FileTree) (texts : List String) : List Path :=
  match (buildPath? texts).map (Build.loadWith (fun _ => true) files) with
  | some (.ok build) => build.inspected
  | _ => []

end CommandLine

end IdeModules
