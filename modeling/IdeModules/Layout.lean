import IdeModules.Settings

/-!
# Layout of a module

The layout of a module is its content root with source and excluded folders,
its output directories, and the directories that the build generates.  A
generated directory is a library and never a source folder, however its path is
spelled.
-/

namespace IdeModules

/-- A folder of sources or of tests, as a URL. -/
structure SourceFolder where
  url : String
  isTest : Bool
  deriving DecidableEq, Repr

/-- The root of a module's content with its folders, as URLs. -/
structure ContentRoot where
  url : String
  sourceFolders : List SourceFolder
  excludedFolders : List String
  deriving DecidableEq, Repr

/-- The output directories of a module, as URLs: those of its project, or its own. -/
structure OutputUrls where
  inherits : Bool
  output : Option String
  testOutput : Option String
  deriving DecidableEq, Repr

/-- A directory that the build generates, the source set that it belongs to, and the task that
generates it. -/
structure GeneratedDirectory where
  directory : Path
  sources : SourceSet
  task : Json.Value
  deriving Repr

/-- The layout of a module. -/
structure Layout where
  root : ContentRoot
  outputs : OutputUrls
  generatedLibraries : List Library
  tasks : List Json.Value
  deriving Repr

/-- A list with a value at its end, unless it holds one of the same worth. -/
def pushNewValue (values : List Json.Value) (value : Json.Value) : List Json.Value :=
  if value.isAmong values then values else values ++ [value]

namespace ModuleSettings

def home (settings : ModuleSettings) (anchors : PathVariables) : Path :=
  anchors.normalize (some settings.projectDirectory)

/-- The directories that the build generates for a source set, if it is a standard one. -/
def generatedFor (anchors : PathVariables) (sources : SourceSet) : List GeneratedDirectory :=
  if sources.name = "main" ∨ sources.name = "test" then
    sources.outputDirectories.map fun entry =>
      ⟨anchors.normalize entry.1, sources, entry.2⟩
  else []

def generated (settings : ModuleSettings) (anchors : PathVariables) :
    List GeneratedDirectory :=
  settings.sourceSets.flatMap (generatedFor anchors)

/-- The directories that hold sources or tests, in order. -/
def sourceCandidates (settings : ModuleSettings) : List (Option Path × Bool) :=
  (settings.sourceSets.flatMap fun sources =>
    sources.sourceDirectories.map fun directory => (directory, sources.isTest)) ++
  settings.sourceDirectories.map (·, false) ++
  settings.testSourceDirectories.map (·, true)

def sourceFolders (settings : ModuleSettings) (anchors : PathVariables) :
    List SourceFolder :=
  let generatedPaths := (settings.generated anchors).map GeneratedDirectory.directory
  distinct <|
    (settings.sourceCandidates.filter fun candidate =>
      anchors.normalize candidate.1 ∉ generatedPaths).map fun candidate =>
        ⟨anchors.fileUrl candidate.1, candidate.2⟩

/-- The excluded folders: metadata, build results, and what the module excludes. -/
def excludedFolders (settings : ModuleSettings) (anchors : PathVariables) : List String :=
  let home := settings.home anchors
  let metadata := settings.metadataDirectory.getD (home.below ".gradle")
  let build := settings.buildDirectory.getD (home.below "build")
  distinct (([some metadata, some build] ++ settings.excludedDirectories).map anchors.fileUrl)

/-- An output directory: the given one, or one below the module that is named after it. -/
def outputUrl (settings : ModuleSettings) (anchors : PathVariables) (given : Option Path)
    (kind : String) : Except Error String :=
  match given with
  | some directory => .ok (anchors.fileUrl (some directory))
  | none =>
    match settings.name with
    | .str name =>
      .ok (anchors.fileUrl
        (some ((((settings.home anchors).below "out").below kind).below name)))
    | _ => .error .wrongKind

/-- The output directories: a module has its own only where it says that it inherits none. -/
def outputUrls (settings : ModuleSettings) (anchors : PathVariables) :
    Except Error OutputUrls :=
  match settings.inheritOutput with
  | .bool false => do
    let output ← settings.outputUrl anchors settings.outputDirectory "production"
    let testOutput ← settings.outputUrl anchors settings.testOutputDirectory "test"
    pure ⟨false, some output, some testOutput⟩
  | _ => .ok ⟨true, none, none⟩

def generatedLibrary (anchors : PathVariables) (found : GeneratedDirectory) : Library :=
  .files (if found.sources.isTest then "TEST" else "RUNTIME")
    [anchors.fileUrl (some found.directory)] [] []

def layout (settings : ModuleSettings) (anchors : PathVariables) : Except Error Layout := do
  let outputs ← settings.outputUrls anchors
  let generated := settings.generated anchors
  pure {
    root := {
      url := anchors.fileUrl (some (settings.contentRoot.getD (settings.home anchors)))
      sourceFolders := settings.sourceFolders anchors
      excludedFolders := settings.excludedFolders anchors }
    outputs := outputs
    generatedLibraries := distinct (generated.map (generatedLibrary anchors))
    tasks := ((generated.map GeneratedDirectory.task).filter fun task => !task.isEmpty).foldl
      pushNewValue [] }

end ModuleSettings

end IdeModules
