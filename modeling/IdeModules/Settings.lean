import IdeModules.Library

/-!
# Settings of a module

Everything that a build says about one of its modules: where it lives, its
source sets, its configurations, and what it customizes of its descriptor.
Values that the build data leave untouched keep the kind that they have there.
-/

namespace IdeModules

/-- A set of sources: its directories, and the directories that tasks generate for it, each
with the task that does. -/
structure SourceSet where
  name : String
  sourceDirectories : List (Option Path)
  outputDirectories : List (Option Path × Json.Value)
  deriving Repr

def SourceSet.isTest (sources : SourceSet) : Bool :=
  sources.name == "test"

/-- What a build says about a module. -/
structure ModuleSettings where
  name : Json.Value
  projectDirectory : Path
  javaPlugin : Json.Value
  buildDirectory : Option Path
  metadataDirectory : Option Path
  sourceCompatibility : Option String
  sourceSets : List SourceSet
  configurations : Configurations
  contentRoot : Option Path
  sourceDirectories : List (Option Path)
  testSourceDirectories : List (Option Path)
  excludedDirectories : List (Option Path)
  inheritOutput : Json.Value
  outputDirectory : Option Path
  testOutputDirectory : Option Path
  jdkName : Json.Value
  scopes : Keyed String ScopeCustomization
  downloadSources : Json.Value
  downloadJavadoc : Json.Value
  generateTo : Option Path
  pathVariables : Mapping String (Option Path)
  deriving Repr

namespace ModuleSettings

/-- The settings of a module of which nothing is known but its name and directory. -/
def ofNameAndDirectory (name : Json.Value) (directory : Path) : ModuleSettings where
  name := name
  projectDirectory := directory
  javaPlugin := .bool true
  buildDirectory := none
  metadataDirectory := none
  sourceCompatibility := none
  sourceSets := []
  configurations := []
  contentRoot := none
  sourceDirectories := []
  testSourceDirectories := []
  excludedDirectories := []
  inheritOutput := .null
  outputDirectory := none
  testOutputDirectory := none
  jdkName := .null
  scopes := []
  downloadSources := .bool true
  downloadJavadoc := .bool false
  generateTo := none
  pathVariables := ∅

def isJava (settings : ModuleSettings) : Bool :=
  !settings.javaPlugin.isEmpty

def attachments (settings : ModuleSettings) : Attachments where
  sources := !settings.downloadSources.isEmpty
  javadoc := !settings.downloadJavadoc.isEmpty

/-- The file of a module's descriptor. -/
def descriptorPath (settings : ModuleSettings) : Path :=
  (settings.generateTo.getD settings.projectDirectory).below (settings.name.display ++ ".iml")

/-- The path variables of a module: those of the build, then its own, then the directory of
its descriptor. -/
def anchors (settings : ModuleSettings) (start : Path)
    (shared : Mapping String (Option Path)) : PathVariables :=
  PathVariables.ofPairs start (shared.putAll settings.pathVariables.entries).entries
    (some settings.descriptorPath.parent)

end ModuleSettings

end IdeModules
