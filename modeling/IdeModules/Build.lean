import IdeModules.LanguageLevel
import IdeModules.Settings

/-!
# Builds

A build is a root directory with modules and path variables.  It may configure
its project, which then provides a language level for all modules: the stated
one, or the highest of its Java modules.
-/

namespace IdeModules

/-- What a build says about its project. -/
structure ProjectSettings where
  languageLevel : Option String
  deriving DecidableEq, Repr

/-- A build: its directory, its modules, its project, and the path variables of all modules. -/
structure Build where
  rootDirectory : Path
  modules : List ModuleSettings
  project : Option ProjectSettings
  pathVariables : Mapping String (Option Path)
  deriving Repr

namespace Build

/-- The language level that a build provides for all its modules. -/
def projectLevel (build : Build) : Option String :=
  match build.project with
  | none => none
  | some project =>
    LanguageLevel.ofProject
      ((build.modules.filter ModuleSettings.isJava).map ModuleSettings.sourceCompatibility)
      project.languageLevel

/-- The file that lists the modules of a build. -/
def modulesPath (build : Build) : Path :=
  (build.rootDirectory.below ".idea").below "modules.xml"

end Build

end IdeModules
