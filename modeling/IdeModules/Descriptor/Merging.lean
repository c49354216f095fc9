import IdeModules.Descriptor.Writing
import IdeModules.LanguageLevel

/-!
# Generating and merging descriptors

The generated descriptor of a module comes from its settings and its layout.
Merging it into the persisted one replaces everything that is managed but the
excluded folders, which are those of both sides, the persisted ones first.  The
persisted tree stays.
-/

namespace IdeModules

/-- What a module is generated against: the level of its project, and whether the project
provides one for all its modules. -/
structure ProjectContext where
  level : Option String
  hasBaseline : Bool
  deriving DecidableEq, Repr

/-- The libraries of the entries of a module, by scope. -/
def ModuleSettings.libraries (settings : ModuleSettings) (anchors : PathVariables)
    (scopes : Scopes) : Except Error ScopedLibraries := do
  let configurations ← flatten settings.configurations
  buildLibraries anchors settings.attachments configurations (classify scopes configurations)

/-- The libraries of known scopes, by priority. -/
def inScopeOrder (scopes : Scopes) (libraries : ScopedLibraries) : ScopedLibraries :=
  (scopeOrder scopes).filterMap fun name =>
    (Keyed.get? name libraries).map fun found => (name, found)

namespace Descriptor

def ofLayout (settings : ModuleSettings) (layout : Layout) : Descriptor :=
  { ofName settings.name with
    root := some layout.root
    outputUrl := layout.outputs.output
    testOutputUrl := layout.outputs.testOutput
    inheritsOutput := layout.outputs.inherits
    jdkName := settings.jdkName }

/-- The generated descriptor of a module, and the lines that report what could not be
resolved.  Only a Java module has libraries and a language level. -/
def generate (settings : ModuleSettings) (anchors : PathVariables) (context : ProjectContext)
    (layout : Layout) : Except Error (Descriptor × List String) :=
  let plain := ofLayout settings layout
  if settings.isJava then do
    let scopes ← scopesOf settings.scopes
    let libraries ← settings.libraries anchors scopes
    let placed := inScopeOrder scopes (addLibraries libraries layout.generatedLibraries)
    let level := LanguageLevel.ofModule settings.sourceCompatibility context.level
      context.hasBaseline
    pure ({ plain with scopes := placed, languageLevel := level },
      diagnostics placed settings.configurations)
  else .ok (plain, [])

/-- The excluded folders of a persisted and a generated side. -/
def mergedExcludes (persisted generated : List String) : List String :=
  persisted ++ generated.filter fun url => url ∉ persisted

def merge (persisted generated : Descriptor) : Descriptor :=
  let kept := (persisted.root.map ContentRoot.excludedFolders).getD []
  let root := generated.root.getD ⟨"file://$MODULE_DIR$", [], []⟩
  { generated with
    root := some { root with excludedFolders := mergedExcludes kept root.excludedFolders }
    tree := persisted.tree }

end Descriptor

end IdeModules
