import IdeModules.Build
import IdeModules.Json.Reader

/-!
# Reading build data

Build data are a JSON object with modules.  Paths are read from inside the
directory that they belong to and made normal: those of a module from its own
directory, the others from the root.  A value that is merely passed on keeps
its kind; where a member, an item or a path is needed, a value of another kind
stops the reading with the cause that comes first in the order of the fields.
-/

namespace IdeModules.Build

open Json (Value)

def membersOf : Value → Except Error (List (String × Value))
  | .obj members => .ok members
  | _ => .error .noSuchMember

/-- The member of an object under a name, if it has one. -/
def memberOf (name : String) (value : Value) : Except Error (Option Value) :=
  (membersOf value).map (Value.lookup name)

/-- The items of a value: those of an array, the characters of a text, the names of an
object's members. -/
def itemsOf : Value → Except Error (List Value)
  | .arr items => .ok items
  | .str text => .ok (text.toList.map fun c => .str (String.singleton c))
  | .obj members => .ok (members.map fun member => .str member.1)
  | _ => .error .wrongKind

/-- The items of a member, or none if there is no such member. -/
def memberItems (name : String) (value : Value) : Except Error (List Value) := do
  match ← memberOf name value with
  | none => pure []
  | some items => itemsOf items

def memberMembers (name : String) (value : Value) :
    Except Error (List (String × Value)) := do
  match ← memberOf name value with
  | none => pure []
  | some members => membersOf members

/-- The path of a text, read from inside a directory; null is no path. -/
def pathIn (base : Path) : Value → Except Error (Option Path)
  | .null => .ok none
  | .str text => .ok (some (Path.normalize base (Path.ofText text)))
  | _ => .error .wrongKind

def memberPath (base : Path) (name : String) (value : Value) : Except Error (Option Path) := do
  pathIn base ((← memberOf name value).getD .null)

/-- The paths in a member; an empty value holds none. -/
def memberPaths (base : Path) (name : String) (value : Value) :
    Except Error (List (Option Path)) := do
  let found := (← memberOf name value).getD .null
  if found.isEmpty then pure [] else (← itemsOf found).mapM (pathIn base)

def textOf : Value → Except Error String
  | .str text => .ok text
  | _ => .error .wrongKind

/-- The parts of a declaration, which must be a text. -/
def partsOf : Value → Except Error DeclaredParts
  | .str text => .ok (DeclaredParts.ofText text)
  | _ => .error .noSuchMember

def optionalText (text : Option String) : Value :=
  match text with
  | none => .null
  | some found => .str found

/-- Whether a value holds a name: among its members, its items, or in its text. -/
def holdsName (name : String) : Value → Except Error Bool
  | .obj members => .ok (members.any fun member => member.1 = name)
  | .arr items => .ok (items.any fun item => item.same (.str name))
  | .str text => .ok (isInfix name.toList text.toList)
  | _ => .error .wrongKind
where
  /-- Whether a list of characters occurs in another. -/
  isInfix (part : List Char) : List Char → Bool
    | [] => part.isEmpty
    | c :: rest => part.isPrefixOf (c :: rest) || isInfix part rest

/-- The value of a member that the value is known to hold. -/
def heldMember (name : String) : Value → Except Error Value
  | .obj members =>
    match Value.lookup name members with
    | some value => .ok value
    | none => .error (.missingMember name)
  | _ => .error .wrongKind

/-- The declaration of a dependency on files without another declaration. -/
def filesDeclaration (files : List Value) : Except Error String := do
  pure ("files(" ++ joined ", " (← files.mapM textOf) ++ ")")

/-- The items of a member that may be left empty. -/
def filledItems (name : String) (value : Value) : Except Error (List Value) := do
  let found := (← memberOf name value).getD .null
  if found.isEmpty then pure [] else itemsOf found

/-- Adds a declared dependency, and what it was resolved to, to a configuration. -/
def addDependency (base : Path) (configuration : Configuration) (dependency : Value) :
    Except Error Configuration := do
  if ← holdsName "project" dependency then
    let path ← heldMember "project" dependency
    return { configuration with
      declared := configuration.declared ++ [path]
      references := configuration.references ++ [.project path] }
  let files := (← memberOf "files" dependency).getD .null
  let stated := (← memberOf "notation" dependency).getD .null
  let declaration ←
    if stated.isEmpty then
      pure (Value.str (← filesDeclaration (← filledItems "files" dependency)))
    else pure stated
  let parts ← if stated.isEmpty then pure ⟨none, none, none, none⟩ else partsOf stated
  let declared := configuration.declared ++ [declaration]
  match ← memberOf "unresolved" dependency with
  | some reason =>
    return { configuration with
      declared := declared
      unresolved := configuration.unresolved ++
        [.make (parts.group.getD "") (parts.name.getD "") parts.version
          (if reason.isEmpty then .str "" else reason) declaration] }
  | none =>
    let found ← if files.isEmpty then pure [] else itemsOf files
    let artifacts ← found.mapM fun file => do
      let path ← pathIn base file
      let classifier := (← memberOf "classifier" dependency).getD (optionalText parts.classifier)
      let sources ← memberPath base "sources" dependency
      let javadoc ← memberPath base "javadoc" dependency
      pure (⟨path, parts.group, parts.name, parts.version, classifier, sources, javadoc,
        declaration⟩ : Artifact)
    return { configuration with
      declared := declared
      artifacts := configuration.artifacts ++ artifacts }

/-- Adds a resolved file that no dependency of the configuration lists. -/
def addArtifact (base : Path) (configuration : Configuration) (artifact : Value) :
    Except Error Configuration := do
  let parts ← partsOf ((← memberOf "notation" artifact).getD (.str ""))
  let path ← pathIn base (← heldMember "file" artifact)
  let classifier := (← memberOf "classifier" artifact).getD (optionalText parts.classifier)
  let sources ← memberPath base "sources" artifact
  let javadoc ← memberPath base "javadoc" artifact
  let declaredBy := (← memberOf "declaredBy" artifact).getD .null
  pure { configuration with
    artifacts := configuration.artifacts ++
      [⟨path, parts.group, parts.name, parts.version, classifier, sources, javadoc,
        declaredBy⟩] }

def configurationOf (base : Path) (name : String) (value : Value) :
    Except Error Configuration := do
  let extendsFrom ← memberItems "extendsFrom" value
  let declared ← (← memberItems "dependencies" value).foldlM (addDependency base)
    { Configuration.empty name with extendsFrom := extendsFrom }
  (← memberItems "artifacts" value).foldlM (addArtifact base) declared

/-- An output directory of a source set, and the task that generates it. -/
def outputDirectoryOf (base : Path) (value : Value) : Except Error (Option Path × Value) := do
  match value with
  | .str _ => pure (← pathIn base value, .null)
  | _ =>
    let directory ← pathIn base (← heldMember "dir" value)
    pure (directory, (← memberOf "builtBy" value).getD .null)

def sourceSetOf (base : Path) (name : String) (value : Value) : Except Error SourceSet := do
  let outputs ← (← memberItems "outputDirs" value).mapM (outputDirectoryOf base)
  pure ⟨name, ← memberPaths base "srcDirs" value, outputs⟩

def customizationOf (value : Value) : Except Error ScopeCustomization := do
  pure ⟨← memberItems "plus" value, ← memberItems "minus" value⟩

/-- The name of a module: what it customizes, its own, or that of its directory. -/
def nameOf (idea value : Value) (directory : Path) : Except Error Value := do
  let custom := (← memberOf "name" idea).getD .null
  let own := (← memberOf "name" value).getD .null
  pure (if !custom.isEmpty then custom else if !own.isEmpty then own else .str directory.name)

/-- The text of a member that is there and not null. -/
def shownMember (name : String) (value : Value) : Except Error (Option String) := do
  match ← memberOf name value with
  | none => pure none
  | some .null => pure none
  | some found => pure (some found.display)

/-- The directory of a module, which must exist. -/
def projectDirectoryOf (isDirectory : Path → Bool) (root : Path) (value : Value) :
    Except Error Path := do
  match ← pathIn root ((← memberOf "projectDir" value).getD (.str ".")) with
  | none => throw .noSuchMember
  | some directory =>
    if isDirectory directory then pure directory
    else throw (.missingInput "project directory" directory)

def moduleOf (isDirectory : Path → Bool) (root : Path) (value : Value) :
    Except Error ModuleSettings := do
  let base ← projectDirectoryOf isDirectory root value
  let idea := (← memberOf "idea" value).getD (.obj [])
  let name ← nameOf idea value base
  let scopes ← (← memberMembers "scopes" idea).mapM fun member => do
    pure (member.1, ← customizationOf member.2)
  let javaPlugin := (← memberOf "javaPlugin" value).getD (.bool true)
  let buildDirectory ← memberPath base "buildDir" value
  let metadataDirectory ← memberPath base "metadataDir" value
  let sourceCompatibility ← shownMember "sourceCompatibility" value
  let sourceSets ← (← memberMembers "sourceSets" value).mapM fun member =>
    sourceSetOf base member.1 member.2
  let configurations ← (← memberMembers "configurations" value).mapM fun member => do
    pure (member.1, ← configurationOf base member.1 member.2)
  let contentRoot ← memberPath base "contentRoot" idea
  let sourceDirectories ← memberPaths base "sourceDirs" idea
  let testSourceDirectories ← memberPaths base "testSourceDirs" idea
  let excludedDirectories ← memberPaths base "excludeDirs" idea
  let outputDirectory ← memberPath base "outputDir" idea
  let testOutputDirectory ← memberPath base "testOutputDir" idea
  let generateTo ← memberPath base "generateTo" idea
  let pathVariables ← (← memberMembers "pathVariables" idea).mapM fun member => do
    pure (member.1, ← pathIn base member.2)
  pure {
    name := name
    projectDirectory := base
    javaPlugin := javaPlugin
    buildDirectory := buildDirectory
    metadataDirectory := metadataDirectory
    sourceCompatibility := sourceCompatibility
    sourceSets := sourceSets
    configurations := configurations
    contentRoot := contentRoot
    sourceDirectories := sourceDirectories
    testSourceDirectories := testSourceDirectories
    excludedDirectories := excludedDirectories
    inheritOutput := (← memberOf "inheritOutputDirs" idea).getD .null
    outputDirectory := outputDirectory
    testOutputDirectory := testOutputDirectory
    jdkName := (← memberOf "jdkName" idea).getD .null
    scopes := scopes
    downloadSources := (← memberOf "downloadSources" idea).getD (.bool true)
    downloadJavadoc := (← memberOf "downloadJavadoc" idea).getD (.bool false)
    generateTo := generateTo
    pathVariables := .ofPairs pathVariables }

def listedModules : Value → Option (List Value)
  | .obj members =>
    match Value.lookup "modules" members with
    | none => some []
    | some (.arr modules) => some modules
    | some _ => none
  | _ => none

def projectOf (value : Value) : Except Error (Option ProjectSettings) := do
  match ← memberOf "project" value with
  | none => pure none
  | some .null => pure none
  | some project => pure (some ⟨← shownMember "languageLevel" project⟩)

/-- A cause that arose in a project entry. -/
def inProject (source : Path) : Error → Error
  | .noSuchMember => .invalidBuild source .projectWithoutMembers
  | other => other

/-- A cause that arose in a module entry. -/
def inModule (source : Path) : Error → Error
  | .noSuchMember => .invalidBuild source .moduleWithoutMembers
  | .wrongKind => .invalidBuild source .moduleKind
  | .missingMember name => .invalidBuild source (.moduleMember name)
  | other => other

/-- The build that data describe.  Relative paths of the root start at the given directory,
and the source stands for the data in messages. -/
def ofData (isDirectory : Path → Bool) (start directory source : Path) (data : Value) :
    Except Error Build :=
  match listedModules data with
  | none => .error (.invalidBuild source .notModules)
  | some listed => do
    let root := Path.normalize start directory
    let project ← (projectOf data).mapError (inProject source)
    let modules ← (listed.mapM (moduleOf isDirectory root)).mapError (inModule source)
    let pathVariables ← (← memberMembers "pathVariables" data).mapM fun member => do
      pure (member.1, ← pathIn root member.2)
    pure ⟨root, modules, project, .ofPairs pathVariables⟩

end IdeModules.Build
