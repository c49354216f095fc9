import IdeModules.Build.Reading
import IdeModules.Proofs.Failing

/-!
# Data of builds

A module that is read from data has each of its paths from a member of the data, and it is read in
one pass.  What its members are read to is told here once, and every other property of a module that
has been read follows from that.
-/

namespace IdeModules.Build

open Json (Value)

/-- What the fields of a module are read from: the data of the module, and in them the part about
its descriptor.  Relative paths start at the directory of the module. -/
structure IsReadFrom (isDirectory : Path → Bool) (root : Path) (value idea : Value)
    (settings : ModuleSettings) : Prop where
  directory : projectDirectoryOf isDirectory root value = .ok settings.projectDirectory
  buildDirectory : memberPath settings.projectDirectory "buildDir" value =
    .ok settings.buildDirectory
  metadataDirectory : memberPath settings.projectDirectory "metadataDir" value =
    .ok settings.metadataDirectory
  sourceSets : ∃ members, memberMembers "sourceSets" value = .ok members ∧
    (members.mapM fun member => sourceSetOf settings.projectDirectory member.1 member.2) =
      .ok settings.sourceSets
  configurations : ∃ members, memberMembers "configurations" value = .ok members ∧
    (members.mapM fun member => do
      pure (member.1, ← configurationOf settings.projectDirectory member.1 member.2)) =
        .ok settings.configurations
  contentRoot : memberPath settings.projectDirectory "contentRoot" idea = .ok settings.contentRoot
  sourceDirectories : memberPaths settings.projectDirectory "sourceDirs" idea =
    .ok settings.sourceDirectories
  testSourceDirectories : memberPaths settings.projectDirectory "testSourceDirs" idea =
    .ok settings.testSourceDirectories
  excludedDirectories : memberPaths settings.projectDirectory "excludeDirs" idea =
    .ok settings.excludedDirectories
  outputDirectory : memberPath settings.projectDirectory "outputDir" idea =
    .ok settings.outputDirectory
  testOutputDirectory : memberPath settings.projectDirectory "testOutputDir" idea =
    .ok settings.testOutputDirectory
  generateTo : memberPath settings.projectDirectory "generateTo" idea = .ok settings.generateTo
  pathVariables : ∃ members pairs, memberMembers "pathVariables" idea = .ok members ∧
    (members.mapM fun member => do
      pure (member.1, ← pathIn settings.projectDirectory member.2)) = .ok pairs ∧
      settings.pathVariables = .ofPairs pairs

theorem exists_isReadFrom {isDirectory : Path → Bool} {root : Path} {value : Value}
    {settings : ModuleSettings} (read : moduleOf isDirectory root value = .ok settings) :
    ∃ idea, IsReadFrom isDirectory root value idea settings := by
  obtain ⟨base, directory, read⟩ := except_bind_ok read
  obtain ⟨stated, _, read⟩ := except_bind_ok read
  obtain ⟨name, _, read⟩ := except_bind_ok read
  obtain ⟨customized, _, read⟩ := except_bind_ok read
  obtain ⟨scopes, _, read⟩ := except_bind_ok read
  obtain ⟨javaPlugin, _, read⟩ := except_bind_ok read
  obtain ⟨buildDirectory, isBuild, read⟩ := except_bind_ok read
  obtain ⟨metadataDirectory, isMetadata, read⟩ := except_bind_ok read
  obtain ⟨compatibility, _, read⟩ := except_bind_ok read
  obtain ⟨setMembers, areSetMembers, read⟩ := except_bind_ok read
  obtain ⟨sourceSets, areSets, read⟩ := except_bind_ok read
  obtain ⟨members, areMembers, read⟩ := except_bind_ok read
  obtain ⟨configurations, areConfigurations, read⟩ := except_bind_ok read
  obtain ⟨contentRoot, isRoot, read⟩ := except_bind_ok read
  obtain ⟨sources, areSources, read⟩ := except_bind_ok read
  obtain ⟨tests, areTests, read⟩ := except_bind_ok read
  obtain ⟨excluded, areExcluded, read⟩ := except_bind_ok read
  obtain ⟨output, isOutput, read⟩ := except_bind_ok read
  obtain ⟨testOutput, isTestOutput, read⟩ := except_bind_ok read
  obtain ⟨generateTo, isTarget, read⟩ := except_bind_ok read
  obtain ⟨named, areNamed, read⟩ := except_bind_ok read
  obtain ⟨pairs, arePairs, read⟩ := except_bind_ok read
  obtain ⟨inherits, _, read⟩ := except_bind_ok read
  obtain ⟨jdkName, _, read⟩ := except_bind_ok read
  obtain ⟨sourcesWanted, _, read⟩ := except_bind_ok read
  obtain ⟨javadocWanted, _, read⟩ := except_bind_ok read
  obtain rfl := Except.ok.inj read
  exact ⟨_, {
    directory := directory
    buildDirectory := isBuild
    metadataDirectory := isMetadata
    sourceSets := ⟨setMembers, areSetMembers, areSets⟩
    configurations := ⟨members, areMembers, areConfigurations⟩
    contentRoot := isRoot
    sourceDirectories := areSources
    testSourceDirectories := areTests
    excludedDirectories := areExcluded
    outputDirectory := isOutput
    testOutputDirectory := isTestOutput
    generateTo := isTarget
    pathVariables := ⟨named, pairs, areNamed, arePairs, rfl⟩ }⟩

theorem eq_ok_of_mapError {α : Type} {step : Except Error α} {change : Error → Error} {value : α}
    (done : step.mapError change = .ok value) : step = .ok value := by
  cases step with
  | error failure => exact nomatch done
  | ok found => exact done

/-- What the fields of a build are read from. -/
structure IsBuildFrom (isDirectory : Path → Bool) (root : Path) (data : Value) (build : Build) :
    Prop where
  rootDirectory : build.rootDirectory = root
  modules : ∃ values, listedModules data = some values ∧
    values.mapM (moduleOf isDirectory root) = .ok build.modules
  pathVariables : ∃ members pairs, memberMembers "pathVariables" data = .ok members ∧
    (members.mapM fun member => do pure (member.1, ← pathIn root member.2)) = .ok pairs ∧
      build.pathVariables = .ofPairs pairs

theorem isBuildFrom_of_ofData {isDirectory : Path → Bool} {start directory source : Path}
    {data : Value} {build : Build}
    (read : ofData isDirectory start directory source data = .ok build) :
    IsBuildFrom isDirectory (Path.normalize start directory) data build := by
  unfold ofData at read
  split at read
  · exact nomatch read
  · rename_i values areValues
    obtain ⟨project, _, read⟩ := except_bind_ok read
    obtain ⟨modules, areModules, read⟩ := except_bind_ok read
    obtain ⟨members, areMembers, read⟩ := except_bind_ok read
    obtain ⟨pairs, arePairs, read⟩ := except_bind_ok read
    obtain rfl := Except.ok.inj read
    exact {
      rootDirectory := rfl
      modules := ⟨values, areValues, eq_ok_of_mapError areModules⟩
      pathVariables := ⟨members, pairs, areMembers, arePairs, rfl⟩ }

end IdeModules.Build
