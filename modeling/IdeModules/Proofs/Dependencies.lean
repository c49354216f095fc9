import IdeModules.Build.Reading
import IdeModules.Proofs.Failing

/-!
# What a dependency is read to

The data of a dependency name a project, say why the dependency is unresolved, or list
the files that it is resolved to.  `ReadsDependency` says what each of them makes of a
configuration, and reading gives nothing else.
-/

namespace IdeModules.Build

open Json (Value)

/-- What a dependency is declared by: its notation with the parts of that, or else its files. -/
inductive Declares (dependency : Value) : Value → DeclaredParts → Prop where
  | stated {found : Option Value} {parts : DeclaredParts} :
      memberOf "notation" dependency = .ok found → (found.getD .null).isEmpty = false →
      partsOf (found.getD .null) = .ok parts →
      Declares dependency (found.getD .null) parts
  | files (names : List String) :
      Declares dependency (.str ("files(" ++ joined ", " names ++ ")")) ⟨none, none, none, none⟩

/-- What a file of a dependency is read to. -/
structure ReadsFile (base : Path) (dependency file : Value) (artifact : Artifact) : Prop where
  file : pathIn base file = .ok artifact.file
  sources : memberPath base "sources" dependency = .ok artifact.sources
  javadoc : memberPath base "javadoc" dependency = .ok artifact.javadoc

/-- What the data of a dependency make of a configuration. -/
inductive ReadsDependency (base : Path) (before : Configuration) (dependency : Value) :
    Configuration → Prop where
  | reference {path : Value} :
      heldMember "project" dependency = .ok path →
      ReadsDependency base before dependency { before with
        declared := before.declared ++ [path]
        references := before.references ++ [.project path] }
  | unresolved {declaration reason : Value} {parts : DeclaredParts} :
      holdsName "project" dependency = .ok false →
      memberOf "unresolved" dependency = .ok (some reason) →
      Declares dependency declaration parts →
      ReadsDependency base before dependency { before with
        declared := before.declared ++ [declaration]
        unresolved := before.unresolved ++
          [.make (parts.group.getD "") (parts.name.getD "") parts.version
            (if reason.isEmpty then .str "" else reason) declaration] }
  | artifacts {declaration : Value} {files : List Value} {artifacts : List Artifact} :
      holdsName "project" dependency = .ok false →
      memberOf "unresolved" dependency = .ok none →
      filledItems "files" dependency = .ok files →
      List.Forall₂ (ReadsFile base dependency) files artifacts →
      ReadsDependency base before dependency { before with
        declared := before.declared ++ [declaration]
        artifacts := before.artifacts ++ artifacts }

theorem filledItems_of_memberOf {name : String} {value : Value} {found : Option Value}
    (isMember : memberOf name value = .ok found) :
    filledItems name value =
      if (found.getD .null).isEmpty then .ok [] else itemsOf (found.getD .null) := by
  rw [filledItems, isMember]
  rfl

section Reading

variable {base : Path} {configuration : Configuration} {dependency : Value}

theorem readsOnly_artifacts (noProject : holdsName "project" dependency = .ok false)
    (isResolved : memberOf "unresolved" dependency = .ok none) {files : List Value}
    (areFiles : filledItems "files" dependency = .ok files)
    {step : Value → Except Error Artifact}
    (reads : ∀ file, ReadsOnly (ReadsFile base dependency file) (step file))
    {declaration : Value} :
    ReadsOnly (ReadsDependency base configuration dependency) (do
      let artifacts ← files.mapM step
      pure { configuration with
        declared := configuration.declared ++ [declaration]
        artifacts := configuration.artifacts ++ artifacts }) := by
  refine .bind fun artifacts areArtifacts => .pure ?_
  exact .artifacts noProject isResolved areFiles
    ((forall₂_of_mapM areArtifacts).imp fun file artifact => reads file artifact)

end Reading

/-- Reading a dependency does what the data of the dependency say. -/
theorem readsDependency (base : Path) (configuration : Configuration) (dependency : Value) :
    ReadsOnly (ReadsDependency base configuration dependency)
      (addDependency base configuration dependency) := by
  unfold addDependency
  apply ReadsOnly.bind
  intro isReference holds
  split
  · exact .bind fun path isPath => .pure (.reference isPath)
  · rename_i notReference
    have noProject : holdsName "project" dependency = .ok false := by
      simpa [notReference] using holds
    apply ReadsOnly.bind
    intro files areFiles
    apply ReadsOnly.bind
    intro found isFound
    -- The steps behind a choice are shared by its branches, which differ in the declaration.
    extract_lets stated withDeclaration
    have declared (declaration : Value) (names : List String)
        (isDeclared : declaration =
          if stated.isEmpty then .str ("files(" ++ joined ", " names ++ ")") else stated) :
        ReadsOnly (ReadsDependency base configuration dependency)
          (withDeclaration declaration) := by
      unfold withDeclaration
      extract_lets notations withParts
      have parted (parts : DeclaredParts) (declares : Declares dependency declaration parts) :
          ReadsOnly (ReadsDependency base configuration dependency) (withParts parts) := by
        apply ReadsOnly.bind
        intro reason isReason
        split
        · exact .pure (.unresolved noProject isReason declares)
        · extract_lets withFiles
          have resolved (items : List Value)
              (areItems : filledItems "files" dependency = .ok items) :
              ReadsOnly (ReadsDependency base configuration dependency) (withFiles items) := by
            apply readsOnly_artifacts noProject isReason areItems
            intro file
            apply ReadsOnly.bind
            intro path isPath
            apply ReadsOnly.bind
            intro _ _
            apply ReadsOnly.bind
            intro sources areSources
            exact .bind fun javadoc isJavadoc => .pure ⟨isPath, areSources, isJavadoc⟩
          rw [filledItems_of_memberOf areFiles] at resolved
          split
          · rename_i isEmpty
            exact .bind fun items areItems => resolved items ((if_pos isEmpty).trans areItems)
          · rename_i notEmpty
            exact .bind fun items areItems => resolved items ((if_neg notEmpty).trans areItems)
      split
      · rename_i isEmpty
        rw [isDeclared, if_pos isEmpty] at parted
        apply ReadsOnly.bind
        intro parts areParts
        apply parted parts
        exact Except.ok.inj areParts ▸ .files names
      · rename_i notEmpty
        rw [isDeclared, if_neg notEmpty] at parted
        exact .bind fun parts areParts =>
          parted parts (.stated isFound (by simpa using notEmpty) areParts)
    split
    · rename_i isEmpty
      apply ReadsOnly.bind
      intro listed _
      apply ReadsOnly.bind
      intro text isText
      apply ReadsOnly.bind
      intro declaration isText'
      obtain ⟨names, _, isText⟩ := except_bind_ok isText
      obtain rfl := Except.ok.inj isText
      obtain rfl := Except.ok.inj isText'
      exact declared _ names (if_pos isEmpty).symm
    · rename_i notEmpty
      apply ReadsOnly.bind
      intro declaration isStated
      obtain rfl := Except.ok.inj isStated
      exact declared _ [] (if_neg notEmpty).symm

end IdeModules.Build
