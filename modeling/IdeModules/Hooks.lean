import IdeModules.Descriptor.Writing

/-!
# Hooks

A hook is a callback that may change a descriptor or a tree, or stop the run
with an error of its own.  Callbacks run once each, in the order in which they
were registered, and the first one that fails is the last one that runs.  An
edit is a change that a callback may be made of.
-/

namespace IdeModules

/-- A change of a value that may fail. -/
abbrev Callback (α : Type) := α → Except Error α

/-- When callbacks run: before the merge, after it, or on the tree that is written. -/
inductive HookPhase where
  | before
  | when
  | raw
  deriving DecidableEq, Repr

/-- The callbacks of a module, by phase. -/
structure Hooks where
  before : List (Callback Descriptor)
  when : List (Callback Descriptor)
  raw : List (Callback Xml.Element)

def Hooks.none : Hooks := ⟨[], [], []⟩

/-- The call of a callback: its phase, and its place among the callbacks of the phase. -/
structure HookCall where
  phase : HookPhase
  index : Nat
  deriving DecidableEq, Repr

/-- Runs callbacks in order; tells how many were started. -/
def runCallbacks : List (Callback α) → α → Nat × Except Error α
  | [], value => (0, .ok value)
  | callback :: rest, value =>
    match callback value with
    | .error failure => (1, .error failure)
    | .ok changed =>
      let (started, result) := runCallbacks rest changed
      (started + 1, result)

/-- The calls of the first callbacks of a phase. -/
def callsOf (phase : HookPhase) (started : Nat) : List HookCall :=
  (List.range started).map fun index => ⟨phase, index⟩

/-- A change of a descriptor. -/
inductive Edit where
  | name (value : Json.Value)
  | outputUrl (url : Option String)
  | testOutputUrl (url : Option String)
  | inheritsOutput (value : Bool)
  | jdkName (value : Json.Value)
  | languageLevel (level : Option String)
  | root (root : Option ContentRoot)
  | clearExcludes
  | addExclude (url : String)
  | addSource (folder : SourceFolder)
  | scopes (scopes : ScopedLibraries)
  | addLibraries (libraries : List Library)
  | fail (text : String)
  deriving Repr

def Edit.apply (descriptor : Descriptor) : Edit → Except Error Descriptor
  | .name value => .ok { descriptor with name := value }
  | .outputUrl url => .ok { descriptor with outputUrl := url }
  | .testOutputUrl url => .ok { descriptor with testOutputUrl := url }
  | .inheritsOutput value => .ok { descriptor with inheritsOutput := value }
  | .jdkName value => .ok { descriptor with jdkName := value }
  | .languageLevel level => .ok { descriptor with languageLevel := level }
  | .root given => .ok { descriptor with root := given }
  | .clearExcludes =>
    .ok { descriptor with root := some { descriptor.rootOrDefault with excludedFolders := [] } }
  | .addExclude url =>
    let held := descriptor.rootOrDefault
    .ok { descriptor with
      root := some { held with excludedFolders := held.excludedFolders ++ [url] } }
  | .addSource folder =>
    match descriptor.root with
    | none => .error .noSuchMember
    | some held =>
      .ok { descriptor with
        root := some { held with sourceFolders := held.sourceFolders ++ [folder] } }
  | .scopes given => .ok { descriptor with scopes := given }
  | .addLibraries libraries =>
    .ok { descriptor with scopes := IdeModules.addLibraries descriptor.scopes libraries }
  | .fail text => .error (.hook text)

/-- The callback that makes changes of a descriptor in order. -/
def Callback.ofEdits (edits : List Edit) : Callback Descriptor :=
  fun descriptor => edits.foldlM Edit.apply descriptor

end IdeModules
