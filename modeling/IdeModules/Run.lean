import IdeModules.Disk
import IdeModules.Hooks

/-!
# Runs

A run works on a file tree and reports as it goes.  What it has written and
reported stays, also when an error stops it.
-/

namespace IdeModules

/-- What a run works on, and what can be seen of it so far. -/
structure World where
  files : FileTree
  /-- What has been printed. -/
  printed : String
  /-- What has been reported beside the output. -/
  reported : String
  /-- The tasks that have been run, the last one at the end. -/
  tasks : List Json.Value
  /-- The callbacks that have been started, each with the module that it belongs to. -/
  calls : List (String × HookCall)

def World.ofFiles (files : FileTree) : World := ⟨files, "", "", [], []⟩

/-- A step of a run: it changes the world, and ends with a value or an error. -/
abbrev Run := ExceptT Error (StateM World)

namespace Run

/-- Ends with a result that needs no world. -/
def ofResult (result : Except Error α) : Run α :=
  ExceptT.mk (pure result)

/-- Takes a step to its end, whether it ends with a value or an error. -/
def attempt (step : Run α) : Run (Except Error α) :=
  ExceptT.mk (Except.ok <$> step.run)

def printLine (line : String) : Run Unit :=
  modify fun world => { world with printed := world.printed ++ line ++ "\n" }

def reportLine (line : String) : Run Unit :=
  modify fun world => { world with reported := world.reported ++ line ++ "\n" }

def runTask (task : Json.Value) : Run Unit :=
  modify fun world => { world with tasks := world.tasks ++ [task] }

def noteCalls (owner : String) (calls : List HookCall) : Run Unit :=
  modify fun world => { world with calls := world.calls ++ calls.map (owner, ·) }

def callBack (owner : String) (phase : HookPhase) (callbacks : List (Callback α)) (value : α) :
    Run α := do
  let (started, result) := runCallbacks callbacks value
  noteCalls owner (callsOf phase started)
  ofResult result

/-- Replaces the file at a path, as far as the disk allows it. -/
def replaceFileOn (disk : Disk) (path : Path) (content : String) : Run Unit := do
  let (files, result) := (← get).files.replaceThrough disk path content
  modify fun world => { world with files := files }
  ofResult result

/-- Takes a step for each item, whether the ones before have ended with a value or an error.  The
first error in the order of the items counts. -/
def sideBySide (step : α → Run β) : List α → Run (List β)
  | [] => pure []
  | item :: rest => do
    let first ← attempt (step item)
    let others ← attempt (sideBySide step rest)
    let value ← ofResult first
    let values ← ofResult others
    pure (value :: values)

end Run

end IdeModules
