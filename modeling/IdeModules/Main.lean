import IdeModules.CommandLine

/-!
# The command

The command copies what a run looks at from the disk into a file tree, runs on
that tree, and then brings to the disk what the run has added or changed.
-/

namespace IdeModules

def bytesAt? (path : String) : IO (Option ByteArray) :=
  tryCatch (some <$> IO.FS.readBinFile path) fun _ => pure none

def isDirectoryAt (path : String) : IO Bool :=
  tryCatch (do (← IO.FS.realPath path).isDir) fun _ => pure false

/-- A file tree with what the disk holds at a path. -/
def observe (files : FileTree) (path : Path) : IO FileTree := do
  if ← isDirectoryAt path.text then pure (files.withDirectory path)
  else
    match ← bytesAt? path.text with
    | some content => pure (files.withFile path content)
    | none => pure files

/-- Brings a file or directory to the disk.  A file takes its place at once. -/
def keep (path : String) : FileEntry → IO Unit
  | .directory => IO.FS.createDirAll path
  | .file content => do
    let draft := path ++ ".tmp"
    IO.FS.writeBinFile draft content
    IO.FS.rename draft path

/-- Runs the command on the disk, and gives its exit code. -/
def runOnDisk (texts : List String) : IO UInt32 := do
  let start := FileTree.empty (Path.ofText (toString (← IO.currentDir)))
  let described ← (CommandLine.buildPath? texts).toList.foldlM observe start
  let files ← (CommandLine.inspected described texts).foldlM observe described
  let (result, world) := (CommandLine.run texts).run (World.ofFiles files)
  (FileTree.newIn files world.files).forM fun entry => keep entry.1 entry.2
  IO.print world.printed
  IO.eprint world.reported
  match result with
  | .ok code => pure code.toUInt32
  | .error failure => do
    IO.eprintln (failure.message?.getD "the input cannot be used")
    pure 1

end IdeModules

def main (texts : List String) : IO UInt32 :=
  IdeModules.runOnDisk texts
