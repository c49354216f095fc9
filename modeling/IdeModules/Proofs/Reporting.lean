import IdeModules.Proofs.Loading
import IdeModules.Proofs.Workspace

/-!
# Reports about files

A text that is no document is reported with the path of its file.  The one other way in
which the reading of a text ends is the lookup of the character set that it declares: its
name may lead to no set, to one of several bytes, or to one that makes no characters.  It
is looked up before anything behind the declaration is read.  A descriptor whose bytes are
no text is reported as well, but a workspace file is not.
-/

namespace IdeModules

open Xml

/-! ## Declared character sets -/

section Charset

end Charset

section Document

variable {keepsComments : Bool} {text : String} {failure : Error}

end Document

section Descriptor

variable {files : FileTree} {path : Path} {content : ByteArray}

theorem Descriptor.load_of_textOf_error {failure : Error}
    (found : files.find? path = some (.file content))
    (isFailure : FileTree.textOf content = .error failure) (name : Json.Value) :
    Descriptor.load files path name = .error (.invalidDescriptor path .notText) := by
  obtain rfl := FileTree.eq_notText_of_textOf isFailure
  rw [Descriptor.load, if_pos (FileTree.contains_of_find? found), Descriptor.readFile,
    FileTree.readText, found]
  simp only [isFailure]

theorem Descriptor.load_of_textOf {text : String} (found : files.find? path = some (.file content))
    (isText : FileTree.textOf content = .ok text) (name : Json.Value) :
    Descriptor.load files path name = Descriptor.ofText path (.str path.stem) text := by
  rw [Descriptor.load, if_pos (FileTree.contains_of_find? found), Descriptor.readFile,
    FileTree.readText, found]
  simp only [isText]

end Descriptor

namespace Build

variable {build : Build} {files : FileTree} {content : ByteArray}

end Build

section File

variable {files : FileTree} {content : ByteArray}

end File

end IdeModules
