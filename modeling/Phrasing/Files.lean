import Phrasing.Failure

/-!
# `Phrasing.Files` — files as they are seen

A request may name files to read. All that it sees of them is what stands at a path: the bytes of a
file, a directory, or a fault.

## Contents
- **`Entry`**, **`Files`**: what stands at the paths.
- **`Files.has`**, **`Files.read`**: whether there is anything at a path, and the text of a file.
-/

namespace Phrasing

/-- What stands at a path. -/
inductive Entry
  | file (bytes : ByteArray)
  | directory

/-- The files: what stands at each path, or why nothing can be seen there. -/
abbrev Files : Type := Text → Except FileFault Entry

namespace Files

/-- Whether anything stands at a path. -/
def has (files : Files) (path : Text) : Bool := (files path).isOk

/-- The text of a file. Its bytes have to be UTF-8. -/
def read (files : Files) (path : Text) : Except FileFault Text :=
  match files path with
  | .error fault => .error fault
  | .ok .directory => .error .isADirectory
  | .ok (.file bytes) =>
      match String.fromUTF8? bytes with
      | some text => .ok text.toList
      | none => .error .notText

end Files

end Phrasing
