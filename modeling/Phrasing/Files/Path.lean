import Phrasing.Text.Pieces

/-!
# `Phrasing.Files.Path` — the parts of a path

Slashes separate the parts of a path. Empty parts and parts of one dot lead nowhere else; two dots
lead back to the directory above.

## Contents
- **`parts`**, **`isIdle`**, **`isUpward`**.
- **`extension?`**: the extension of the file that a path names.
-/

namespace Phrasing.Path

/-- The parts of a path. -/
def parts (path : Text) : List Text := Text.pieces '/' path

/-- Whether a part leads nowhere else. -/
def isIdle (part : Text) : Bool := part.isEmpty || part == ['.']

/-- Whether a part leads to the directory above. -/
def isUpward (part : Text) : Bool := part == ['.', '.']

/-- The name at the end of a path, if it ends with one. -/
def fileName? (path : Text) : Option Text :=
  match ((parts path).filter (!isIdle ·)).getLast? with
  | some part => if isUpward part then none else some part
  | none => none

/-- The extension of a path: what follows the last dot of its file name. A dot at the start of the
    name does not count. -/
def extension? (path : Text) : Option Text := do
  let name ← fileName? path
  match name.reverse.dropWhile (· != '.') with
  | _ :: _ :: _ => some (name.reverse.takeWhile (· != '.')).reverse
  | _ => none

end Phrasing.Path
