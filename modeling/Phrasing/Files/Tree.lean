import Phrasing.Files
import Phrasing.Files.Path

/-!
# `Phrasing.Files.Tree` — files in memory

A tree of files and directories, which paths lead through one part at a time, beginning at its root.
Nothing is known of what lies outside.

## Contents
- **`Tree`**, **`Tree.ofList`**, **`Tree.at?`**.
- **`Tree.walk`**: where the parts of a path lead.
- **`Tree.files`**: what stands at a path.
-/

namespace Phrasing

/-- Files and directories, each with the names that lead to it. Directories on the way are there
    without an entry of their own. -/
structure Tree where
  entries : List (List Text × Entry)

namespace Tree

/-- The names that a path amounts to. -/
def namesOf (path : Text) : List Text :=
  (Path.parts path).foldl
    (fun names part =>
      if Path.isIdle part then names
      else if Path.isUpward part then names.dropLast
      else names ++ [part])
    []

/-- The tree of files and directories at paths; of two at the same place, the later one. -/
def ofList (entries : List (Text × Entry)) : Tree :=
  ⟨(entries.map fun entry => (namesOf entry.1, entry.2)).reverse⟩

/-- What names lead to. -/
def at? (tree : Tree) (names : List Text) : Option Entry :=
  match tree.entries.lookup names with
  | some entry => some entry
  | none =>
      if names.isEmpty || tree.entries.any (fun entry => names.isPrefixOf entry.1) then
        some .directory
      else none

/-- How many bytes a name may have. -/
def nameLimit : Nat := 255

/-- How many bytes a path has to stay below. -/
def pathLimit : Nat := 4096

/-- Where the parts of a path lead from where names have led. Every part has to begin at a
    directory. -/
def walk (tree : Tree) (names : List Text) : List Text → Except FileFault Entry
  | [] =>
      match tree.at? names with
      | some entry => .ok entry
      | none => .error .notFound
  | part :: rest =>
      match tree.at? names with
      | none => .error .notFound
      | some (.file _) => .error .notADirectory
      | some .directory =>
          if Path.isIdle part then tree.walk names rest
          else if Path.isUpward part then
            -- Above the root nothing is known.
            if names.isEmpty then .error .notFound else tree.walk names.dropLast rest
          else if nameLimit < Text.byteSize part then .error .nameTooLong
          else tree.walk (names ++ [part]) rest

/-- The files of a tree, as they are seen from its root. -/
def files (tree : Tree) : Files := fun path =>
  -- These faults show before any part of the path is looked at.
  if path.contains '\x00' then .error .nullInName
  else if pathLimit ≤ Text.byteSize path then .error .nameTooLong
  else if path.isEmpty || path.head? == some '/' then .error .notFound
  else tree.walk [] (Path.parts path)

end Tree

end Phrasing
