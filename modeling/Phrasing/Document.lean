import Phrasing.Text

/-!
# `Phrasing.Document` — what a document says

Documents come in two formats and are read into one kind of tree. The tree keeps what matters for
the texts, lists and tables that are taken out of it, and nothing else.

## Contents
- **`Datum`**: a node of the tree.
- **`Document`**: a tree with the nodes that its references lead to.
-/

namespace Phrasing

/-- A node of a document. -/
inductive Datum
  /-- A text. -/
  | text (value : Text)
  /-- A place where nothing is written: an empty text, list or map, as the case may be. -/
  | blank
  /-- A value that is no text, or whose text is ill-formed. -/
  | other
  | list (items : List Datum)
  | map (entries : List (Datum × Datum))
  /-- A reference to a node that is written elsewhere. -/
  | reference (id : Nat)
deriving Repr

/-- A document as it was read. -/
structure Document where
  root : Datum
  /-- The nodes that can be referred to. -/
  anchors : List (Nat × Datum) := []
  /-- How many references may be followed. -/
  jumps : Nat := 0
  /-- Whether a record may be written as the list of its fields. -/
  positional : Bool
deriving Repr

end Phrasing
