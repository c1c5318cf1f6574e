import Phrasing.Text

/-!
# `Phrasing.Text.Splice` — replacing a byte range of a text

A splice replaces the bytes from one offset up to another by a new text. Both offsets have to be
character boundaries and in order; what is wrong with them is reported in that sequence: the start,
the end, and last their order.
-/

namespace Phrasing.Text

/-- What can be wrong with a byte range. -/
inductive SpanFault
  /-- The start lies beyond the text or inside a character. -/
  | misplacedStart
  /-- The end lies beyond the text or inside a character. -/
  | misplacedStop
  /-- The end lies before the start. -/
  | reversed (start stop : Nat)
deriving Repr, DecidableEq

/-- Wording of a fault, where it has one. -/
def SpanFault.message? : SpanFault → Option Text
  | .misplacedStart => none
  | .misplacedStop => none
  | .reversed start stop =>
      some ("reversed splice span ".toList ++ ofNat start ++ "..".toList ++ ofNat stop)

/-- The text with the bytes from `start` up to `stop` replaced. -/
def splice (s : Text) (start stop : Nat) (replacement : Text) : Except SpanFault Text :=
  match cutAt? s start with
  | none => .error .misplacedStart
  | some (head, _) =>
      match cutAt? s stop with
      | none => .error .misplacedStop
      | some (_, tail) =>
          if start ≤ stop then .ok (head ++ replacement ++ tail)
          else .error (.reversed start stop)

/-- Replacing the middle of a text cut in three. -/
theorem splice_middle (head middle tail replacement : Text) :
    splice (head ++ middle ++ tail) (byteSize head) (byteSize head + byteSize middle) replacement =
      .ok (head ++ replacement ++ tail) := by
  have hstart : cutAt? (head ++ middle ++ tail) (byteSize head) = some (head, middle ++ tail) := by
    rw [List.append_assoc]
    exact cutAt?_append head (middle ++ tail)
  have hstop : cutAt? (head ++ middle ++ tail) (byteSize head + byteSize middle) =
      some (head ++ middle, tail) := by
    rw [← byteSize_append]
    exact cutAt?_append (head ++ middle) tail
  unfold splice
  rw [hstart, hstop]
  simp

end Phrasing.Text
