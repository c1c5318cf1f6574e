import Phrasing.Template.Slot

/-!
# `Phrasing.Corpus.UndefinedSlot` — slots that nobody defines

Sentences may mention slots that their intent does not define. Each mention is found, with its
sentence; names are compared exactly.
-/

namespace Phrasing

/-- A mention of a slot that is not defined, and the sentence it stands in. -/
structure UndefinedSlot where
  slot : Slot
  sentence : Text
deriving Repr, DecidableEq

/-- Every mention of a slot whose name is not among the known ones, in order. -/
def undefinedSlots (known : List Text) (sentences : List Text) : List UndefinedSlot :=
  sentences.flatMap fun sentence =>
    ((Slot.findAll sentence).filter fun slot => !known.contains slot.name).map (⟨·, sentence⟩)

end Phrasing
