import Phrasing.Corpus
import Phrasing.Document.Json.Printer

/-!
# `Phrasing.Corpus.Report` — an expanded corpus in writing

An expanded corpus is written for reading, as headings with a sentence per line below, or as JSON.

## Contents
- **`Layout`**, **`Layout.render`**.
- **`textReport`**, **`jsonReport`**: the two layouts.
- **`undefinedSlotNotices`**: what is told about slots that are not defined.
-/

namespace Phrasing

/-- How an expanded corpus is written. -/
inductive Layout
  | text
  | json
deriving Repr, DecidableEq

/-- An intent as text: a heading with its name, and its sentences. -/
def ExpandedIntent.textReport (intent : ExpandedIntent) : Text :=
  Text.lines (('#' :: ' ' :: intent.name) :: intent.sentences)

/-- Intents as text, with an empty line between each and the next. -/
def textReport : List ExpandedIntent → Text
  | [] => []
  | intent :: rest => intent.textReport ++ rest.flatMap fun next => '\n' :: next.textReport

/-- A slot in JSON. Its sample text is left out if there is none. -/
def Slot.toJson (slot : Slot) : Json.Value :=
  .object (("name", .text slot.name) :: (slot.sample.map fun sample => ("example", .text sample)).toList)

/-- A mention of an undefined slot in JSON. -/
def UndefinedSlot.toJson (undefined : UndefinedSlot) : Json.Value :=
  .object [("slot", undefined.slot.toJson), ("sentence", .text undefined.sentence)]

/-- An intent in JSON. Undefined slots are left out if there are none. -/
def ExpandedIntent.toJson (intent : ExpandedIntent) : Json.Value :=
  let undefined := intent.undefinedSlots.map UndefinedSlot.toJson
  .object ([("name", .text intent.name), ("sentences", .list (intent.sentences.map .text))] ++
    if undefined.isEmpty then [] else [("undefined_slots", .list undefined)])

/-- Intents in JSON. -/
def jsonReport (intents : List ExpandedIntent) : Text :=
  (Json.Value.list (intents.map ExpandedIntent.toJson)).render 0 ++ ['\n']

/-- Intents in a layout. -/
def Layout.render : Layout → List ExpandedIntent → Text
  | text, intents => textReport intents
  | json, intents => jsonReport intents

/-- A notice for each mention of a slot that is not defined. -/
def undefinedSlotNotices (intents : List ExpandedIntent) : List Notice :=
  intents.flatMap fun intent =>
    intent.undefinedSlots.map fun undefined =>
      .undefinedSlot intent.name undefined.slot.name undefined.sentence

/-- The number of sentences of all intents. -/
def sentenceCount (intents : List ExpandedIntent) : Nat :=
  (intents.flatMap fun intent => intent.sentences).length

end Phrasing
