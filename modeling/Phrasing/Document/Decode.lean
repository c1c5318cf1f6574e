import Phrasing.Corpus
import Phrasing.Document.Json
import Phrasing.Document.Yaml

/-!
# `Phrasing.Document.Decode` — corpora and tables of variables in documents

What a document has to look like to be a table of variables or a corpus, and what it then says.

## Contents
- **`Decoder`**: taking something out of a document. References are followed, but not without end.
- **`decodeVariables`**, **`decodeCorpus`**: the two things that documents hold.
- **`readVariables`**, **`readCorpus`**: the same from the text of a document.
-/

namespace Phrasing

open Text

/-- Takes something out of a document, if it is there. The state counts the references that may
    still be followed. -/
abbrev Decoder (α : Type) : Type := ReaderT Document (StateT Nat Option) α

namespace Decoder

/-- The node itself, or the node that it refers to. -/
def follow : Datum → Decoder Datum
  | .reference id => do
      match ← get with
      | 0 => failure
      | left + 1 => do
          set left
          match (← read).anchors.lookup id with
          | some datum => return datum
          | none => failure
  | datum => return datum

/-- A text. -/
def text (datum : Datum) : Decoder Text := do
  match ← follow datum with
  | .text value => return value
  | .blank => return []
  | _ => failure

/-- A list of things. -/
def list {α : Type} (item : Datum → Decoder α) (datum : Datum) : Decoder (List α) := do
  match ← follow datum with
  | .list items => items.mapM item
  | .blank => return []
  | _ => failure

/-- A map from texts to texts. -/
def pairs (datum : Datum) : Decoder (List (Text × Text)) := do
  match ← follow datum with
  | .map entries => entries.mapM fun entry => return (← text entry.1, ← text entry.2)
  | .blank => return []
  | _ => failure

/-- The fields of a record by name. Other fields are ignored, but none of its own may repeat. Where
    the format allows it, a record may be the list of its fields in order. -/
def record (names : List Text) (datum : Datum) : Decoder (List (Text × Datum)) := do
  match ← follow datum with
  | .map entries =>
      let fields ← entries.mapM fun entry => return (← text entry.1, entry.2)
      let known := fields.filter fun field => names.contains field.1
      -- A field that is not known may repeat, one that is known may not.
      if (known.map (·.1)).eraseDups.length = known.length then return known else failure
  | .list items =>
      if (← read).positional && items.length ≤ names.length then return names.zip items
      else failure
  | .blank => return []
  | _ => failure

/-- A field of a record; `absent` stands in where it is not given. -/
def field {α : Type} (fields : List (Text × Datum)) (name : String) (decode : Datum → Decoder α)
    (absent : Decoder α) : Decoder α :=
  match fields.lookup name.toList with
  | some datum => decode datum
  | none => absent

/-- Runs a decoder on a document. -/
def run? {α : Type} (decode : Datum → Decoder α) (document : Document) : Option α :=
  ((decode document.root document).run document.jumps).map (·.1)

end Decoder

/-! ## What documents hold -/

/-- A table of variables: a map from names to values. The order of a map decides between names that
    differ only in letter case: the last one counts. -/
def decodeVariables (datum : Datum) : Decoder Variables :=
  return .ofPairs (← Decoder.pairs datum)

/-- An intent: a record with a name, slots and utterances. It has a name in any case. -/
def decodeIntent (datum : Datum) : Decoder Intent := do
  let fields ← Decoder.record ["name".toList, "slots".toList, "utterances".toList] datum
  return {
    name := ← Decoder.field fields "name" Decoder.text failure
    slots := ← Decoder.field fields "slots" (Decoder.list Decoder.text) (pure [])
    utterances := ← Decoder.field fields "utterances" (Decoder.list Decoder.text) (pure []) }

/-- A corpus: a record of variables and intents. -/
def decodeCorpus (datum : Datum) : Decoder Corpus := do
  let fields ← Decoder.record ["variables".toList, "intents".toList] datum
  return {
    vars := ← Decoder.field fields "variables" decodeVariables (pure .empty)
    intents := ← Decoder.field fields "intents" (Decoder.list decodeIntent) (pure []) }

/-! ## Reading -/

/-- The document of a text in one of the formats. -/
def readDocument? : Format → Text → Option Document
  | .yaml, source => Yaml.readDocument? source
  | .json, source => Json.readDocument? source

/-- What a decoder takes out of a text in one of the formats. -/
def readAs {α : Type} (decode : Datum → Decoder α) (format : Format) (source : Text) :
    Except Failure α :=
  match readDocument? format source >>= Decoder.run? decode with
  | some value => .ok value
  | none => .error (.malformed format)

/-- The table of variables in a document. -/
def readVariables : Format → Text → Except Failure Variables := readAs decodeVariables

/-- The corpus in a document. -/
def readCorpus : Format → Text → Except Failure Corpus := readAs decodeCorpus

end Phrasing
