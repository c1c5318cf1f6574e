import Phrasing.Document
import Phrasing.Document.Yaml.Token

/-!
# `Phrasing.Document.Yaml` — reading YAML

The tokens of a YAML text are put together to a tree. A text holds one document. Nodes may be given
names and referred to by them; a name may be given anew.

## Contents
- **`Build`**: the tokens still to be read and the names given so far.
- **`readNode?`** and its companions, one for each kind of collection, by recursion on a bound for
  the number of steps.
- **`readDocument?`**: the document of a text.
-/

namespace Phrasing.Yaml

/-- The state of reading a tree. -/
structure Build where
  tokens : List Token
  /-- Tag handles that are declared. -/
  handles : List Text := []
  /-- How many nodes and ends of collections have been read. -/
  count : Nat := 0
  /-- The number that each name stands for. A new name gets the number of names so far. -/
  names : List (Text × Nat) := []
  /-- The nodes with a name: the number, where the node begins, and the node. -/
  named : List (Nat × Nat × Datum) := []

namespace Build

/-- The build behind the next token. -/
def skip (build : Build) : Build := { build with tokens := build.tokens.drop 1 }

/-- The build after one more node or end of a collection. -/
def tick (build : Build) : Build := { build with count := build.count + 1 }

/-- Gives a name anew, or for the first time: the number it stands for from now on. A name that is
    given anew gets the number of names so far, too, so it may share it with a later name. -/
def giveName (build : Build) (name : Text) : Nat × Build :=
  let number := build.names.length
  let others := build.names.filter (·.1 != name)
  (number, { build with names := (name, number) :: others })

/-- Keeps a node under the number of its name. -/
def keep (build : Build) (number start : Nat) (datum : Datum) : Build :=
  { build with named := (number, start, datum) :: build.named }

/-- The node of each number: of several, the one that begins last. -/
def anchors (build : Build) : List (Nat × Datum) :=
  let byStart := build.named.mergeSort fun a b => b.2.1 ≤ a.2.1
  byStart.map fun entry => (entry.1, entry.2.2)

end Build

/-- What may stand in front of a node. -/
structure Properties where
  name : Option Text := none
  tagged : Bool := false

/-- The tag at the next token, if there is one. Its handle has to be declared. -/
def readTag? (build : Build) : Option (Bool × Build) :=
  match build.tokens with
  | .tag none :: _ => some (true, build.skip)
  | .tag (some handle) :: _ =>
      if handle == ['!', '!'] || build.handles.contains handle then some (true, build.skip) else none
  | _ => some (false, build)

/-- The properties at the next tokens: an anchor and a tag, in either order. -/
def readProperties? (build : Build) : Option (Properties × Build) := do
  match build.tokens with
  | .anchor name :: _ =>
      let (tagged, build) ← readTag? build.skip
      return (⟨some name, tagged⟩, build)
  | _ =>
      let (tagged, build) ← readTag? build
      if tagged then
        match build.tokens with
        | .anchor name :: _ => return (⟨some name, true⟩, build.skip)
        | _ => return (⟨none, true⟩, build)
      else return (⟨none, false⟩, build)

/-- A node where nothing is written. -/
def emptyNode (build : Build) : Datum × Build := (.blank, build.tick)

/-- Whether the next token is one of these. -/
def nextIs (build : Build) (tokens : List Token) : Bool :=
  match build.tokens with
  | [] => false
  | token :: _ => tokens.contains token

/-- The datum of a scalar. Only a plain scalar without text is a place where nothing is written. -/
def scalarDatum (text : Text) (plain : Bool) : Datum :=
  if plain && text.isEmpty then .blank else .text text

mutual

/-- The node at the next tokens. Block collections may stand only where `block` allows them, and
    items without indentation of their own only where `bare` does. -/
def readNode? (bound : Nat) (block bare : Bool) (build : Build) : Option (Datum × Build) :=
  match bound with
  | 0 => none
  | bound + 1 =>
      match build.tokens with
      | .reference name :: _ => do
          let number ← build.names.lookup name
          return (.reference number, build.skip.tick)
      | _ => do
          let (properties, build) ← readProperties? build
          -- A name is given before its node is read, so the node may refer to itself.
          let start := build.count
          let (number, build) := match properties.name with
            | some name =>
                let (number, build) := build.giveName name
                (some number, build)
            | none => (none, build)
          let (datum, build) ← match build.tokens with
            | .scalar text plain :: _ => some (scalarDatum text plain, build.skip.tick)
            | .flowSequenceStart :: _ => readFlowItems? bound true build.skip.tick
            | .flowMappingStart :: _ => readFlowEntries? bound true build.skip.tick
            | .blockSequenceStart :: _ =>
                if block then readItems? bound build.skip.tick else none
            | .blockMappingStart :: _ =>
                if block then readEntries? bound build.skip.tick else none
            | .blockEntry :: _ =>
                if bare then readBareItems? bound build.tick
                else if properties.tagged || properties.name.isSome then some (emptyNode build)
                else none
            | _ =>
                if properties.tagged || properties.name.isSome then some (emptyNode build) else none
          return (datum, match number with
            | some number => build.keep number start datum
            | none => build)

/-- The items of a block sequence up to its end. -/
def readItems? (bound : Nat) (build : Build) : Option (Datum × Build) :=
  match bound with
  | 0 => none
  | bound + 1 =>
      match build.tokens with
      | .blockEntry :: _ => do
          let build := build.skip
          let (item, build) ←
            if nextIs build [.blockEntry, .blockEnd] then some (emptyNode build)
            else readNode? bound true false build
          match ← readItems? bound build with
          | (.list items, build) => return (.list (item :: items), build)
          | _ => none
      | .blockEnd :: _ => some (.list [], build.skip.tick)
      | _ => none

/-- The items of a sequence that is not indented, up to the next token that is no item. -/
def readBareItems? (bound : Nat) (build : Build) : Option (Datum × Build) :=
  match bound with
  | 0 => none
  | bound + 1 =>
      match build.tokens with
      | .blockEntry :: _ => do
          let build := build.skip
          let (item, build) ←
            if nextIs build [.blockEntry, .key, .value, .blockEnd] then some (emptyNode build)
            else readNode? bound true false build
          match ← readBareItems? bound build with
          | (.list items, build) => return (.list (item :: items), build)
          | _ => none
      | _ => some (.list [], build.tick)

/-- The entries of a block mapping up to its end. -/
def readEntries? (bound : Nat) (build : Build) : Option (Datum × Build) :=
  match bound with
  | 0 => none
  | bound + 1 =>
      match build.tokens with
      | .key :: _ => do
          let build := build.skip
          let (key, build) ←
            if nextIs build [.key, .value, .blockEnd] then some (emptyNode build)
            else readNode? bound true true build
          let (value, build) ←
            if nextIs build [.value] then
              let build := build.skip
              if nextIs build [.key, .value, .blockEnd] then some (emptyNode build)
              else readNode? bound true true build
            else some (emptyNode build)
          match ← readEntries? bound build with
          | (.map entries, build) => return (.map ((key, value) :: entries), build)
          | _ => none
      | .blockEnd :: _ => some (.map [], build.skip.tick)
      | _ => none

/-- The items of a sequence in brackets up to its end; `first` tells that none came before. An item
    may be a mapping of one entry without brackets of its own. -/
def readFlowItems? (bound : Nat) (first : Bool) (build : Build) : Option (Datum × Build) :=
  match bound with
  | 0 => none
  | bound + 1 =>
      if nextIs build [.flowSequenceEnd] then some (.list [], build.skip.tick)
      else do
        let build ←
          if first then some build
          else if nextIs build [.flowEntry] then some build.skip
          else none
        if nextIs build [.flowSequenceEnd] then return (.list [], build.skip.tick)
        let (item, build) ←
          if nextIs build [.key] then readFlowPair? bound build.skip.tick
          else readNode? bound false false build
        match ← readFlowItems? bound false build with
        | (.list items, build) => return (.list (item :: items), build)
        | _ => none

/-- The entry of a mapping without brackets of its own, as a mapping. -/
def readFlowPair? (bound : Nat) (build : Build) : Option (Datum × Build) :=
  match bound with
  | 0 => none
  | bound + 1 => do
      -- Where no key is written, the next token is passed over, and with it the mark of the value.
      let (key, build) ←
        if nextIs build [.value, .flowEntry, .flowSequenceEnd] then some (emptyNode build.skip)
        else readNode? bound false false build
      let (value, build) ←
        if nextIs build [.value] then
          let build := build.skip
          if nextIs build [.flowEntry, .flowSequenceEnd] then some (emptyNode build)
          else readNode? bound false false build
        else some (emptyNode build)
      return (.map [(key, value)], build.tick)

/-- The entries of a mapping in brackets up to its end; `first` tells that none came before. -/
def readFlowEntries? (bound : Nat) (first : Bool) (build : Build) : Option (Datum × Build) :=
  match bound with
  | 0 => none
  | bound + 1 =>
      if nextIs build [.flowMappingEnd] then some (.map [], build.skip.tick)
      else do
        let build ←
          if first then some build
          else if nextIs build [.flowEntry] then some build.skip
          else none
        if nextIs build [.flowMappingEnd] then return (.map [], build.skip.tick)
        let (key, value, build) ←
          if nextIs build [.key] then do
            let build := build.skip
            let (key, build) ←
              if nextIs build [.value, .flowEntry, .flowMappingEnd] then some (emptyNode build)
              else readNode? bound false false build
            let (value, build) ←
              if nextIs build [.value] then
                let build := build.skip
                if nextIs build [.flowEntry, .flowMappingEnd] then some (emptyNode build)
                else readNode? bound false false build
              else some (emptyNode build)
            some (key, value, build)
          else do
            let (key, build) ← readNode? bound false false build
            let (value, build) := emptyNode build
            some (key, value, build)
        match ← readFlowEntries? bound false build with
        | (.map entries, build) => return (.map ((key, value) :: entries), build)
        | _ => none

end

/-! ## Documents -/

/-- The directives in front of a document, and the build behind them. Neither a version nor a handle
    may be declared twice, and only versions 1.1 and 1.2 are known. -/
def readDirectives? : List Token → Bool → List Text → Option (List Text × List Token)
  | .versionDirective major minor :: rest, versioned, handles =>
      if versioned || major != 1 || (minor != 1 && minor != 2) then none
      else readDirectives? rest true handles
  | .tagDirective handle :: rest, versioned, handles =>
      if handles.contains handle then none else readDirectives? rest versioned (handle :: handles)
  | tokens, _, handles => some (handles, tokens)

/-- Whether a token can only stand outside of a document. -/
def endsDocument : Token → Bool
  | .versionDirective .. => true
  | .tagDirective _ => true
  | .documentStart => true
  | .documentEnd => true
  | _ => false

/-- The root of the document that the tokens begin with. -/
def readRoot? (tokens : List Token) : Option (Datum × Build) := do
  let bound := 4 * tokens.length + 4
  match tokens with
  | [] => return emptyNode ⟨[], [], 0, [], []⟩
  | first :: _ =>
      if endsDocument first && first != .documentEnd then
        let (handles, rest) ← readDirectives? tokens false []
        match rest with
        | .documentStart :: rest =>
            let build : Build := ⟨rest, handles, 0, [], []⟩
            match rest with
            | [] => return emptyNode build
            | next :: _ =>
                if endsDocument next then return emptyNode build
                else readNode? bound true false build
        | _ => none
      else readNode? bound true false ⟨tokens, [], 0, [], []⟩

/-- The document of a YAML text. There may be only one. -/
def readDocument? (s : Text) : Option Document := do
  let tokens ← readTokens? s
  let (root, build) ← readRoot? tokens
  if build.tokens.all (· == .documentEnd) then
    -- References may be followed a hundred times as often as there are nodes and ends.
    return ⟨root, build.anchors, 100 * build.count, false⟩
  else none

end Phrasing.Yaml
