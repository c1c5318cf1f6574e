import Phrasing.Document.Yaml.Scalar

/-!
# `Phrasing.Document.Yaml.Token` — the tokens of a YAML text

Tokens are read from left to right. Indentation opens and closes block collections, so tokens for
that come in without a mark of their own. A key is recognised only by the colon behind it; what
might turn out to be one is kept as a candidate until then, and when it does, its tokens are placed
in front of it.

## Contents
- **`Token`**.
- **`Candidate`**, **`Scan`**: what has been read so far and what may still become a key.
- **`Scan.next?`**: reads the next token.
- **`readTokens?`**: all tokens of a text, or none if it is ill-formed.
-/

namespace Phrasing.Yaml

/-- A token of a YAML text. -/
inductive Token
  | versionDirective (major minor : Nat)
  | tagDirective (handle : Text)
  | documentStart
  | documentEnd
  | blockSequenceStart
  | blockMappingStart
  | blockEnd
  | flowSequenceStart
  | flowSequenceEnd
  | flowMappingStart
  | flowMappingEnd
  | blockEntry
  | flowEntry
  | key
  | value
  | reference (name : Text)
  | anchor (name : Text)
  /-- A tag with the handle that has to be declared, if it has one. -/
  | tag (handle : Option Text)
  | scalar (text : Text) (plain : Bool)
deriving Repr, DecidableEq

/-- A place where a key may begin. -/
structure Candidate where
  /-- Whether the layout leaves no choice: what begins there is a key or an error. -/
  required : Bool
  /-- How many tokens stand before it. -/
  token : Nat
  offset : Nat
  line : Nat
  column : Nat
deriving Repr

/-- What has been read of a text. -/
structure Scan where
  cursor : Cursor
  tokens : Array Token := #[]
  /-- Tokens to be placed in front of others, with the number of tokens before them. -/
  openings : List (Nat × List Token) := []
  /-- Columns of the block collections around the cursor, the innermost first. -/
  indents : List Nat := []
  /-- Whether a key may begin at the cursor. -/
  keyAllowed : Bool := true
  /-- The candidate outside of all brackets. -/
  candidate : Option Candidate := none
  /-- The candidates outside of each pair of brackets around the cursor, the innermost first. Inside
      brackets the candidate in force is `candidate`. -/
  outer : List (Option Candidate) := []
  finished : Bool := false

namespace Scan

/-- Whether the cursor stands inside brackets. -/
def inFlow (scan : Scan) : Bool := !scan.outer.isEmpty

/-- The scan behind one more token. -/
def push (scan : Scan) (token : Token) : Scan := { scan with tokens := scan.tokens.push token }

/-! ## Candidates -/

/-- Gives up a candidate, unless it is required. -/
def abandon? : Option Candidate → Option (Option Candidate)
  | some candidate => if candidate.required then none else some none
  | none => some none

/-- Gives up the candidate in force. -/
def dropCandidate? (scan : Scan) : Option Scan := do
  return { scan with candidate := ← abandon? scan.candidate }

/-- Notes the cursor as a candidate, if a key may begin there. -/
def noteCandidate? (scan : Scan) : Option Scan :=
  if scan.keyAllowed then do
    let scan ← scan.dropCandidate?
    let cursor := scan.cursor
    let required := !scan.inFlow && scan.indents.head? == some cursor.column
    return { scan with
      candidate := some ⟨required, scan.tokens.size, cursor.offset, cursor.line, cursor.column⟩ }
  else some scan

/-- A candidate that is still open at the cursor: a key stays in one line and is not longer than
    1024 bytes. -/
def refresh? (cursor : Cursor) : Option Candidate → Option (Option Candidate)
  | some candidate =>
      if candidate.line < cursor.line || candidate.offset + 1024 < cursor.offset then
        abandon? (some candidate)
      else some (some candidate)
  | none => some none

/-- Gives up all candidates that are no longer open. -/
def refreshCandidates? (scan : Scan) : Option Scan := do
  return { scan with
    candidate := ← refresh? scan.cursor scan.candidate
    outer := ← scan.outer.mapM (refresh? scan.cursor) }

/-! ## Indentation -/

/-- Whether a block collection at this column would be nested in the innermost one. -/
def deepens (scan : Scan) (column : Nat) : Bool :=
  match scan.indents with
  | [] => true
  | indent :: _ => indent < column

/-- Opens a block collection at the cursor, if it is indented further than the innermost. -/
def openBlock (scan : Scan) (token : Token) : Scan :=
  if !scan.inFlow && scan.deepens scan.cursor.column then
    { scan.push token with indents := scan.cursor.column :: scan.indents }
  else scan

/-- Closes the block collections that are indented further than the column. -/
def closeDeeper (scan : Scan) (column : Nat) : Scan :=
  let closed := scan.indents.takeWhile (column < ·)
  { scan with
    tokens := scan.tokens ++ (closed.map fun _ => Token.blockEnd).toArray
    indents := scan.indents.drop closed.length }

/-- Closes the block collections that end before the cursor. Inside brackets none does. -/
def closeBlocks (scan : Scan) : Scan :=
  if scan.inFlow then scan else scan.closeDeeper scan.cursor.column

/-- Closes all block collections. Inside brackets none is closed. -/
def closeAll (scan : Scan) : Scan :=
  if scan.inFlow then scan
  else
    { scan with
      tokens := scan.tokens ++ (scan.indents.map fun _ => Token.blockEnd).toArray
      indents := [] }

/-! ## Blank space -/

/-- The cursor at the next token, and whether a key may begin there. Tabulators are passed over
    inside brackets and where no key may begin; a mark of byte order may begin a line. -/
def skipSpace (inFlow : Bool) : Nat → Cursor → Bool → Cursor × Bool
  | 0, cursor, keyAllowed => (cursor, keyAllowed)
  | bound + 1, cursor, keyAllowed =>
      -- The mark takes up a column, so what follows it in its line is indented by one.
      let cursor :=
        if cursor.column == 0 && cursor.startsWith '\uFEFF' then cursor.advance 1 else cursor
      let cursor := cursor.skipWhile fun c => c == ' ' || (c == '\t' && (inFlow || !keyAllowed))
      let cursor := if cursor.startsWith '#' then cursor.skipWhile (!isBreak ·) else cursor
      if !cursor.rest.isEmpty && cursor.endsOr isBreak then
        skipSpace inFlow bound cursor.newline.2 (keyAllowed || !inFlow)
      else (cursor, keyAllowed)

/-! ## Directives, anchors and tags -/

/-- A number of up to nine digits and the text behind it. -/
def readNumber? (s : Text) : Option (Nat × Text) :=
  let digits := s.takeWhile Char.isDigit
  if digits.isEmpty || 9 < digits.length then none
  else some (digits.foldl (fun n c => n * 10 + (c.toNat - '0'.toNat)) 0, s.drop digits.length)

/-- A tag handle, `!` or `!word!` or the part of a tag that might be one, and the text behind it. -/
def readHandle? : Text → Option (Text × Text)
  | '!' :: s =>
      let word := s.takeWhile isWordChar
      match s.drop word.length with
      | '!' :: rest => some ('!' :: word ++ ['!'], rest)
      | rest => some ('!' :: word, rest)
  | _ => none

/-- Whether a character may stand in a tag; between angle brackets a few more may. -/
def isTagChar (verbatim : Bool) (c : Char) : Bool :=
  isWordChar c || ";/?:@&=+$.%!~*'()".toList.contains c ||
    (verbatim && (c == ',' || c == '[' || c == ']'))

/-- The number of bytes of a UTF-8 sequence that begins with this byte. -/
def sequenceWidth? (byte : Nat) : Option Nat :=
  if byte < 0x80 then some 1
  else if 0xC0 ≤ byte && byte < 0xE0 then some 2
  else if 0xE0 ≤ byte && byte < 0xF0 then some 3
  else if 0xF0 ≤ byte && byte < 0xF8 then some 4
  else none

/-- The byte of a percent escape and the text behind it. -/
def readPercent? : Text → Option (Nat × Text)
  | '%' :: high :: low :: rest => (Text.hexValue? [high, low]).map (·, rest)
  | _ => none

/-- The text behind so many percent escapes of continuation bytes. -/
def skipContinuation? : Nat → Text → Option Text
  | 0, s => some s
  | count + 1, s => do
      let (byte, rest) ← readPercent? s
      if 0x80 ≤ byte && byte < 0xC0 then skipContinuation? count rest else none

/-- The text behind the characters of a tag. Percent escapes have to make up characters. -/
def skipTagChars? (verbatim : Bool) : Nat → Text → Option Text
  | 0, s => some s
  | bound + 1, s =>
      match s with
      | [] => some []
      | '%' :: _ => do
          let (byte, rest) ← readPercent? s
          let width ← sequenceWidth? byte
          skipTagChars? verbatim bound (← skipContinuation? (width - 1) rest)
      | c :: rest =>
          if isTagChar verbatim c then skipTagChars? verbatim bound rest else some (c :: rest)

/-- The text behind the characters of a tag, of which there has to be one at least unless some were
    read before. -/
def skipTagText? (verbatim : Bool) (before : Bool) (s : Text) : Option Text := do
  let rest ← skipTagChars? verbatim (s.length + 1) s
  if before || rest.length < s.length then return rest else none

/-- The handle of a tag at the start of the text, if it has to be declared, and the text behind the
    tag. Only a word between exclamation marks has to be. -/
def readTagHandle? : Text → Option (Option Text × Text)
  | '!' :: '<' :: s => do
      match ← skipTagText? true false s with
      | '>' :: rest => return (none, rest)
      | _ => none
  | s => do
      let (handle, behind) ← readHandle? s
      if 1 < handle.length && handle.getLast? == some '!' then
        return (some handle, ← skipTagText? false false behind)
      else return (none, ← skipTagText? false true behind)

/-- The tag at the start of the text, and the text behind it. Only the handle of a tag matters. -/
def readTag? (inFlow : Bool) (s : Text) : Option (Token × Text) := do
  let (handle, rest) ← readTagHandle? s
  if endsOr isGapOrBreak rest || (inFlow && rest.head? == some ',') then
    return (.tag handle, rest)
  else none

/-- The name of an anchor or alias at the start of the text, and the text behind it. -/
def readAnchorName? (s : Text) : Option (Text × Text) :=
  let name := s.takeWhile isWordChar
  let rest := s.drop name.length
  if !name.isEmpty && endsOr (fun c => isGapOrBreak c || "?:,]\x7d%@`".toList.contains c) rest then
    some (name, rest)
  else none

/-- The cursor behind what was read from its text. -/
def behind (cursor : Cursor) (rest : Text) : Cursor :=
  cursor.advance (cursor.rest.length - rest.length)

/-- The directive at a cursor, and the cursor in the next line. -/
def readDirective? (cursor : Cursor) : Option (Token × Cursor) := do
  let start := cursor.advance 1
  let name := start.rest.takeWhile isWordChar
  let named := start.advance name.length
  if name.isEmpty || !named.endsOr isGapOrBreak then none
  let content := (named.skipWhile isGap).rest
  let (token, rest) ←
    if name == "YAML".toList then do
      let (major, point) ← readNumber? content
      match point with
      | '.' :: s => do
          let (minor, rest) ← readNumber? s
          some (Token.versionDirective major minor, rest)
      | _ => none
    else if name == "TAG".toList then do
      let (handle, gap) ← readHandle? content
      if handle != ['!'] && handle.getLast? != some '!' then none
      let uri := gap.dropWhile isGap
      if uri.length == gap.length then none
      let rest ← skipTagText? true false uri
      if endsOr isGapOrBreak rest then some (Token.tagDirective handle, rest) else none
    else none
  return (token, ← (behind named rest).finishLine?)

/-! ## Reading a token -/

/-- Adds the token made of the next characters. -/
def pushMark (scan : Scan) (token : Token) (length : Nat) : Scan :=
  { scan.push token with cursor := scan.cursor.advance length }

/-- Ends the text: all collections are closed. -/
def finish? (scan : Scan) : Option Scan := do
  let scan ← scan.closeAll.dropCandidate?
  return { scan with keyAllowed := false, finished := true }

/-- A directive. -/
def directive? (scan : Scan) : Option Scan := do
  let scan ← scan.closeAll.dropCandidate?
  let (token, cursor) ← readDirective? scan.cursor
  return { scan.push token with cursor := cursor, keyAllowed := false }

/-- The mark of a document's start or end. -/
def documentMark? (scan : Scan) (token : Token) : Option Scan := do
  let scan ← scan.closeAll.dropCandidate?
  return { scan.pushMark token 3 with keyAllowed := false }

/-- An opening bracket. -/
def openFlow? (scan : Scan) (token : Token) : Option Scan := do
  let scan ← scan.noteCandidate?
  -- All between the brackets may turn out to be a key, too.
  return { scan.pushMark token 1 with
    candidate := none
    outer := scan.candidate :: scan.outer
    keyAllowed := true }

/-- A closing bracket. -/
def closeFlow? (scan : Scan) (token : Token) : Option Scan := do
  let scan ← scan.dropCandidate?
  let scan := match scan.outer with
    | candidate :: outer => { scan with candidate := candidate, outer := outer }
    | [] => scan
  return { scan.pushMark token 1 with keyAllowed := false }

/-- A comma between items. -/
def flowEntry? (scan : Scan) : Option Scan := do
  let scan ← scan.dropCandidate?
  return { scan.pushMark .flowEntry 1 with keyAllowed := true }

/-- The dash in front of an item. -/
def blockEntry? (scan : Scan) : Option Scan := do
  if !scan.inFlow && !scan.keyAllowed then none
  let scan ← (scan.openBlock .blockSequenceStart).dropCandidate?
  return { scan.pushMark .blockEntry 1 with keyAllowed := true }

/-- The question mark in front of a key. -/
def complexKey? (scan : Scan) : Option Scan := do
  if !scan.inFlow && !scan.keyAllowed then none
  let scan ← (scan.openBlock .blockMappingStart).dropCandidate?
  return { scan.pushMark .key 1 with keyAllowed := !scan.inFlow }

/-- The colon in front of a value. The candidate in force turns out to be a key. -/
def value? (scan : Scan) : Option Scan :=
  match scan.candidate with
  | some candidate =>
      -- A mapping begins with its first key, that is, where the candidate stands.
      let opens := !scan.inFlow && scan.deepens candidate.column
      let opening := if opens then [Token.blockMappingStart, Token.key] else [Token.key]
      some { scan.pushMark .value 1 with
        openings := (candidate.token, opening) :: scan.openings
        indents := if opens then candidate.column :: scan.indents else scan.indents
        candidate := none
        keyAllowed := false }
  | none =>
      if !scan.inFlow && !scan.keyAllowed then none
      else
        some { (scan.openBlock .blockMappingStart).pushMark .value 1 with
          keyAllowed := !scan.inFlow }

/-- An alias or an anchor. -/
def anchor? (scan : Scan) (token : Text → Token) : Option Scan := do
  let scan ← scan.noteCandidate?
  let start := scan.cursor.advance 1
  let (name, rest) ← readAnchorName? start.rest
  return { scan.push (token name) with cursor := behind start rest, keyAllowed := false }

/-- A tag. -/
def tag? (scan : Scan) : Option Scan := do
  let scan ← scan.noteCandidate?
  let (token, rest) ← readTag? scan.inFlow scan.cursor.rest
  return { scan.push token with cursor := behind scan.cursor rest, keyAllowed := false }

/-- A block scalar. -/
def block? (scan : Scan) (literal : Bool) : Option Scan := do
  let scan ← scan.dropCandidate?
  let scalar ← readBlock? literal scan.indents.head? scan.cursor
  return { scan.push (.scalar scalar.text false) with cursor := scalar.cursor, keyAllowed := true }

/-- A quoted scalar. -/
def quoted? (scan : Scan) (single : Bool) : Option Scan := do
  let scan ← scan.noteCandidate?
  let scalar ← readQuoted? single scan.cursor
  return { scan.push (.scalar scalar.text false) with cursor := scalar.cursor, keyAllowed := false }

/-- A plain scalar. -/
def plain? (scan : Scan) : Option Scan := do
  let scan ← scan.noteCandidate?
  let indent := match scan.indents with
    | column :: _ => column + 1
    | [] => 0
  let scalar ← readPlain? scan.inFlow indent scan.cursor
  return { scan.push (.scalar scalar.text true) with
    cursor := scalar.cursor
    keyAllowed := scalar.broken }

/-- Whether a plain scalar may begin with the first of these characters. -/
def startsPlain (inFlow : Bool) : Text → Bool
  | [] => false
  | c :: rest =>
      !(isGapOrBreak c || "-?:,[]\x7b\x7d#&*!|>'\"%@`".toList.contains c) ||
        (c == '-' && !(!rest.isEmpty && endsOr isGap rest)) ||
        (!inFlow && (c == '?' || c == ':') && !endsOr isGapOrBreak rest)

/-- Reads the token at the cursor, which stands in front of one. -/
def token? (scan : Scan) : Option Scan :=
  let cursor := scan.cursor
  let inFlow := scan.inFlow
  match cursor.rest with
  | [] => scan.finish?
  | c :: rest =>
      if cursor.column == 0 && c == '%' then scan.directive?
      else if cursor.column == 0 && cursor.startsMark ['-', '-', '-'] then
        scan.documentMark? .documentStart
      else if cursor.column == 0 && cursor.startsMark ['.', '.', '.'] then
        scan.documentMark? .documentEnd
      else if c == '[' then scan.openFlow? .flowSequenceStart
      else if c == '\x7b' then scan.openFlow? .flowMappingStart
      else if c == ']' then scan.closeFlow? .flowSequenceEnd
      else if c == '\x7d' then scan.closeFlow? .flowMappingEnd
      else if c == ',' then scan.flowEntry?
      else if c == '-' && endsOr isGapOrBreak rest then scan.blockEntry?
      else if c == '?' && (inFlow || endsOr isGapOrBreak rest) then scan.complexKey?
      else if c == ':' && (inFlow || endsOr isGapOrBreak rest) then scan.value?
      else if c == '*' then scan.anchor? .reference
      else if c == '&' then scan.anchor? .anchor
      else if c == '!' then scan.tag?
      else if c == '|' && !inFlow then scan.block? true
      else if c == '>' && !inFlow then scan.block? false
      else if c == '\'' then scan.quoted? true
      else if c == '"' then scan.quoted? false
      else if startsPlain inFlow (c :: rest) then scan.plain?
      else none

/-- Reads the next token. -/
def next? (scan : Scan) : Option Scan := do
  let (cursor, keyAllowed) :=
    skipSpace scan.inFlow (scan.cursor.rest.length + 1) scan.cursor scan.keyAllowed
  let scan ← { scan with cursor := cursor, keyAllowed := keyAllowed }.refreshCandidates?
  scan.closeBlocks.token?

/-- Reads tokens up to the end of the text. -/
def run? : Nat → Scan → Option Scan
  | 0, _ => none
  | bound + 1, scan => if scan.finished then some scan else scan.next? >>= run? bound

/-- The tokens with those that stand in front of others in their places. -/
def placed (scan : Scan) : List Token :=
  (scan.tokens.toList.mapIdx fun index token =>
    ((scan.openings.lookup index).getD []) ++ [token]).flatten

end Scan

/-- The tokens of a text. -/
def readTokens? (s : Text) : Option (List Token) :=
  if s.all isPrintable then
    (Scan.run? (s.length + 2) { cursor := ⟨s, 0, 0, 0⟩ }).map Scan.placed
  else none

end Phrasing.Yaml
