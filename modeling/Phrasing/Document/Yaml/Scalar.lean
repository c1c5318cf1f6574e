import Phrasing.Text.Hexadecimal
import Phrasing.Document.Yaml.Cursor

/-!
# `Phrasing.Document.Yaml.Scalar` — reading the scalars of YAML

A scalar is written plainly, in quotes or as a block of lines. Plain and quoted scalars may run over
several lines, which are folded: a single line break counts as a space, of several the first is
dropped.

## Contents
- **`Spacing`**: the blanks and line breaks between two words, and what they count for.
- **`readPlain?`**, **`readQuoted?`**, **`readBlock?`**: the scalar at a cursor and the cursor behind
  it. Each works by recursion on a bound for the number of steps, which is the length of the text.
-/

namespace Phrasing.Yaml

/-! ## Spacing -/

/-- Blanks and line breaks between two words. -/
structure Spacing where
  /-- Blanks, while no line break has come. -/
  blanks : Text := []
  /-- Whether a line break has come. -/
  broken : Bool := false
  /-- The first line break. -/
  first : Text := []
  /-- The line breaks after it. -/
  others : Text := []

namespace Spacing

/-- What a run of line breaks counts for. -/
def fold (first others : Text) : Text :=
  if first = ['\n'] then if others.isEmpty then [' '] else others
  else first ++ others

/-- What the spacing counts for. -/
def text (spacing : Spacing) : Text :=
  if spacing.broken then fold spacing.first spacing.others else spacing.blanks

/-- The spacing at a cursor, behind what has been read of it, and the cursor behind it. In a line
    that is not the first, a tabulator left of `indent` is refused. -/
def read? (indent : Nat) : Nat → Cursor → Spacing → Option (Spacing × Cursor)
  | 0, _, _ => none
  | bound + 1, cursor, spacing =>
      match cursor.rest with
      | [] => some (spacing, cursor)
      | c :: _ =>
          if isGap c then
            if spacing.broken then
              if c == '\t' && cursor.column < indent then none
              else read? indent bound (cursor.advance 1) spacing
            else read? indent bound (cursor.advance 1) { spacing with blanks := spacing.blanks ++ [c] }
          else if isBreak c then
            let (text, next) := cursor.newline
            if spacing.broken then
              read? indent bound next { spacing with others := spacing.others ++ text }
            else read? indent bound next { spacing with blanks := [], broken := true, first := text }
          else some (spacing, cursor)

end Spacing

/-! ## Plain scalars -/

/-- Characters that enclose or separate the items of a collection in brackets. -/
def isFlowMark (c : Char) : Bool :=
  c == ',' || c == '[' || c == ']' || c == '\x7b' || c == '\x7d'

/-- The word of a plain scalar that the text begins with. A colon ends it before a blank; inside
    brackets their marks end it too, and a colon right before one of them is refused. -/
def plainWord? (inFlow : Bool) : Text → Option Text
  | [] => some []
  | c :: rest =>
      if isGapOrBreak c then some []
      else if inFlow && c == ':' && !rest.isEmpty && endsOr (fun d => isFlowMark d || d == '?') rest
        then none
      else if c == ':' && endsOr isGapOrBreak rest then some []
      else if inFlow && isFlowMark c then some []
      else (plainWord? inFlow rest).map (c :: ·)

/-- A scalar that was read: its text, whether it is plain, whether a line break follows it, and the
    cursor behind it. -/
structure ReadScalar where
  text : Text
  plain : Bool
  broken : Bool
  cursor : Cursor

/-- The plain scalar that goes on at a cursor, behind the text and spacing read so far. -/
def readPlainOn? (inFlow : Bool) (indent : Nat) : Nat → Cursor → Text → Spacing → Option ReadScalar
  | 0, _, _, _ => none
  | bound + 1, cursor, text, spacing =>
      let done : ReadScalar := ⟨text, true, spacing.broken, cursor⟩
      if cursor.atDocumentMark || cursor.startsWith '#' then some done
      else do
        let word ← plainWord? inFlow cursor.rest
        if word.isEmpty then return done
        let behind := cursor.advance word.length
        let text := text ++ spacing.text ++ word
        if behind.rest.isEmpty || !behind.endsOr isGapOrBreak then
          return ⟨text, true, false, behind⟩
        let (spacing, next) ← Spacing.read? indent (behind.rest.length + 1) behind {}
        if !inFlow && next.column < indent then return ⟨text, true, spacing.broken, next⟩
        readPlainOn? inFlow indent bound next text spacing

/-- The plain scalar at a cursor. -/
def readPlain? (inFlow : Bool) (indent : Nat) (cursor : Cursor) : Option ReadScalar :=
  readPlainOn? inFlow indent (cursor.rest.length + 1) cursor [] {}

/-! ## Quoted scalars -/

/-- The character of an escape with a single letter. -/
def shortEscape? : Char → Option Char
  | '0' => some '\x00'
  | 'a' => some '\x07'
  | 'b' => some '\x08'
  | 't' => some '\t'
  | '\t' => some '\t'
  | 'n' => some '\n'
  | 'v' => some '\x0b'
  | 'f' => some '\x0c'
  | 'r' => some '\r'
  | 'e' => some '\x1b'
  | ' ' => some ' '
  | '"' => some '"'
  | '/' => some '/'
  | '\\' => some '\\'
  | 'N' => some '\x85'
  | '_' => some '\xa0'
  | 'L' => some '\u2028'
  | 'P' => some '\u2029'
  | _ => none

/-- How many hexadecimal digits a numeric escape has. -/
def escapeWidth? : Char → Option Nat
  | 'x' => some 2
  | 'u' => some 4
  | 'U' => some 8
  | _ => none

/-- The character of the escape behind a backslash, and how long the escape is. -/
def readEscape? : Text → Option (Char × Nat)
  | [] => none
  | c :: rest =>
      match escapeWidth? c with
      | some width => do
          let digits := rest.take width
          let value ← Text.hexValue? digits
          if digits.length == width && decide value.isValidChar then
            return (Char.ofNat value, width + 1)
          else none
      | none => (shortEscape? c).map (·, 1)

/-- What ends a word of a quoted scalar. -/
inductive WordEnd
  /-- The closing quote, a blank or the end of the text. -/
  | plain
  /-- An escaped line break. -/
  | escapedBreak

/-- The word of a quoted scalar at a cursor, what ends it, and the cursor behind it. -/
def quotedWord? (single : Bool) : Nat → Cursor → Option (Text × WordEnd × Cursor)
  | 0, _ => none
  | bound + 1, cursor =>
      match cursor.rest with
      | [] => some ([], .plain, cursor)
      | c :: rest =>
          let more := fun (d : Char) (width : Nat) => do
            let (word, ending, behind) ← quotedWord? single bound (cursor.advance width)
            return (d :: word, ending, behind)
          if isGapOrBreak c then some ([], .plain, cursor)
          else if single then
            if c == '\'' then
              if rest.head? == some '\'' then more '\'' 2 else some ([], .plain, cursor)
            else more c 1
          else if c == '"' then some ([], .plain, cursor)
          else if c == '\\' then
            if !rest.isEmpty && endsOr isBreak rest then
              some ([], .escapedBreak, (cursor.advance 1).newline.2)
            else do
              let (d, width) ← readEscape? rest
              more d (width + 1)
          else more c 1

/-- The quoted scalar that goes on at a cursor, behind the text read so far. -/
def readQuotedOn? (single : Bool) : Nat → Cursor → Text → Option ReadScalar
  | 0, _, _ => none
  | bound + 1, cursor, text => do
      if cursor.atDocumentMark || cursor.rest.isEmpty then none
      let (word, ending, behind) ← quotedWord? single (cursor.rest.length + 1) cursor
      let text := text ++ word
      let spacing : Spacing := match ending with
        | .plain => {}
        | .escapedBreak => { broken := true }
      if behind.startsWith (if single then '\'' else '"') then
        return ⟨text, false, false, behind.advance 1⟩
      let (spacing, next) ← Spacing.read? 0 (behind.rest.length + 1) behind spacing
      readQuotedOn? single bound next (text ++ spacing.text)

/-- The quoted scalar at a cursor that stands on the opening quote. -/
def readQuoted? (single : Bool) (cursor : Cursor) : Option ReadScalar :=
  readQuotedOn? single (cursor.rest.length + 1) (cursor.advance 1) []

/-! ## Block scalars -/

/-- What becomes of the line breaks behind the last line of a block. -/
inductive Chomping
  /-- All are dropped. -/
  | strip
  /-- One is kept. -/
  | clip
  /-- All are kept. -/
  | keep

/-- The chomping at a cursor, if it is given there, and the cursor behind it. -/
def readChomping? (cursor : Cursor) : Option (Chomping × Cursor) :=
  if cursor.startsWith '+' then some (.keep, cursor.advance 1)
  else if cursor.startsWith '-' then some (.strip, cursor.advance 1)
  else none

/-- The digit at a cursor, if there is one, and the cursor behind it. -/
def readDigit? (cursor : Cursor) : Option (Nat × Cursor) :=
  match cursor.rest with
  | c :: _ => if c.isDigit then some (c.toNat - '0'.toNat, cursor.advance 1) else none
  | [] => none

/-- The chomping and the indentation asked for in the first line of a block, in either order. No
    indentation is asked for as zero; asking for zero is refused. -/
def readHeader? (cursor : Cursor) : Option (Chomping × Nat × Cursor) :=
  match readChomping? cursor with
  | some (chomping, behind) =>
      match readDigit? behind with
      | some (0, _) => none
      | some (digit, final) => some (chomping, digit, final)
      | none => some (chomping, 0, behind)
  | none =>
      match readDigit? cursor with
      | some (0, _) => none
      | some (digit, behind) =>
          match readChomping? behind with
          | some (chomping, final) => some (chomping, digit, final)
          | none => some (.clip, digit, behind)
      | none => some (.clip, 0, cursor)

/-- Empty lines of a block at a cursor: their line breaks behind those read so far, the largest
    indentation, and the cursor in the line that is not empty. While the indentation of the block is
    unknown it is given as zero. A tabulator in the indentation is refused. -/
def readBreaks? (indent : Nat) : Nat → Cursor → Text → Nat → Option (Text × Nat × Cursor)
  | 0, _, _, _ => none
  | bound + 1, cursor, breaks, widest =>
      let spaces := (cursor.rest.takeWhile (· == ' ')).length
      let width := if indent == 0 then spaces else min spaces (indent - cursor.column)
      let behind := cursor.advance width
      let widest := max widest behind.column
      if (indent == 0 || behind.column < indent) && behind.startsWith '\t' then none
      else if behind.rest.isEmpty || !behind.endsOr isBreak then some (breaks, widest, behind)
      else
        let (text, next) := behind.newline
        readBreaks? indent bound next (breaks ++ text) widest

/-- A block as far as it has been read: its text, the break behind its last line, the breaks of the
    empty lines after that, and whether the last line begins with a blank. -/
structure Block where
  text : Text := []
  last : Text := []
  empties : Text := []
  blankLine : Bool := false

/-- The lines of a block at a cursor, behind what has been read of it. -/
def readLines? (literal : Bool) (indent : Nat) : Nat → Cursor → Block → Option (Block × Cursor)
  | 0, _, _ => none
  | bound + 1, cursor, block =>
      if cursor.column != indent || cursor.rest.isEmpty then some (block, cursor)
      else do
        let blank := endsOr isGap cursor.rest
        let joint :=
          if !literal && block.last == ['\n'] && !block.blankLine && !blank then
            if block.empties.isEmpty then [' '] else []
          else block.last
        let line := cursor.rest.takeWhile (!isBreak ·)
        let (last, next) := (cursor.advance line.length).newline
        let (empties, _, final) ← readBreaks? indent (next.rest.length + 1) next [] 0
        readLines? literal indent bound final
          ⟨block.text ++ joint ++ block.empties ++ line, last, empties, blank⟩

/-- The block scalar at a cursor that stands on its mark, inside a collection that is indented by so
    much (by nothing at all where there is none). -/
def readBlock? (literal : Bool) (outer : Option Nat) (cursor : Cursor) : Option ReadScalar := do
  let (chomping, digit, behind) ← readHeader? (cursor.advance 1)
  let start ← behind.finishLine?
  let least := match outer with
    | some column => column + 1
    | none => 1
  let asked := if digit == 0 then 0 else (outer.getD 0) + digit
  let (empties, widest, first) ← readBreaks? asked (start.rest.length + 1) start [] 0
  let indent := if asked == 0 then max widest least else asked
  let (block, final) ←
    readLines? literal indent (first.rest.length + 1) first { empties := empties }
  let tail := match chomping with
    | .strip => []
    | .clip => block.last
    | .keep => block.last ++ block.empties
  return ⟨block.text ++ tail, false, false, final⟩

end Phrasing.Yaml
