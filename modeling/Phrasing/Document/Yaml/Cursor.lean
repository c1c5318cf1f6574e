import Phrasing.Text

/-!
# `Phrasing.Document.Yaml.Cursor` — a place in a YAML text

A cursor is the text still to be read and where it stands: how many bytes came before, in which
line, and how many characters of that line. The layout of a YAML text depends on lines and columns,
the reach of a key on bytes.

## Contents
- **Character classes** of YAML: blanks, line breaks, characters of names.
- **`Cursor`**: `advance` moves over characters of a line, `newline` over a line break.
-/

namespace Phrasing.Yaml

/-! ## Character classes -/

/-- Spaces and tabulators. -/
def isGap (c : Char) : Bool := c == ' ' || c == '\t'

/-- Line breaks: also the next line, the line separator and the paragraph separator. -/
def isBreak (c : Char) : Bool :=
  c == '\r' || c == '\n' || c == '\x85' || c == '\u2028' || c == '\u2029'

/-- Blanks and line breaks. -/
def isGapOrBreak (c : Char) : Bool := isGap c || isBreak c

/-- Characters of anchors, directives and tag handles. -/
def isWordChar (c : Char) : Bool := c.isAlphanum || c == '_' || c == '-'

/-- Characters that may stand in a YAML text at all. -/
def isPrintable (c : Char) : Bool :=
  let n := c.toNat
  n == 0x09 || n == 0x0A || n == 0x0D || (0x20 ≤ n && n ≤ 0x7E) || n == 0x85 ||
    (0xA0 ≤ n && n ≤ 0xD7FF) || (0xE000 ≤ n && n ≤ 0xFFFD) || 0x10000 ≤ n

/-- Whether a text is at its end, or begins with a character of the class. -/
def endsOr (test : Char → Bool) : Text → Bool
  | [] => true
  | c :: _ => test c

/-! ## Cursors -/

/-- The text still to be read and where it stands. -/
structure Cursor where
  rest : Text
  /-- How many bytes came before, in UTF-8. -/
  offset : Nat := 0
  line : Nat := 0
  /-- How many characters came before in this line. -/
  column : Nat := 0
deriving Repr

namespace Cursor

/-- The cursor behind so many characters of its line. -/
def advance (cursor : Cursor) (count : Nat) : Cursor :=
  { cursor with
    rest := cursor.rest.drop count
    offset := cursor.offset + Text.byteSize (cursor.rest.take count)
    column := cursor.column + count }

/-- The line break at the cursor as it counts in a text, and the cursor in the next line. Without a
    break there, nothing happens. -/
def newline (cursor : Cursor) : Text × Cursor :=
  match cursor.rest with
  | '\r' :: '\n' :: rest => (['\n'], ⟨rest, cursor.offset + 2, cursor.line + 1, 0⟩)
  | c :: rest =>
      let behind : Cursor := ⟨rest, cursor.offset + c.utf8Size, cursor.line + 1, 0⟩
      if c == '\u2028' || c == '\u2029' then ([c], behind)
      else if isBreak c then (['\n'], behind)
      else ([], cursor)
  | [] => ([], cursor)

/-- The cursor behind the longest run of characters of a class. -/
def skipWhile (cursor : Cursor) (test : Char → Bool) : Cursor :=
  cursor.advance (cursor.rest.takeWhile test).length

/-- Whether nothing is left, or a character of the class comes next. -/
def endsOr (cursor : Cursor) (test : Char → Bool) : Bool := Yaml.endsOr test cursor.rest

/-- Whether the next character is this one. -/
def startsWith (cursor : Cursor) (c : Char) : Bool := cursor.rest.head? == some c

/-- Whether the next characters are these, with a blank, a line break or the end behind them. -/
def startsMark (cursor : Cursor) (mark : Text) : Bool :=
  mark.isPrefixOf cursor.rest && Yaml.endsOr isGapOrBreak (cursor.rest.drop mark.length)

/-- Whether a line begins here with the mark of a document's start or end. -/
def atDocumentMark (cursor : Cursor) : Bool :=
  cursor.column == 0 && (cursor.startsMark ['-', '-', '-'] || cursor.startsMark ['.', '.', '.'])

/-- The cursor behind blanks and a comment, at the end of its line; none if there is anything else
    in the line. -/
def finishLine? (cursor : Cursor) : Option Cursor :=
  let gap := cursor.skipWhile isGap
  let comment := if gap.startsWith '#' then gap.skipWhile (!isBreak ·) else gap
  if comment.endsOr isBreak then some comment.newline.2 else none

end Cursor

end Phrasing.Yaml
