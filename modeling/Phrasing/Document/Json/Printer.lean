import Phrasing.Text.Pieces

/-!
# `Phrasing.Document.Json.Printer` — writing JSON

Values are laid out over several lines: each item of a list and each field of an object has a line
of its own, two spaces further in than what encloses it.

## Contents
- **`Value`**: what is written.
- **`escape`**, **`quote`**: texts in quotes.
- **`Value.render`**: the layout of a value.
-/

namespace Phrasing.Json

/-- A value to be written. -/
inductive Value
  | text (value : Text)
  | list (items : List Value)
  | object (fields : List (String × Value))

/-- A hexadecimal digit in lower case. -/
def hexDigit (n : Nat) : Char := Nat.digitChar (n % 16)

/-- A character as it is written between quotes. Quotes, backslashes and control characters are
    escaped, the latter by a short escape if they have one. -/
def escape (c : Char) : Text :=
  if c == '"' then ['\\', '"']
  else if c == '\\' then ['\\', '\\']
  else if c == '\x08' then ['\\', 'b']
  else if c == '\x0c' then ['\\', 'f']
  else if c == '\n' then ['\\', 'n']
  else if c == '\r' then ['\\', 'r']
  else if c == '\t' then ['\\', 't']
  else if c.toNat < 0x20 then
    ['\\', 'u', '0', '0', hexDigit (c.toNat / 16), hexDigit c.toNat]
  else [c]

/-- A text in quotes. -/
def quote (s : Text) : Text := '"' :: s.flatMap escape ++ ['"']

/-- The start of a line at a depth. -/
def newLine (depth : Nat) : Text := '\n' :: List.replicate (2 * depth) ' '

/-- Parts between brackets, each in a line of its own. Without parts the brackets stand together. -/
def enclose (opening closing : Char) (depth : Nat) (parts : List Text) : Text :=
  if parts.isEmpty then [opening, closing]
  else
    opening :: Text.join ',' (parts.map (newLine (depth + 1) ++ ·)) ++ newLine depth ++ [closing]

mutual

/-- A value laid out at a depth. -/
def Value.render (depth : Nat) : Value → Text
  | .text value => quote value
  | .list items => enclose '[' ']' depth (renderItems (depth + 1) items)
  | .object fields => enclose '\x7b' '\x7d' depth (renderFields (depth + 1) fields)

/-- The items of a list, each laid out. -/
def renderItems (depth : Nat) : List Value → List Text
  | [] => []
  | item :: rest => item.render depth :: renderItems depth rest

/-- The fields of an object, each laid out behind its name. -/
def renderFields (depth : Nat) : List (String × Value) → List Text
  | [] => []
  | (name, value) :: rest =>
      (quote name.toList ++ [':', ' '] ++ value.render depth) :: renderFields depth rest

end

end Phrasing.Json
