import Phrasing.Document
import Phrasing.Text.Hexadecimal

/-!
# `Phrasing.Document.Json` — reading JSON

A reader for JSON texts. White space is the space, the tabulator, the line feed and the carriage
return; nothing may follow the value. Names of an object may repeat. A string may hold a surrogate
without its partner as long as nobody asks for its text.

## Contents
- **`readString?`**, **`skipNumber?`**: the scalars.
- **`readValue?`**, **`readItems?`**, **`readEntries?`**: values, by recursion on a bound for the
  number of steps.
- **`readDocument?`**: the value of a whole text.
-/

namespace Phrasing.Json

/-- White space between tokens. -/
def isSpace (c : Char) : Bool := c == ' ' || c == '\t' || c == '\n' || c == '\r'

/-- The text behind its leading white space. -/
def skipSpace (s : Text) : Text := s.dropWhile isSpace

/-! ## Strings -/

/-- The unit behind the mark of a numeric escape, and the text after it. -/
def readUnit? (s : Text) : Option (Nat × Text) := do
  if s.length < 4 then none
  else return (← Text.hexValue? (s.take 4), s.drop 4)

/-- The character that a one-letter escape stands for. -/
def shortEscape? : Char → Option Char
  | '"' => some '"'
  | '\\' => some '\\'
  | '/' => some '/'
  | 'b' => some '\x08'
  | 'f' => some '\x0c'
  | 'n' => some '\n'
  | 'r' => some '\r'
  | 't' => some '\t'
  | _ => none

/-- Whether a unit is the first, or the second, of a surrogate pair. -/
def isLeading (unit : Nat) : Bool := 0xD800 ≤ unit && unit ≤ 0xDBFF

/-- Whether a unit is the second of a surrogate pair. -/
def isTrailing (unit : Nat) : Bool := 0xDC00 ≤ unit && unit ≤ 0xDFFF

/-- The character of a numeric escape and the text after it. A unit that is half a surrogate pair
    without the other half has no character. -/
def readEscape? (s : Text) : Option (Option Char × Text) := do
  let (unit, rest) ← readUnit? s
  if isLeading unit then
    match rest with
    | '\\' :: 'u' :: next => do
        let (second, after) ← readUnit? next
        if isTrailing second then
          return (some (Char.ofNat (0x10000 + (unit - 0xD800) * 0x400 + (second - 0xDC00))), after)
        else return (none, rest)
    | _ => return (none, rest)
  else if isTrailing unit then return (none, rest)
  else return (some (Char.ofNat unit), rest)

/-- The string that goes on with the text, up to its closing quote, and the text after that. An
    ill-formed string has no text. -/
def readString? : Nat → Text → Option (Option Text × Text)
  | 0, _ => none
  | _, [] => none
  | _, '"' :: rest => some (some [], rest)
  | bound + 1, '\\' :: 'u' :: rest => do
      let (c, after) ← readEscape? rest
      let (tail, final) ← readString? bound after
      return (do return (← c) :: (← tail), final)
  | bound + 1, '\\' :: c :: rest => do
      let d ← shortEscape? c
      let (tail, final) ← readString? bound rest
      return (tail.map (d :: ·), final)
  | bound + 1, c :: rest =>
      if c.toNat < 0x20 then none
      else do
        let (tail, final) ← readString? bound rest
        return (tail.map (c :: ·), final)

/-! ## Numbers and words -/

/-- The text behind one digit or more. -/
def skipDigits? (s : Text) : Option Text :=
  match s with
  | c :: _ => if c.isDigit then some (s.dropWhile Char.isDigit) else none
  | [] => none

/-- The text behind an exponent, if there is one. -/
def skipExponent? : Text → Option Text
  | c :: rest =>
      if c == 'e' || c == 'E' then
        match rest with
        | '+' :: digits => skipDigits? digits
        | '-' :: digits => skipDigits? digits
        | digits => skipDigits? digits
      else some (c :: rest)
  | [] => some []

/-- The text behind a fraction and an exponent, if there are any. -/
def skipFraction? : Text → Option Text
  | '.' :: digits => skipDigits? digits >>= skipExponent?
  | s => skipExponent? s

/-- The text behind an unsigned number. A leading zero stands alone. -/
def skipUnsigned? : Text → Option Text
  | '0' :: c :: rest => if c.isDigit then none else skipFraction? (c :: rest)
  | '0' :: [] => some []
  | s => skipDigits? s >>= skipFraction?

/-- The text behind a number. -/
def skipNumber? : Text → Option Text
  | '-' :: s => skipUnsigned? s
  | s => skipUnsigned? s

/-! ## Values -/

mutual

/-- The value that the text begins with, and the text after it. -/
def readValue? (bound : Nat) (s : Text) : Option (Datum × Text) :=
  match bound with
  | 0 => none
  | bound + 1 =>
      match skipSpace s with
      | '"' :: rest => do
          let (value, after) ← readString? (rest.length + 1) rest
          return ((value.map Datum.text).getD .other, after)
      | '[' :: rest =>
          match skipSpace rest with
          | ']' :: after => some (.list [], after)
          | _ => do
              let (items, after) ← readItems? bound rest
              return (.list items, after)
      | '\x7b' :: rest =>
          match skipSpace rest with
          | '\x7d' :: after => some (.map [], after)
          | _ => do
              let (entries, after) ← readEntries? bound rest
              return (.map entries, after)
      | 't' :: 'r' :: 'u' :: 'e' :: after => some (.other, after)
      | 'f' :: 'a' :: 'l' :: 's' :: 'e' :: after => some (.other, after)
      | 'n' :: 'u' :: 'l' :: 'l' :: after => some (.other, after)
      | number => (skipNumber? number).map (Datum.other, ·)

/-- The items of a list up to its closing bracket, and the text after that. -/
def readItems? (bound : Nat) (s : Text) : Option (List Datum × Text) :=
  match bound with
  | 0 => none
  | bound + 1 => do
      let (item, rest) ← readValue? bound s
      match skipSpace rest with
      | ',' :: next => do
          let (items, after) ← readItems? bound next
          return (item :: items, after)
      | ']' :: after => return ([item], after)
      | _ => none

/-- The entries of an object up to its closing brace, and the text after that. -/
def readEntries? (bound : Nat) (s : Text) : Option (List (Datum × Datum) × Text) :=
  match bound with
  | 0 => none
  | bound + 1 =>
      match skipSpace s with
      | '"' :: name => do
          let (key, rest) ← readString? (name.length + 1) name
          let key := (key.map Datum.text).getD .other
          match skipSpace rest with
          | ':' :: rest => do
              let (value, rest) ← readValue? bound rest
              match skipSpace rest with
              | ',' :: next => do
                  let (entries, after) ← readEntries? bound next
                  return ((key, value) :: entries, after)
              | '\x7d' :: after => return ([(key, value)], after)
              | _ => none
          | _ => none
      | _ => none

end

/-- The document of a JSON text. -/
def readDocument? (s : Text) : Option Document :=
  match readValue? (2 * s.length + 2) s with
  | some (root, rest) => if (skipSpace rest).isEmpty then some ⟨root, [], 0, true⟩ else none
  | none => none

end Phrasing.Json
