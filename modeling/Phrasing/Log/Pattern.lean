import Phrasing.Text.Alphanumeric
import Phrasing.Text.Hexadecimal

/-!
# `Phrasing.Log.Pattern` — regular expressions for the values of fields

A rule of a filter may ask for the value of a field by a pattern. This program logs nothing inside
of named stretches, so no value is ever compared with one, and all that counts of a pattern is
whether it is well-formed: it is read to its end, and what it consists of is dropped but for how
deeply it is nested. A pattern stands in braces, so it holds no closing brace, and repetitions with a
count cannot be written.

## Contents
- **`Modes`**: how the text of a pattern is read.
- **`Sign`**, **`readSign?`**: what a character or an escape stands for.
- **`Bracket`**, **`readBracket?`**: classes of characters in square brackets.
- **`Sequence`**, **`Group`**, **`Reading`**: the parts of a pattern, and the groups around them.
- **`isWellFormed`**: whether a text is a pattern.
-/

namespace Phrasing.Pattern

/-- How deeply a pattern may be nested. -/
def nestingLimit : Nat := 250

/-! ## Modes -/

/-- How a part of a pattern is read. -/
structure Modes where
  /-- Whether blanks and comments are passed over. -/
  spacious : Bool := false
  /-- Whether characters are matched, and not bytes. -/
  unicode : Bool := true
deriving Repr, DecidableEq

/-- The text behind blanks and comments. A comment goes from a number sign to the end of its
    line. -/
def skipSpace (inComment : Bool) : Text → Text
  | [] => []
  | c :: rest =>
      if inComment then skipSpace (c != '\n') rest
      else if c == '#' then skipSpace true rest
      else if Text.isBlank c then skipSpace false rest
      else c :: rest

namespace Modes

/-- The text at the next character that counts. -/
def settle (modes : Modes) (s : Text) : Text := if modes.spacious then skipSpace false s else s

/-- The character that decides whether the hyphen in front of the text makes a range. Of a comment
    only the number sign is passed over here. -/
def decider? (modes : Modes) (s : Text) : Option Char :=
  if modes.spacious then
    match s.dropWhile Text.isBlank with
    | '#' :: rest => (rest.dropWhile Text.isBlank).head?
    | rest => rest.head?
  else s.head?

/-- The modes after letters switch some on and, behind a hyphen, some off. -/
def switch (modes : Modes) (letters : Text) : Modes :=
  let on := letters.takeWhile (· != '-')
  let off := letters.drop on.length
  { spacious := on.contains 'x' || (modes.spacious && !off.contains 'x')
    unicode := on.contains 'u' || (modes.unicode && !off.contains 'u') }

end Modes

/-! ## Signs -/

/-- What a character or an escape stands for. -/
inductive Sign
  /-- A character. Given by two hexadecimal digits, it is a byte where bytes are matched. -/
  | character (c : Char) (twoDigits : Bool)
  /-- The digits, the blanks or the characters of words; or all others. -/
  | family (negated : Bool)
  /-- The characters of a Unicode category, or all others. -/
  | category
  /-- Any character. -/
  | wildcard
  /-- The start or the end of a text or a line. -/
  | edge
  /-- The start or the end of a word, or any place but these. -/
  | wordEdge
deriving Repr, DecidableEq

namespace Sign

/-- Whether a sign may be a part of a pattern. Where bytes are matched, it must not match a byte
    beyond ASCII; words are delimited only there. -/
def isPart (modes : Modes) : Sign → Bool
  | character c twoDigits => modes.unicode || !twoDigits || c.toNat < 0x80
  | family negated => modes.unicode || !negated
  | category => modes.unicode
  | wildcard => modes.unicode
  | edge => true
  | wordEdge => !modes.unicode

/-- Whether a sign may be a member of a class. -/
def isMember (modes : Modes) : Sign → Bool
  | character c _ => modes.unicode || c.toNat < 0x80
  | family negated => modes.unicode || !negated
  | category => modes.unicode
  | _ => false

end Sign

/-- So many hexadecimal digits, and the text behind them. -/
def readDigits? (modes : Modes) : Nat → Text → Option (Text × Text)
  | 0, s => some ([], s)
  | count + 1, s =>
      match modes.settle s with
      | [] => none
      | c :: rest => do
          let (digits, rest) ← readDigits? modes count rest
          return (c :: digits, rest)

/-- The character whose code point is given by so many hexadecimal digits, and the text behind. -/
def readCode? (modes : Modes) (count : Nat) (s : Text) : Option (Sign × Text) := do
  let (digits, rest) ← readDigits? modes count s
  let code ← Text.hexValue? digits
  if code.isValidChar then return (.character (Char.ofNat code) (count == 2), rest) else none

/-- The Unicode category that is named by the first letter of the text, and the text behind. -/
def readCategory? (modes : Modes) (s : Text) : Option (Sign × Text) :=
  match modes.settle s with
  | c :: rest => if "clmnpsz".toList.contains c.toLower then some (.category, rest) else none
  | [] => none

/-- The sign of an escape, from the text behind the backslash, and the text behind the escape.
    Letters that stand for nothing, digits and characters beyond ASCII cannot be escaped. -/
def readEscape? (modes : Modes) : Text → Option (Sign × Text)
  | [] => none
  | c :: rest =>
      match c with
      | 'x' => readCode? modes 2 rest
      | 'u' => readCode? modes 4 rest
      | 'U' => readCode? modes 8 rest
      | 'p' | 'P' => readCategory? modes rest
      | 'd' | 's' | 'w' => some (.family false, rest)
      | 'D' | 'S' | 'W' => some (.family true, rest)
      | 'A' | 'z' => some (.edge, rest)
      | 'b' | 'B' | '<' | '>' => some (.wordEdge, rest)
      | 'a' => some (.character '\x07' false, rest)
      | 'f' => some (.character '\x0c' false, rest)
      | 'n' => some (.character '\n' false, rest)
      | 'r' => some (.character '\r' false, rest)
      | 't' => some (.character '\t' false, rest)
      | 'v' => some (.character '\x0b' false, rest)
      | _ => if c.toNat < 0x80 && !c.isAlphanum then some (.character c false, rest) else none

/-- The sign that the text begins with, outside of brackets, and the text behind it. -/
def readSign? (modes : Modes) : Text → Option (Sign × Text)
  | [] => none
  | '\\' :: rest => readEscape? modes rest
  | '.' :: rest => some (.wildcard, rest)
  | '^' :: rest => some (.edge, rest)
  | '$' :: rest => some (.edge, rest)
  | c :: rest => some (.character c false, rest)

/-! ## Brackets -/

/-- What has been read of a class in square brackets. -/
structure Bracket where
  /-- How many members have come since the last operator. -/
  members : Nat := 0
  /-- How deeply they are nested. -/
  depth : Nat := 0
  /-- How deeply all before the last operator is nested, if there has been one. -/
  operand : Option Nat := none
  /-- Whether there have been hyphens at most. They are members then, and so is a closing bracket
      in the first place. -/
  fresh : Bool := true
deriving Repr, DecidableEq

namespace Bracket

/-- The bracket with one more member, nested so deeply. -/
def insert (bracket : Bracket) (depth : Nat) : Bracket :=
  { bracket with
    members := bracket.members + 1
    depth := max bracket.depth depth
    fresh := false }

/-- How deeply the class is nested. Several members together are a level, and so is an operator. -/
def nesting (bracket : Bracket) : Nat :=
  let members := if bracket.members ≤ 1 then bracket.depth else bracket.depth + 1
  match bracket.operand with
  | some operand => max operand members + 1
  | none => members

/-- The bracket behind an operator. -/
def operate (bracket : Bracket) : Bracket := { operand := some bracket.nesting, fresh := false }

end Bracket

/-- Names of classes of ASCII characters. -/
def classNames : List String :=
  ["alnum", "alpha", "ascii", "blank", "cntrl", "digit", "graph", "lower", "print", "punct",
    "space", "upper", "word", "xdigit"]

/-- Whether a class named in colons is negated, and the text behind it, from the text behind its
    opening bracket. -/
def readNamedClass? : Text → Option (Bool × Text)
  | ':' :: s =>
      let negated := s.head? == some '^'
      let s := if negated then s.drop 1 else s
      let name := s.takeWhile (· != ':')
      match s.drop name.length with
      | ':' :: ']' :: rest =>
          if classNames.contains (String.ofList name) then some (negated, rest) else none
      | _ => none
  | _ => none

/-- The text behind the start of a class, from the text behind its opening bracket. Where bytes are
    matched, the complement of a class would match bytes beyond ASCII. -/
def openBracket? (modes : Modes) (s : Text) : Option Text :=
  match modes.settle s with
  | '^' :: rest => if modes.unicode then some rest else none
  | rest => some rest

/-- A sign inside of brackets, and the text behind it. -/
def readMember? (modes : Modes) : Text → Option (Sign × Text)
  | [] => none
  | '\\' :: rest => readEscape? modes rest
  | c :: rest => some (.character c false, rest)

/-- Whether two signs are the ends of a range. -/
def isRange (modes : Modes) (first last : Sign) : Bool :=
  match first, last with
  | .character c _, .character d _ => first.isMember modes && last.isMember modes && c ≤ d
  | _, _ => false

/-- The text behind a member of a class, which is a sign or a range. A hyphen makes a range unless a
    closing bracket or another hyphen comes next. -/
def skipMember? (modes : Modes) (s : Text) : Option Text := do
  let (first, rest) ← readMember? modes s
  let rest := modes.settle rest
  match rest with
  | '-' :: behind =>
      if modes.decider? behind == some ']' || modes.decider? behind == some '-' then
        if first.isMember modes then some rest else none
      else do
        let (last, rest) ← readMember? modes (modes.settle behind)
        if isRange modes first last then some rest else none
  | _ => if first.isMember modes then some rest else none

/-- How deeply a class is nested, and the text behind it. Classes around it are still open, the
    innermost first. -/
def readBracket? (modes : Modes) : Nat → Bracket → List Bracket → Text → Option (Nat × Text)
  | 0, _, _, _ => none
  | bound + 1, bracket, outer, s =>
      match modes.settle s with
      | [] => none
      | c :: rest =>
          if bracket.fresh && (c == '-' || (c == ']' && bracket.members == 0)) then
            readBracket? modes bound { bracket.insert 0 with fresh := c == '-' } outer rest
          else
            match c, rest with
            | '[', _ =>
                match readNamedClass? rest with
                | some (negated, rest) =>
                    if negated && !modes.unicode then none
                    else readBracket? modes bound (bracket.insert 0) outer rest
                | none => do
                    let rest ← openBracket? modes rest
                    readBracket? modes bound {} (bracket :: outer) rest
            | ']', _ =>
                match outer with
                | [] => some (bracket.nesting + 1, rest)
                | parent :: outer =>
                    readBracket? modes bound (parent.insert (bracket.nesting + 1)) outer rest
            | '&', '&' :: rest => readBracket? modes bound bracket.operate outer rest
            | '-', '-' :: rest => readBracket? modes bound bracket.operate outer rest
            | '~', '~' :: rest => readBracket? modes bound bracket.operate outer rest
            | _, _ => do
                let rest ← skipMember? modes (c :: rest)
                readBracket? modes bound (bracket.insert 0) outer rest

/-! ## Sequences and groups -/

/-- Parts of a pattern, one behind the other. -/
structure Sequence where
  parts : Nat := 0
  /-- How deeply they are nested. -/
  depth : Nat := 0
  /-- How deeply the last of them is nested, if it is one that can be repeated. -/
  last : Option Nat := none
deriving Repr, DecidableEq

namespace Sequence

/-- The sequence with one more part, nested so deeply. -/
def append (sequence : Sequence) (depth : Nat) : Sequence :=
  { parts := sequence.parts + 1, depth := max sequence.depth depth, last := some depth }

/-- The sequence with a part that only switches modes, which cannot be repeated. -/
def appendSwitch (sequence : Sequence) : Sequence :=
  { sequence with parts := sequence.parts + 1, last := none }

/-- The sequence with its last part repeated. -/
def repeatLast? (sequence : Sequence) : Option Sequence := do
  let depth ← sequence.last
  return { sequence with depth := max sequence.depth (depth + 1), last := some (depth + 1) }

/-- How deeply the sequence is nested. Several parts together are a level. -/
def nesting (sequence : Sequence) : Nat :=
  if sequence.parts ≤ 1 then sequence.depth else sequence.depth + 1

end Sequence

/-- What has been read of a group. -/
structure Group where
  modes : Modes := {}
  sequence : Sequence := {}
  /-- How deeply the alternatives before the last bar are nested, if there has been one. -/
  alternatives : Option Nat := none
deriving Repr, DecidableEq

namespace Group

/-- The group with one more part, nested so deeply. -/
def append (group : Group) (depth : Nat) : Group :=
  { group with sequence := group.sequence.append depth }

/-- The group with other modes for what is left of it. -/
def switch (group : Group) (modes : Modes) : Group :=
  { group with modes := modes, sequence := group.sequence.appendSwitch }

/-- The group behind a bar. -/
def branch (group : Group) : Group :=
  { group with
    sequence := {}
    alternatives := some (max (group.alternatives.getD 0) group.sequence.nesting) }

/-- How deeply what is in the group is nested. Alternatives are a level. -/
def nesting (group : Group) : Nat :=
  match group.alternatives with
  | some depth => max depth group.sequence.nesting + 1
  | none => group.sequence.nesting

end Group

/-- What has been read of a pattern. -/
structure Reading where
  /-- The group in which the reading stands; the whole pattern is one. -/
  group : Group := {}
  /-- The groups around it, the innermost first. -/
  outer : List Group := []
  /-- The names of groups so far. -/
  names : List Text := []
deriving Repr, DecidableEq

/-- Whether a text may name a group. -/
def isName : Text → Bool
  | [] => false
  | c :: rest =>
      (c == '_' || Text.isAlphabetic c) &&
        rest.all fun d => "_.[]".toList.contains d || Text.isAlphanumeric d

/-- Whether letters, and a hyphen, say which modes to switch. Modes that do not bear on how a
    pattern is read have letters, too. -/
def isSwitch (letters : Text) : Bool :=
  letters.all (fun c => "imsUuRx-".toList.contains c && letters.count c == 1) &&
    letters.getLast? != some '-'

namespace Reading

/-- The reading inside of a new group. -/
def openGroup (reading : Reading) (modes : Modes) : Reading :=
  { reading with group := { modes := modes }, outer := reading.group :: reading.outer }

/-- The reading inside of a new group with a name, from the text at the name. -/
def openNamed? (reading : Reading) (s : Text) : Option (Reading × Text) :=
  let name := s.takeWhile (· != '>')
  match s.drop name.length with
  | '>' :: rest =>
      if isName name && !reading.names.contains name then
        some ({ reading.openGroup reading.group.modes with names := name :: reading.names }, rest)
      else none
  | _ => none

/-- The reading with modes switched, in a new group or in what is left of this one, from the text at
    the letters. -/
def openSwitch? (reading : Reading) (s : Text) : Option (Reading × Text) :=
  let letters := s.takeWhile fun c => c != ':' && c != ')'
  let modes := reading.group.modes.switch letters
  if !isSwitch letters then none
  else
    match s.drop letters.length with
    | ':' :: rest => some (reading.openGroup modes, rest)
    | ')' :: rest =>
        if letters.isEmpty then none
        else some ({ reading with group := reading.group.switch modes }, rest)
    | _ => none

/-- The reading behind an opening parenthesis and what belongs to it. -/
def open? (reading : Reading) (s : Text) : Option (Reading × Text) :=
  match reading.group.modes.settle s with
  | '?' :: 'P' :: '<' :: rest => reading.openNamed? rest
  | '?' :: '<' :: rest => reading.openNamed? rest
  | '?' :: rest => reading.openSwitch? rest
  | rest => some (reading.openGroup reading.group.modes, rest)

/-- The reading behind a closing parenthesis. The group is a part of the one around it. -/
def close? (reading : Reading) : Option Reading :=
  match reading.outer with
  | [] => none
  | parent :: outer =>
      some { reading with group := parent.append (reading.group.nesting + 1), outer := outer }

/-- The reading with its last part repeated, and the text behind the sign of repetition. A question
    mark behind it belongs to it. -/
def repeat? (reading : Reading) (s : Text) : Option (Reading × Text) := do
  let sequence ← reading.group.sequence.repeatLast?
  let group := { reading.group with sequence := sequence }
  return ({ reading with group := group }, if s.head? == some '?' then s.drop 1 else s)

/-- The reading behind one more part, bar or parenthesis, and the text behind that. -/
def step? (reading : Reading) (s : Text) : Option (Reading × Text) :=
  let modes := reading.group.modes
  match s with
  | '(' :: rest => reading.open? rest
  | ')' :: rest => reading.close?.map (·, rest)
  | '|' :: rest => some ({ reading with group := reading.group.branch }, rest)
  | '?' :: rest => reading.repeat? rest
  | '*' :: rest => reading.repeat? rest
  | '+' :: rest => reading.repeat? rest
  -- This would be the start of a count.
  | '\x7b' :: _ => none
  | '[' :: rest => do
      let rest ← openBracket? modes rest
      let (depth, rest) ← readBracket? modes (rest.length + 1) {} [] rest
      return ({ reading with group := reading.group.append depth }, rest)
  | s => do
      let (sign, rest) ← readSign? modes s
      if sign.isPart modes then
        return ({ reading with group := reading.group.append 0 }, rest)
      else none

/-- The reading at the end of the text. Each step takes a character or more. -/
def finish? : Nat → Reading → Text → Option Reading
  | 0, _, _ => none
  | bound + 1, reading, s =>
      match reading.group.modes.settle s with
      | [] => some reading
      | c :: rest => do
          let (reading, rest) ← reading.step? (c :: rest)
          finish? bound reading rest

end Reading

/-- Whether a text is a pattern: it can be read to its end, all groups are closed there, and it is
    not nested too deeply. -/
def isWellFormed (s : Text) : Bool :=
  match Reading.finish? (s.length + 1) {} s with
  | some reading => reading.outer.isEmpty && reading.group.nesting ≤ nestingLimit
  | none => false

end Phrasing.Pattern
