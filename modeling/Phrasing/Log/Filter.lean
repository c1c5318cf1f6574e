import Phrasing.Log
import Phrasing.Log.Pattern
import Phrasing.Text.Pieces

/-!
# `Phrasing.Log.Filter` — which entries of the log are shown

A filter is a list of rules, written with commas between them. A rule sets a threshold for the
entries from some part of the program, or for all: `warn`, `utterance_expander=debug`,
`utterance_expander::corpus`. It may ask for a field, as in `[{count}]=debug`, or for one with a
value that matches a pattern. For each entry the most specific rule that applies to it decides.

## Contents
- **`Threshold`**, **`Threshold.admits`**.
- **`FilterRule`**, **`FilterRule.read`**: a rule and its written form.
- **`LogFilter`**, **`LogFilter.read`**, **`LogFilter.admits`**: all rules, and their verdict on an
  entry.
- **`FilterFault`**: what can be wrong with the written form.
-/

namespace Phrasing

/-- The gravest levels come first. -/
def Level.rank : Level → Nat
  | error => 1
  | warn => 2
  | info => 3
  | debug => 4
  | trace => 5

/-- The least grave level that is shown; none if no level is. -/
abbrev Threshold : Type := Option Level

/-- Whether a threshold lets a level through. -/
def Threshold.admits (threshold : Threshold) (level : Level) : Bool :=
  match threshold with
  | some least => level.rank ≤ least.rank
  | none => false

namespace LogFilter

/-- The thresholds by name; each may also be given by its place in this list. -/
def thresholds : List (String × Threshold) :=
  [("off", none), ("error", some .error), ("warn", some .warn), ("info", some .info),
    ("debug", some .debug), ("trace", some .trace)]

/-- The number that a text is, if it is one: digits, maybe behind a plus sign. -/
def readPlace? (s : Text) : Option Nat :=
  let digits := match s with
    | '+' :: rest => rest
    | _ => s
  if digits.isEmpty || !digits.all Char.isDigit then none
  else some (digits.foldl (fun n c => 10 * n + (c.toNat - '0'.toNat)) 0)

/-- A threshold by name, in any letter case, or by place. -/
def readThreshold? (s : Text) : Option Threshold :=
  match readPlace? s with
  | some place => (thresholds[place]?).map (·.2)
  | none => thresholds.lookup (String.ofList (s.map Char.toLower))

/-- The threshold behind an equals sign. Where none is written, everything is shown. -/
def readLimit? (s : Text) : Option Threshold :=
  if s.isEmpty then some (some .trace) else readThreshold? s

/-- Whether a part of the program may be named by a text that begins like this. -/
def startsTarget (c : Char) : Bool :=
  Text.isAlphanumeric c || c == '-' || c == ':' || c == '_'

/-- Whether a text is the exponent of a number, or empty. -/
def isExponent : Text → Bool
  | [] => true
  | c :: rest =>
      let digits := if rest.head? == some '+' || rest.head? == some '-' then rest.drop 1 else rest
      c.toLower == 'e' && !digits.isEmpty && digits.all Char.isDigit

/-- Whether a text is a number without a sign, which may have a fraction and an exponent, or the
    name of what no digits can write. -/
def isUnsigned (s : Text) : Bool :=
  let rest := s.dropWhile Char.isDigit
  let fraction := if rest.head? == some '.' then rest.drop 1 else []
  let exponent := if rest.head? == some '.' then fraction.dropWhile Char.isDigit else rest
  let digits := s.takeWhile Char.isDigit ++ fraction.takeWhile Char.isDigit
  (!digits.isEmpty && isExponent exponent) ||
    ["inf", "infinity", "nan"].contains (String.ofList (s.map Char.toLower))

/-- Whether a text says which values of a field are meant. Truth values and numbers mean themselves,
    all else is a pattern; but only with a plus sign in front a number is no pattern as well. -/
def isRequest : Text → Bool
  | '+' :: s => isUnsigned s
  | s => Pattern.isWellFormed s

end LogFilter

/-- What can be wrong with the written form of a filter. -/
inductive FilterFault
  /-- It is none. -/
  | illFormed
  /-- A part would have to be cut out inside a character. -/
  | misplacedCut
deriving Repr, DecidableEq

/-- A rule of a filter. -/
structure FilterRule where
  /-- How the names of the parts begin that it applies to. -/
  target : Option Text := none
  /-- A field that an entry has to have. -/
  field : Option Text := none
  /-- Whether it applies only within named stretches of a run, or to certain values. This program
      has no entries like that. -/
  confined : Bool := false
  threshold : Threshold := some .trace
deriving Repr, DecidableEq

namespace FilterRule

open LogFilter

/-- The part between two byte offsets of a rule. -/
def cut (content : Text) (start stop : Nat) : Except FilterFault Text :=
  match Text.excerpt? content start stop with
  | some part => .ok part
  | none => .error .misplacedCut

/-- The rule with the threshold behind its conditions, if one is written there, from the layout of
    the text from an offset on. -/
def readLimited (rule : FilterRule) (content layout : Text) (offset : Nat) :
    Except FilterFault FilterRule :=
  match layout with
  | [] => .ok rule
  | '=' :: _ => do
      let limit ← cut content (offset + 1) (Text.byteSize content)
      match readLimit? limit with
      | some threshold => .ok { rule with threshold := threshold }
      | none => .error .illFormed
  | _ => .error .illFormed

/-- The rule with a field to ask for, which is given by its name, maybe with a value behind an
    equals sign. Nothing behind a second equals sign counts. -/
def readField (rule : FilterRule) (written : Text) : Except FilterFault FilterRule :=
  match Text.pieces '=' written with
  | name :: value :: _ =>
      if isRequest value then .ok { rule with field := some name, confined := true }
      else .error .illFormed
  | _ => if written.isEmpty then .error .illFormed else .ok { rule with field := some written }

/-- The rule with the conditions in square brackets at the start of the layout: the name of a
    stretch, a field in braces, or both. -/
def readConditions (rule : FilterRule) (content layout : Text) (offset : Nat) :
    Except FilterFault FilterRule := do
  let name := (layout.drop 1).takeWhile fun c => c != ']' && c != '\x7b'
  let behindName := offset + 1 + Text.byteSize name
  match layout.drop (1 + name.length) with
  | ']' :: rest => do
      let _ ← cut content (offset + 1) behindName
      readLimited { rule with confined := true } content rest (behindName + 1)
  | '\x7b' :: rest => do
      let _ ← cut content (offset + 1) behindName
      let field := rest.takeWhile (· != '\x7d')
      let behindField := behindName + 1 + Text.byteSize field
      match rest.drop field.length with
      | '\x7d' :: rest => do
          let written ← cut content (behindName + 1) behindField
          let rule ← readField { rule with confined := !name.isEmpty } written
          match rest with
          | ']' :: rest => readLimited rule content rest (behindField + 2)
          | _ => .error .illFormed
      | _ => .error .illFormed
  | _ => .error .illFormed

/-- The rule of a text. What it consists of shows in its layout, the text without the blanks at its
    ends, but the parts are cut out of the whole text, at the same offsets. -/
def read (content : Text) : Except FilterFault FilterRule :=
  let layout := Text.trim content
  match layout with
  | [] => .error .illFormed
  | c :: _ =>
      if c == '[' then readConditions {} content layout 0
      else if startsTarget c then
        let target := layout.takeWhile fun d => d != '=' && d != '['
        let offset := Text.byteSize target
        match layout.drop target.length with
        | [] =>
            match readThreshold? content with
            | some threshold => .ok { threshold := threshold }
            | none => .ok { target := some content }
        | '=' :: rest => do
            let target ← cut content 0 offset
            readLimited { target := some target } content ('=' :: rest) offset
        | rest => do
            let target ← cut content 0 offset
            readConditions { target := some target } content rest offset
      else .error .illFormed

/-- Whether a rule applies to an entry. The message of an entry counts as one of its fields. -/
def appliesTo (rule : FilterRule) (notice : Notice) : Bool :=
  !rule.confined &&
    (match rule.target with
      | some target => target.isPrefixOf notice.origin.toList
      | none => true) &&
    (match rule.field with
      | some field => ("message" :: notice.fields.map (·.1)).contains (String.ofList field)
      | none => true)

/-- Whether the first rule is at least as specific as the second: a longer target is, then the one
    that asks for a field, and then the one whose field comes later in the alphabet. -/
def atLeastAsSpecific (first second : FilterRule) : Bool :=
  let length := fun rule : FilterRule => (rule.target.map Text.byteSize).getD 0
  if length first = length second then
    match first.field, second.field with
    | _, none => true
    | none, some _ => false
    | some a, some b => decide (String.ofList b ≤ String.ofList a)
  else length second < length first

end FilterRule

/-- The rules of a filter, as they are written. -/
structure LogFilter where
  rules : List FilterRule
deriving Repr, DecidableEq

namespace LogFilter

/-- The rules of a text. Empty rules are passed over; the first fault settles the matter. -/
def read (s : Text) : Except FilterFault LogFilter := do
  return ⟨← ((Text.pieces ',' s).filter (!·.isEmpty)).mapM FilterRule.read⟩

/-- The filter of a program that is asked to tell everything, or only what matters. -/
def standard (verbose : Bool) : LogFilter :=
  let threshold : Threshold := if verbose then some .trace else some .info
  ⟨[{ target := some "utterance_expander".toList, threshold := threshold }]⟩

/-- The filter asked for, or the standard one where none is asked for that makes sense. There is no
    filter at all if the one asked for cannot be cut into its parts. -/
def ofRequest? (asked : Option Text) (verbose : Bool) : Option LogFilter :=
  match asked with
  | none => some (standard verbose)
  | some written =>
      match read written with
      | .ok filter => some filter
      | .error .illFormed => some (standard verbose)
      | .error .misplacedCut => none

/-- The rule that decides about an entry: of the most specific ones that apply, the last. -/
def deciding? (filter : LogFilter) (notice : Notice) : Option FilterRule :=
  (filter.rules.filter (·.appliesTo notice)).foldl
    (fun best rule =>
      match best with
      | some other => if rule.atLeastAsSpecific other then some rule else some other
      | none => some rule)
    none

/-- Whether an entry is shown. A filter without rules shows errors. -/
def admits (filter : LogFilter) (notice : Notice) : Bool :=
  -- Rules that can never apply count here, too: with them alone nothing is shown.
  if filter.rules.isEmpty then Threshold.admits (some .error) notice.level
  else
    match filter.deciding? notice with
    | some rule => rule.threshold.admits notice.level
    | none => false

end LogFilter

end Phrasing
