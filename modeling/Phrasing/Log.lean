import Phrasing.Expansion.Event
import Phrasing.Failure

/-!
# `Phrasing.Log` — what is written to the log

## Contents
- **`Notice`**: everything worth a log entry, from single steps of an expansion to the totals of a
  corpus.
- **`Notice.level`**, **`Notice.message`**, **`Notice.fields`**, **`Notice.origin`**: its entry in
  the log. Filters select entries by level and by origin. **`Notice.line`** shows one.
- **`Observer`**: who listens to an expansion, and what becomes of its events.
-/

namespace Phrasing

/-- Something worth a log entry. -/
inductive Notice
  /-- A step of an expansion. -/
  | expansion (event : Event)
  /-- An expansion that may not fail stopped early. -/
  | stoppedEarly (template : Text) (error : ExpansionError)
  /-- A corpus was read from a file. -/
  | corpusLoaded (path : Text) (intents vars : Nat)
  /-- A template of an intent was expanded. -/
  | templateExpanded (intent template : Text) (count : Nat)
  /-- The only template was expanded. -/
  | loneTemplateExpanded (count : Nat)
  /-- A sentence of an intent has a slot that the intent does not define. -/
  | undefinedSlot (intent slot sentence : Text)
  /-- All of a corpus was expanded. -/
  | corpusExpanded (intents sentences : Nat)
deriving Repr, DecidableEq

/-- The value of a field of a log entry. -/
inductive FieldValue
  | text (value : Text)
  | number (value : Nat)
deriving Repr, DecidableEq

namespace Notice

/-- The event of an expansion that a notice is about. -/
def event? : Notice → Option Event
  | expansion event => some event
  | _ => none

/-- How grave a notice is. -/
def level : Notice → Level
  | expansion event => event.level
  | stoppedEarly .. => .warn
  | corpusLoaded .. => .debug
  | templateExpanded .. => .debug
  | loneTemplateExpanded _ => .debug
  | undefinedSlot .. => .warn
  | corpusExpanded .. => .info

/-- Message of a log entry. -/
def message : Notice → String
  | expansion (.varied ..) => "Rewrote fragment"
  | expansion (.emitted ..) => "Emitted sentence"
  | expansion (.unrecognized _) => "Can't grok fragment, dropping it"
  | expansion (.undefinedVariable ..) => "Undefined variable, substituting empty text"
  | expansion (.limitReached ..) =>
      "Variable substitution depth limit reached, expansion stopped"
  | stoppedEarly .. => "Expansion stopped early"
  | corpusLoaded .. => "Loaded corpus"
  | templateExpanded .. => "Expanded template"
  | loneTemplateExpanded _ => "Expanded template"
  | undefinedSlot .. => "Undefined slot referenced"
  | corpusExpanded .. => "Expanded corpus"

/-- Fields of a log entry. -/
def fields : Notice → List (String × FieldValue)
  | expansion (.varied rule fragment variants) =>
      [("rule", .text rule.name.toList), ("variants", .number variants),
        ("fragment", .text fragment)]
  | expansion (.emitted rule sentence) =>
      [("rule", .text rule.name.toList), ("sentence", .text sentence)]
  | expansion (.unrecognized fragment) => [("fragment", .text fragment)]
  | expansion (.undefinedVariable name fragment) =>
      [("variable", .text name), ("fragment", .text fragment)]
  | expansion (.limitReached limit template) =>
      [("limit", .number limit), ("template", .text template)]
  | stoppedEarly template error => [("template", .text template), ("error", .text error.message)]
  | corpusLoaded path intents vars =>
      [("path", .text path), ("intents", .number intents), ("variables", .number vars)]
  | templateExpanded intent template count =>
      [("intent", .text intent), ("template", .text template), ("count", .number count)]
  | loneTemplateExpanded count => [("count", .number count)]
  | undefinedSlot intent slot sentence =>
      [("intent", .text intent), ("slot", .text slot), ("sentence", .text sentence)]
  | corpusExpanded intents sentences =>
      [("intents", .number intents), ("sentences", .number sentences)]

/-- The part of the program that a log entry comes from, as filters name it. -/
def origin : Notice → String
  | expansion _ => "utterance_expander::observer"
  | stoppedEarly .. => "utterance_expander::expander"
  | corpusLoaded .. => "utterance_expander::corpus"
  | templateExpanded .. => "utterance_expander::corpus"
  | loneTemplateExpanded _ => "utterance_expander::commands::expand"
  | undefinedSlot .. => "utterance_expander::commands::corpus"
  | corpusExpanded .. => "utterance_expander::commands::corpus"

/-- A field of a log entry as it is shown. -/
def fieldText (field : String × FieldValue) : Text :=
  field.1.toList ++ '=' ::
    match field.2 with
    | .text value => value
    | .number value => Text.ofNat value

/-- A log entry as it is shown, in a line. It bears no time of day; level, origin, message and
    fields are what an entry consists of, and their layout is settled here. -/
def line (notice : Notice) : Text :=
  notice.level.name.toUpper.toList ++ ' ' :: notice.origin.toList ++ ':' :: ' ' ::
    notice.message.toList ++ notice.fields.flatMap fun field => ' ' :: fieldText field

end Notice

/-! ## Observers -/

/-- Who listens to an expansion. -/
inductive Observer
  /-- Nobody. -/
  | silent
  /-- A recorder, which keeps the events. -/
  | recording
  /-- The log. -/
  | tracing
deriving Repr, DecidableEq

namespace Observer

/-- What an observer keeps of the events. -/
def recorded (observer : Observer) (events : List Event) : List Event :=
  match observer with
  | recording => events
  | _ => []

/-- Whether a notice reaches the log. Events of an expansion do so only through the observer. -/
def logs (observer : Observer) (notice : Notice) : Bool :=
  observer == tracing || notice.event?.isNone

end Observer

end Phrasing
