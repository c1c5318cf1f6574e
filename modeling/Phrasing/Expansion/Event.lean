import Phrasing.Template.Rule

/-!
# `Phrasing.Expansion.Event` — what an expansion reports

Every step of an expansion is told as an event. Events do not influence the expansion; they are a
ledger of it.
-/

namespace Phrasing

/-- How grave a report is. -/
inductive Level
  | trace
  | debug
  | info
  | warn
  | error
deriving Repr, DecidableEq

/-- Name of a level in reports. -/
def Level.name : Level → String
  | trace => "trace"
  | debug => "debug"
  | info => "info"
  | warn => "warn"
  | error => "error"

/-- Something that happened in an expansion. -/
inductive Event
  /-- A text gave way to this many variants. -/
  | varied (rule : Rule) (fragment : Text) (variants : Nat)
  /-- A text is a sentence. -/
  | emitted (rule : Rule) (sentence : Text)
  /-- A text fits no rule and was dropped. -/
  | unrecognized (fragment : Text)
  /-- A variable without a value was taken as empty. -/
  | undefinedVariable (name fragment : Text)
  /-- The expansion of a template stopped at the limit of substitutions. -/
  | limitReached (limit : Nat) (template : Text)
deriving Repr, DecidableEq

namespace Event

/-- Progress is traced; what drops, empties or stops something is a warning. -/
def level : Event → Level
  | varied .. => .trace
  | emitted .. => .trace
  | unrecognized _ => .warn
  | undefinedVariable .. => .warn
  | limitReached .. => .warn

/-- Whether an event is a warning. -/
def isWarning (event : Event) : Bool := event.level == .warn

/-- The sentence that an event reports. -/
def sentence? : Event → Option Text
  | emitted _ sentence => some sentence
  | _ => none

end Event

end Phrasing
