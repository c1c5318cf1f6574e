import Phrasing.Expansion.Worklist
import Phrasing.Log

/-!
# `Phrasing.Expansion.Session` — the ways to ask for an expansion

Three requests share one expansion. One reports the error that stopped it, one keeps what there is
and counts it, one starts a list of its own.

## Contents
- **`Mode`**, **`Setting.perform`**: a request and the reply to it.
- **`expandFreely`**: the sentences of a template under the default options.
- **`Session`**: requests in sequence, on one list of sentences and one recorder.
-/

namespace Phrasing

/-- How an expansion is asked for. -/
inductive Mode
  /-- Add to the list, and report the error that stops the expansion. -/
  | attempt
  /-- Add to the list as much as there is. -/
  | gather
  /-- Begin a new list with as much as there is. -/
  | fresh
deriving Repr, DecidableEq

/-- The reply to a request: the number of new sentences or the error, the list of sentences, and
    what is worth a log entry. -/
structure Reply where
  result : Except ExpansionError Nat
  output : Array Text
  notices : List Notice

/-- The events of an expansion that a reply tells. -/
def Reply.events (reply : Reply) : List Event := reply.notices.filterMap Notice.event?

namespace Run

/-- The notices of an expansion. -/
def notices (run : Run) : List Notice := run.events.toList.map .expansion

/-- The notices of an expansion that may not fail. -/
def noticesGathering (run : Run) (template : Text) : List Notice :=
  match run.error with
  | some error => run.notices ++ [.stoppedEarly template error]
  | none => run.notices

/-- The number of sentences behind the first `before`, or the error. -/
def result (run : Run) (before : Nat) : Except ExpansionError Nat :=
  match run.error with
  | some error => .error error
  | none => .ok (run.output.size - before)

end Run

/-- The reply to a request for an expansion. -/
def Setting.perform (setting : Setting) (mode : Mode) (template : Text) (output : Array Text) :
    Reply :=
  match mode with
  | .attempt =>
      let run := setting.expand template output
      ⟨run.result output.size, run.output, run.notices⟩
  | .gather =>
      let run := setting.expand template output
      ⟨.ok (run.output.size - output.size), run.output, run.noticesGathering template⟩
  | .fresh =>
      let run := setting.expand template #[]
      ⟨.ok run.output.size, run.output, run.noticesGathering template⟩

/-- The sentences of a template under the default options. -/
def expandFreely (template : Text) (vars : Variables) : Array Text :=
  (Setting.perform ⟨vars, {}⟩ .fresh template #[]).output

/-! ## Sessions -/

/-- The list of sentences so far and all recorded events. -/
structure Session where
  output : Array Text
  recorded : List Event
deriving Repr, DecidableEq

/-- The recorded events that are warnings. -/
def Session.warnings (session : Session) : List Event := session.recorded.filter Event.isWarning

/-- Takes the next request of a session. -/
def Session.perform (session : Session) (setting : Setting) (mode : Mode) (template : Text) :
    Session × Reply :=
  let reply := setting.perform mode template session.output
  (⟨reply.output, session.recorded ++ reply.events⟩, reply)

/-- Takes requests in sequence; the replies come with the session after each. -/
def Session.performAll (session : Session) (setting : Setting) :
    List (Mode × Text) → List (Session × Reply)
  | [] => []
  | (mode, template) :: rest =>
      let next := session.perform setting mode template
      next :: next.1.performAll setting rest

end Phrasing
