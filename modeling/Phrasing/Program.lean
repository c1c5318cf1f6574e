import Phrasing.CommandLine
import Phrasing.CommandLine.Usage
import Phrasing.Log.Filter

/-!
# `Phrasing.Program` — the program as a whole

A run of the program depends on its arguments, on the filter that is asked for and on the files, and
on nothing else. It writes its result, logs what the filter admits, and ends with an exit code.
That the result cannot be written, to a full disk or a closed pipe, is outside.

## Contents
- **`Ending`**: what a run comes to.
- **`Invocation.run`**: the run that an invocation asks for.
- **`Ending.diagnostics`**: what is shown apart from the result.
-/

namespace Phrasing

/-- What a run of the program comes to. -/
structure Ending where
  /-- Zero if all went well, one if a command failed, two if the arguments make no sense, and 101 if
      the program breaks off before the command, over its filter. -/
  code : Nat
  written : Text := []
  /-- What is shown of the log. -/
  log : List Notice := []
  complaint : Option Complaint := none
deriving Repr, DecidableEq

/-- The first line that is shown of a complaint. -/
def Complaint.headline (complaint : Complaint) : Text :=
  "Error: ".toList ++ (complaint.chain.headD []).takeWhile (· != '\n')

/-- What an outcome comes to under a filter. -/
def Outcome.ending (outcome : Outcome) (filter : LogFilter) : Ending :=
  { code := if outcome.complaint.isSome then 1 else 0
    written := outcome.written
    log := outcome.notices.filter filter.admits
    complaint := outcome.complaint }

/-- The run that an invocation asks for. The filter may be asked for by its written form. -/
def Invocation.run (invocation : Invocation) (askedFilter : Option Text) (files : Files) : Ending :=
  match invocation with
  | perform command verbose =>
      match LogFilter.ofRequest? askedFilter verbose with
      | some filter => (command.run files).ending filter
      | none => { code := 101 }
  | explain scope => { code := 0, written := scope.usage }
  | showVersion => { code := 0, written := CommandLine.versionLine }
  | refuse => { code := 2 }

/-- The paths that a run looks at. -/
def Invocation.paths : Invocation → List Text
  | perform command _ => command.paths
  | _ => []

/-! ## Diagnostics -/

/-- A complaint as it is shown: its headline in full, and what lies behind it. -/
def Complaint.report (complaint : Complaint) : Text :=
  match complaint.chain with
  | [] => []
  | [message] => Text.lines ["Error: ".toList ++ message]
  | [message, cause] =>
      Text.lines ["Error: ".toList ++ message, [], "Caused by:".toList, "    ".toList ++ cause]
  | message :: causes =>
      Text.lines (("Error: ".toList ++ message) :: [] :: "Caused by:".toList ::
        causes.mapIdx fun index cause =>
          "    ".toList ++ Text.ofNat index ++ ':' :: ' ' :: cause)

/-- What is shown of a run apart from its result: the log, and why it failed if it did. Arguments
    that make no sense get one line, whatever is wrong with them: the exit code tells them apart
    from other failures, and the line does not say which argument it was. -/
def Ending.diagnostics (ending : Ending) : Text :=
  Text.lines (ending.log.map Notice.line) ++
    (match ending.complaint with
      | some complaint => complaint.report
      | none => []) ++
    if ending.code = 2 then
      Text.lines ["error: the arguments make no sense; try '--help'".toList]
    else if ending.code = 101 then
      Text.lines ["error: the filter cannot be cut inside a character".toList]
    else []

end Phrasing
