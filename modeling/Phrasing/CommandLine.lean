import Phrasing.Command
import Phrasing.CommandLine.Use

/-!
# `Phrasing.CommandLine` — what a command line asks for

A command line names a command, with options in front of and behind its name. Arguments are taken in
order; the first that asks for help, or is refused, settles the matter.

## Contents
- **`Asked`**, **`Asked.take`**: what the arguments of one scope have asked for so far.
- **`Invocation`**, **`Invocation.ofArguments`**: what the whole command line asks for.
-/

namespace Phrasing

namespace CommandLine

/-- What the arguments of a scope have asked for so far. -/
structure Asked where
  operand : Option Text := none
  assignments : List Text := []
  variablesPath : Option Text := none
  depthLimit : Option Nat := none
  layout : Option Layout := none
  strict : Bool := false
  denyUndefinedSlots : Bool := false
  verbose : Bool := false
deriving Repr, DecidableEq

/-- Why arguments are not taken any further. -/
inductive Stop
  /-- Help is asked for. -/
  | help
  /-- The version is asked for. -/
  | version
  /-- They make no sense. -/
  | refused
deriving Repr, DecidableEq

/-- The least number that does not fit into 64 bits. -/
def numberBound : Nat := 18446744073709551616

/-- A number in decimal digits, maybe behind a plus sign, that fits into 64 bits. -/
def readNumber? (s : Text) : Option Nat :=
  let digits := match s with
    | '+' :: rest => rest
    | _ => s
  if digits.isEmpty || !digits.all Char.isDigit then none
  else
    let number := digits.foldl (fun n c => 10 * n + (c.toNat - '0'.toNat)) 0
    if number < numberBound then some number else none

/-- The layout of a name. -/
def readLayout? (s : Text) : Option Layout :=
  if s = "text".toList then some .text
  else if s = "json".toList then some .json
  else none

/-- Takes a value that may be given only once. -/
def once {α : Type} (given : Option α) (value : Option α) : Except Stop (Option α) :=
  match given, value with
  | none, some value => .ok (some value)
  | _, _ => .error .refused

/-- Takes a flag that may be given only once. -/
def onceFlag (given : Bool) : Except Stop Bool := if given then .error .refused else .ok true

/-- Takes what an argument asks for. -/
def Asked.take (asked : Asked) : Use → Except Stop Asked
  | .fault => .error .refused
  | .flag .help => .error .help
  | .flag .version => .error .version
  | .flag .verbose => do return { asked with verbose := ← onceFlag asked.verbose }
  | .flag .strict => do return { asked with strict := ← onceFlag asked.strict }
  | .flag .denyUndefinedSlots => do
      return { asked with denyUndefinedSlots := ← onceFlag asked.denyUndefinedSlots }
  | .flag _ => .error .refused
  | .setting .assignment value => .ok { asked with assignments := asked.assignments ++ [value] }
  | .setting .variablesFile value => do
      return { asked with variablesPath := ← once asked.variablesPath (some value) }
  | .setting .depthLimit value => do
      return { asked with depthLimit := ← once asked.depthLimit (readNumber? value) }
  | .setting .layout value => do
      return { asked with layout := ← once asked.layout (readLayout? value) }
  | .setting _ _ => .error .refused
  | .operand text => do return { asked with operand := ← once asked.operand (some text) }

/-- Takes all arguments of a scope. -/
def Scope.ask (scope : Scope) (arguments : List Text) : Except Stop Asked :=
  (scope.uses arguments).foldlM Asked.take {}

/-- The command that the arguments of its scope ask for. The operand may not be missing. -/
def Asked.command (asked : Asked) (scope : Scope) : Except Stop Command :=
  let options := Options.ofRequest asked.strict asked.depthLimit
  match scope, asked.operand with
  | .template, some template =>
      .ok (.template ⟨template, asked.assignments, asked.variablesPath, options⟩)
  | .corpus, some input =>
      .ok (.corpus ⟨input, asked.layout.getD .text, asked.assignments, options,
        asked.denyUndefinedSlots⟩)
  | _, _ => .error .refused

/-- Name of the command that explains the others. -/
def helpName : Text := "help".toList

/-- The scope of a command's name. -/
def scopeOf? (name : Text) : Option Scope :=
  if name = "expand".toList then some .template
  else if name = "corpus".toList then some .corpus
  else none

end CommandLine

open CommandLine

/-- What a command line asks for. -/
inductive Invocation
  /-- A command to be carried out, and whether everything about it is to be told. -/
  | perform (command : Command) (verbose : Bool)
  /-- An explanation of the program or of a command. -/
  | explain (scope : Scope)
  /-- The version of the program. -/
  | showVersion
  /-- Nothing that makes sense. -/
  | refuse
deriving Repr, DecidableEq

namespace Invocation

/-- What is done where the arguments of a scope are not taken any further. -/
def ofStop (scope : Scope) : Stop → Invocation
  | .help => .explain scope
  | .version => .showVersion
  | .refused => .refuse

/-- What the arguments of a command ask for. -/
def ofCommandArguments (scope : Scope) (verbose : Bool) (arguments : List Text) : Invocation :=
  match scope.ask arguments with
  | .error stop => ofStop scope stop
  | .ok asked =>
      match asked.command scope with
      | .ok command => .perform command (verbose || asked.verbose)
      | .error stop => ofStop scope stop

/-- What the names behind that of the command `help` ask for. -/
def ofTopics : List Text → Invocation
  | [] => .explain .program
  | [name] =>
      match scopeOf? name with
      | some scope => .explain scope
      | none => if name = helpName then .explain .program else .refuse
  | _ => .refuse

/-- What the arguments of a command line ask for. -/
def ofArguments (arguments : List Text) : Invocation :=
  -- No option of the program has a value, so the first operand is the name of a command.
  match Scope.program.ask (arguments.takeWhile (!isOperand ·)) with
  | .error stop => ofStop .program stop
  | .ok asked =>
      match arguments.dropWhile (!isOperand ·) with
      | [] => .refuse
      | name :: rest =>
          match scopeOf? name with
          | some scope => ofCommandArguments scope asked.verbose rest
          | none => if name = helpName then ofTopics rest else .refuse

end Invocation

end Phrasing
