import Phrasing.Text

/-!
# `Phrasing.CommandLine.Use` — options and operands

Arguments are options, in a long or a short form, and operands. Short forms of one letter may stand
together in one argument. The value of an option may stand in its argument or be the next one; a
next one that looks like an option itself is no value.

## Contents
- **`Key`**: the options; **`Scope`**: who knows which of them.
- **`Argument`**: an argument as it is written.
- **`Scope.uses`**: what arguments ask for, in order, up to the first that asks for nothing known.
-/

namespace Phrasing.CommandLine

/-- An option. -/
inductive Key
  | verbose
  | help
  | version
  | assignment
  | variablesFile
  | strict
  | depthLimit
  | layout
  | denyUndefinedSlots
deriving Repr, DecidableEq

namespace Key

/-- All options. -/
def all : List Key :=
  [layout, assignment, variablesFile, strict, depthLimit, denyUndefinedSlots, verbose, help, version]

/-- The long form of an option, without its dashes. -/
def longForm : Key → String
  | verbose => "verbose"
  | help => "help"
  | version => "version"
  | assignment => "var"
  | variablesFile => "vars"
  | strict => "strict"
  | depthLimit => "max-substitution-depth"
  | layout => "format"
  | denyUndefinedSlots => "deny-undefined-slots"

/-- The letter of the short form of an option, if it has one. -/
def shortForm? : Key → Option Char
  | verbose => some 'v'
  | help => some 'h'
  | version => some 'V'
  | layout => some 'f'
  | _ => none

/-- Whether an option has a value. -/
def takesValue : Key → Bool
  | assignment => true
  | variablesFile => true
  | depthLimit => true
  | layout => true
  | _ => false

end Key

/-- Where options may stand: in front of the name of a command, or behind it. -/
inductive Scope
  | program
  | template
  | corpus
deriving Repr, DecidableEq

namespace Scope

/-- Whether an option may stand in a scope. -/
def knows : Scope → Key → Bool
  | _, .verbose => true
  | _, .help => true
  | program, .version => true
  | template, .assignment => true
  | template, .variablesFile => true
  | template, .strict => true
  | template, .depthLimit => true
  | corpus, .assignment => true
  | corpus, .strict => true
  | corpus, .depthLimit => true
  | corpus, .layout => true
  | corpus, .denyUndefinedSlots => true
  | _, _ => false

/-- The option of a long form. -/
def long? (scope : Scope) (name : Text) : Option Key :=
  Key.all.find? fun key => scope.knows key && key.longForm.toList == name

/-- The option of a short form. -/
def short? (scope : Scope) (letter : Char) : Option Key :=
  Key.all.find? fun key => scope.knows key && key.shortForm? == some letter

end Scope

/-! ## Arguments -/

/-- An argument as it is written. -/
inductive Argument
  /-- Two dashes: only operands follow. -/
  | dashes
  /-- A long form, maybe with a value. -/
  | long (name : Text) (value : Option Text)
  /-- Short forms, the last of them maybe with a value. -/
  | short (letters : Text)
  /-- Anything else, a single dash too. -/
  | plain (text : Text)
deriving Repr, DecidableEq

/-- Tells what is written in an argument. -/
def Argument.ofText : Text → Argument
  | ['-', '-'] => .dashes
  | '-' :: '-' :: text =>
      match text.dropWhile (· != '=') with
      | _ :: value => .long (text.takeWhile (· != '=')) (some value)
      | [] => .long text none
  | '-' :: c :: letters => .short (c :: letters)
  | text => .plain text

/-- Whether an argument can only be an operand or a value. -/
def isOperand (text : Text) : Bool :=
  match Argument.ofText text with
  | .plain _ => true
  | _ => false

/-- What an argument asks for. -/
inductive Use
  | flag (key : Key)
  | setting (key : Key) (value : Text)
  | operand (text : Text)
  /-- Nothing that is known. -/
  | fault
deriving Repr, DecidableEq

namespace Scope

/-- What short forms ask for, and the option whose value has to follow, if any. -/
def readLetters (scope : Scope) : Text → List Use × Option Key
  | [] => ([], none)
  | letter :: rest =>
      match scope.short? letter with
      | none => ([.fault], none)
      | some key =>
          if key.takesValue then
            -- All letters behind it are its value, with or without an equals sign between.
            match rest with
            | [] => ([], some key)
            | '=' :: value => ([.setting key value], none)
            | value => ([.setting key value], none)
          else
            let later := scope.readLetters rest
            (.flag key :: later.1, later.2)

/-- What arguments ask for, where the value of an option may have to come first. -/
def usesAfter (scope : Scope) : Option Key → List Text → List Use
  | some _, [] => [.fault]
  | some key, argument :: rest =>
      match Argument.ofText argument with
      | .plain value => .setting key value :: scope.usesAfter none rest
      | _ => [.fault]
  | none, [] => []
  | none, argument :: rest =>
      match Argument.ofText argument with
      | .plain text => .operand text :: scope.usesAfter none rest
      -- The program has no operands: the name of a command stands in front of all dashes.
      | .dashes => if scope = .program then [.fault] else rest.map .operand
      | .long name value =>
          match scope.long? name, value with
          | none, _ => [.fault]
          | some key, some value =>
              if key.takesValue then .setting key value :: scope.usesAfter none rest else [.fault]
          | some key, none =>
              if key.takesValue then scope.usesAfter (some key) rest
              else .flag key :: scope.usesAfter none rest
      | .short letters =>
          let found := scope.readLetters letters
          found.1 ++ scope.usesAfter found.2 rest

/-- What arguments ask for, in order. Behind a fault nothing counts. -/
def uses (scope : Scope) (arguments : List Text) : List Use := scope.usesAfter none arguments

end Scope

end Phrasing.CommandLine
