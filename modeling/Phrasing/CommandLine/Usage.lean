import Phrasing.CommandLine.Use

/-!
# `Phrasing.CommandLine.Usage` — explanations of the program

What is shown to someone who asks for help or for the version. The explanation of a scope lists the
options that it knows.

An explanation is meant for people. That it is shown and that asking for it is no failure is part of
how the program behaves; its layout and the choice of words are settled here and nowhere else.
-/

namespace Phrasing.CommandLine

/-- Name of the program. -/
def programName : String := "utterance-expander"

/-- Name and version of the program, in a line. -/
def versionLine : Text := (programName ++ " 0.1.0\n").toList

namespace Key

/-- What the value of an option is called. -/
def valueName : Key → String
  | assignment => "KEY=VALUE"
  | variablesFile => "FILE"
  | depthLimit => "NUMBER"
  | layout => "text|json"
  | _ => ""

/-- What an option is for. -/
def purpose : Key → String
  | verbose => "Log every step unless RUST_LOG says otherwise"
  | help => "Print help"
  | version => "Print version"
  | assignment => "Value of a variable"
  | variablesFile => "YAML or JSON file with values of variables"
  | strict => "Fail on undefined variables instead of substituting empty text"
  | depthLimit => "Maximum nested variable substitutions per branch"
  | layout => "Output format"
  | denyUndefinedSlots => "Fail if any sentence uses a slot its intent does not define"

/-- The forms of an option, as they are listed. -/
def forms (key : Key) : String :=
  let short := match key.shortForm? with
    | some letter => "-" ++ letter.toString ++ ", "
    | none => "    "
  let value := if key.takesValue then " <" ++ key.valueName ++ ">" else ""
  short ++ "--" ++ key.longForm ++ value

end Key

namespace Scope

/-- What a scope is for. -/
def purpose : Scope → String
  | program => "Expand sentence templates into every utterance they denote"
  | template => "Expand a single template and print one sentence per line"
  | corpus => "Expand every intent of a corpus file"

/-- How a command line of a scope is written. -/
def form : Scope → String
  | program => "[OPTIONS] <COMMAND>"
  | template => "expand [OPTIONS] <TEMPLATE>"
  | corpus => "corpus [OPTIONS] <INPUT>"

/-- The commands that a scope leads to, with what they are for. -/
def commands : Scope → List (String × String)
  | program =>
      [("expand", template.purpose), ("corpus", corpus.purpose),
        ("help", "Print this message or the help of a command")]
  | _ => []

/-- Two columns, the first as wide as its widest entry. -/
def table (rows : List (String × String)) : List String :=
  let width := (rows.map fun row => row.1.length).foldl max 0
  rows.map fun row =>
    "  " ++ row.1 ++ String.ofList (List.replicate (width - row.1.length + 2) ' ') ++ row.2

/-- The explanation of a scope. -/
def usage (scope : Scope) : Text :=
  let options := (Key.all.filter scope.knows).map fun key => (key.forms, key.purpose)
  let commands :=
    if scope.commands.isEmpty then [] else "" :: "Commands:" :: table scope.commands
  let lines :=
    [scope.purpose, "", "Usage: " ++ programName ++ " " ++ scope.form] ++ commands ++
      ["", "Options:"] ++ table options
  Text.lines (lines.map String.toList)

end Scope

end Phrasing.CommandLine
