import Phrasing.Corpus.Report
import Phrasing.Files.Load

/-!
# `Phrasing.Command` — the two commands

One command expands a template, the other a corpus. Both write their result only when nothing can
fail any more, and tell what they did.

## Contents
- **`Complaint`**: why a command fails, with `chain` for the causes from the outermost to the
  innermost.
- **`gatherVariables`**: the variables of a file and of assignments, which win.
- **`TemplateCommand`**, **`CorpusCommand`**, **`Command`**, and `run` for each.
-/

namespace Phrasing

/-- Why a command fails. -/
inductive Complaint
  /-- There is nothing at the path of the corpus. -/
  | missingInput (path : Text)
  /-- An assignment cannot be carried out. -/
  | notAssigned (failure : Failure)
  | variablesNotLoaded (path : Text) (failure : Failure)
  | corpusNotLoaded (path : Text) (failure : Failure)
  | templateNotExpanded (template : Text) (error : ExpansionError)
  | corpusNotExpanded (path : Text) (error : ExpansionError)
  /-- Slots that are not defined are mentioned so many times, and may not be. -/
  | undefinedSlots (count : Nat)
deriving Repr, DecidableEq

/-- The complaint in words, followed by what lies behind it. -/
def Complaint.chain : Complaint → List Text
  | missingInput path => ["Input path does not exist: ".toList ++ path]
  | notAssigned failure => failure.chain
  | variablesNotLoaded path failure =>
      ("Failed to load variables from ".toList ++ path) :: failure.chain
  | corpusNotLoaded path failure => ("Failed to load corpus: ".toList ++ path) :: failure.chain
  | templateNotExpanded template error =>
      ["Failed to expand template: ".toList ++ template, error.message]
  | corpusNotExpanded path error => ["Failed to expand corpus: ".toList ++ path, error.message]
  | undefinedSlots count => [Text.ofNat count ++ " reference(s) to undefined slots".toList]

/-- What a command has done: what it wrote, what it told, and why it failed if it did. -/
structure Outcome where
  written : Text
  notices : List Notice
  complaint : Option Complaint
deriving Repr, DecidableEq

namespace Outcome

/-- A failure, in which nothing is written. -/
def failed (notices : List Notice) (complaint : Complaint) : Outcome := ⟨[], notices, some complaint⟩

end Outcome

/-! ## Variables of a command -/

/-- The variables of a file, if one is named. -/
def fileVariables (files : Files) : Option Text → Except Complaint Variables
  | none => .ok .empty
  | some path =>
      match files.loadVariables path with
      | .ok vars => .ok vars
      | .error failure => .error (.variablesNotLoaded path failure)

/-- The variables of a file, if one is named, and of assignments, which win over those of the file
    and over earlier ones. The file is loaded first. -/
def gatherVariables (files : Files) (assignments : List Text) (path : Option Text) :
    Except Complaint Variables :=
  match fileVariables files path with
  | .error complaint => .error complaint
  | .ok vars =>
      match vars.assignAll assignments with
      | .ok table => .ok table
      | .error failure => .error (.notAssigned failure)

/-! ## The commands -/

/-- Expands one template. -/
structure TemplateCommand where
  template : Text
  assignments : List Text := []
  /-- Where more variables are written. -/
  variablesPath : Option Text := none
  options : Options := {}
deriving Repr, DecidableEq

/-- Expands a corpus. -/
structure CorpusCommand where
  /-- Where the corpus is written. -/
  input : Text
  layout : Layout := .text
  assignments : List Text := []
  options : Options := {}
  /-- Whether no slot may be mentioned that is not defined. -/
  denyUndefinedSlots : Bool := false
deriving Repr, DecidableEq

/-- Expands the template and writes its sentences, one a line. -/
def TemplateCommand.run (command : TemplateCommand) (files : Files) : Outcome :=
  match gatherVariables files command.assignments command.variablesPath with
  | .error complaint => .failed [] complaint
  | .ok vars =>
      let run := Setting.expand ⟨vars, command.options⟩ command.template #[]
      let notices := run.events.toList.map Notice.expansion
      match run.error with
      | some error => .failed notices (.templateNotExpanded command.template error)
      | none =>
          ⟨Text.lines run.output.toList, notices ++ [.loneTemplateExpanded run.output.size], none⟩

/-- What is written of an expanded corpus, behind what was told so far. -/
def CorpusCommand.report (command : CorpusCommand) (notices : List Notice)
    (expanded : List ExpandedIntent) : Outcome :=
  let undefined := undefinedSlotNotices expanded
  if command.denyUndefinedSlots && !undefined.isEmpty then
    .failed (notices ++ undefined) (.undefinedSlots undefined.length)
  else
    ⟨command.layout.render expanded,
      notices ++ undefined ++ [.corpusExpanded expanded.length (sentenceCount expanded)], none⟩

/-- Expands the corpus and writes it in the layout. -/
def CorpusCommand.run (command : CorpusCommand) (files : Files) : Outcome :=
  if files.has command.input then
    match gatherVariables files command.assignments none with
    | .error complaint => .failed [] complaint
    | .ok overrides =>
        match files.loadCorpus command.input with
        | .error failure => .failed [] (.corpusNotLoaded command.input failure)
        | .ok corpus =>
            -- Assignments are checked before the corpus is read, but win over its variables.
            let told := (corpus.withVariables overrides).expand command.options
            let notices := corpus.loadedNotice command.input :: told.notices
            match told.result with
            | .error error => .failed notices (.corpusNotExpanded command.input error)
            | .ok expanded => command.report notices expanded
  else .failed [] (.missingInput command.input)

/-- One of the commands. -/
inductive Command
  | template (command : TemplateCommand)
  | corpus (command : CorpusCommand)
deriving Repr, DecidableEq

/-- Carries out a command. -/
def Command.run : Command → Files → Outcome
  | template command => command.run
  | corpus command => command.run

/-- The paths that a command looks at. -/
def Command.paths : Command → List Text
  | template command => command.variablesPath.toList
  | corpus command => [command.input]

end Phrasing
