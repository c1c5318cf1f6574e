import Phrasing.Text

/-!
# `Phrasing.Failure` — what can go wrong

The causes of failure and their wording. Text that fits no rule is not among them: it is dropped
and reported, and the expansion goes on.

The wording is complete but for documents. Of a document that is malformed only the format is told,
neither the place of the fault nor what a parser would say about it. Of the faults of files, those
that depend on the path and on the bytes are named; a file that may not be opened, or a disk that
fails, is outside.

## Contents
- **`ExpansionError`**: why an expansion stops.
- **`FileFault`**: why a file cannot be read as text.
- **`Failure`**: every cause, with `message` for its wording and `chain` for the causes behind it.
-/

namespace Phrasing

/-- Why an expansion stops early. -/
inductive ExpansionError
  /-- One branch of the expansion of `template` needed more than `limit` substitutions. -/
  | depthExceeded (template : Text) (limit : Nat)
  /-- The variable `name`, mentioned in `fragment`, has no value, and values are required. -/
  | undefinedVariable (name fragment : Text)
deriving Repr, DecidableEq

/-- Wording of an expansion error. -/
def ExpansionError.message : ExpansionError → Text
  | depthExceeded template limit =>
      "Expansion of '".toList ++ template ++ "' exceeded ".toList ++ Text.ofNat limit ++
        " nested variable substitutions".toList
  | undefinedVariable name fragment =>
      "Undefined variable '$".toList ++ name ++ "' in '".toList ++ fragment ++ "'".toList

/-- Why a path does not lead to readable text. -/
inductive FileFault
  /-- Nothing has this path. -/
  | notFound
  /-- The path goes on behind a file. -/
  | notADirectory
  /-- The path leads to a directory. -/
  | isADirectory
  /-- The path, or one of its parts, is too long. -/
  | nameTooLong
  /-- The path contains the null character. -/
  | nullInName
  /-- The bytes of the file are not UTF-8. -/
  | notText
deriving Repr, DecidableEq

/-- Wording of a file fault, with the number of the system's error where there is one. -/
def FileFault.message : FileFault → Text
  | notFound => "No such file or directory (os error 2)".toList
  | notADirectory => "Not a directory (os error 20)".toList
  | isADirectory => "Is a directory (os error 21)".toList
  | nameTooLong => "File name too long (os error 36)".toList
  | nullInName => "file name contained an unexpected NUL byte".toList
  | notText => "stream did not contain valid UTF-8".toList

/-- The formats of documents. -/
inductive Format
  | yaml
  | json
deriving Repr, DecidableEq

/-- Why a request fails. -/
inductive Failure
  /-- An expansion stopped early. -/
  | expansion (error : ExpansionError)
  /-- A text is no assignment of a value to a name. -/
  | invalidAssignment (assignment : Text)
  /-- The extension of a path is not one of a corpus. -/
  | unsupportedFormat (path : Text)
  /-- A file cannot be read. -/
  | unreadable (fault : FileFault)
  /-- A document is ill-formed, or does not hold what it should. Where and why is not told. -/
  | malformed (format : Format)
deriving Repr, DecidableEq

/-- Wording of a failure. -/
def Failure.message : Failure → Text
  | expansion error => error.message
  | invalidAssignment assignment =>
      "Invalid variable assignment '".toList ++ assignment ++ "': expected KEY=VALUE".toList
  | unsupportedFormat path =>
      "Unsupported corpus format: ".toList ++ path ++ " (expected .yaml, .yml or .json)".toList
  | unreadable fault => "I/O error: ".toList ++ fault.message
  | malformed .yaml => "YAML error".toList
  | malformed .json => "JSON error".toList

/-- The failure in words, followed by what lies behind it. -/
def Failure.chain : Failure → List Text
  | unreadable fault => [(unreadable fault).message, fault.message]
  | failure => [failure.message]

end Phrasing
