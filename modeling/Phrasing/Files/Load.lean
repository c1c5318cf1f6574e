import Phrasing.Document.Decode
import Phrasing.Files
import Phrasing.Files.Path

/-!
# `Phrasing.Files.Load` — corpora and tables of variables in files

The extension of a path tells the format of the file. A corpus has to have an extension that does;
a table of variables is taken for YAML where the extension is any other than that of JSON.

## Contents
- **`Format.ofCorpusPath?`**, **`Format.ofVariablesPath`**.
- **`Files.loadVariables`**, **`Files.loadCorpus`**: what is in the file at a path. The format of a
  corpus is settled before the file is read.
-/

namespace Phrasing

/-- The format of the corpus at a path. Letter case counts. -/
def Format.ofCorpusPath? (path : Text) : Option Format :=
  match Path.extension? path with
  | none => none
  | some extension =>
      if extension = "yaml".toList ∨ extension = "yml".toList then some .yaml
      else if extension = "json".toList then some .json
      else none

/-- The format of the table of variables at a path. -/
def Format.ofVariablesPath (path : Text) : Format :=
  if Path.extension? path = some "json".toList then .json else .yaml

namespace Files

/-- What the reader of a format takes out of the file at a path. -/
def load {α : Type} (files : Files) (path : Text) (reader : Text → Except Failure α) :
    Except Failure α :=
  match files.read path with
  | .ok source => reader source
  | .error fault => .error (.unreadable fault)

/-- The table of variables at a path. -/
def loadVariables (files : Files) (path : Text) : Except Failure Variables :=
  files.load path (readVariables (.ofVariablesPath path))

/-- The corpus at a path. -/
def loadCorpus (files : Files) (path : Text) : Except Failure Corpus :=
  match Format.ofCorpusPath? path with
  | some format => files.load path (readCorpus format)
  | none => .error (.unsupportedFormat path)

end Files

/-- What is told about a corpus that was loaded. -/
def Corpus.loadedNotice (corpus : Corpus) (path : Text) : Notice :=
  .corpusLoaded path corpus.intents.length corpus.vars.size

end Phrasing
