import Phrasing.Corpus.UndefinedSlot
import Phrasing.Expansion.Worklist
import Phrasing.Log

/-!
# `Phrasing.Corpus` — corpora of intents

A corpus is a table of variables and a list of intents. Each intent has templates for its sentences
and names the slots that they may mention.

## Contents
- **`Intent`**, **`Corpus`**, **`ExpandedIntent`**.
- **`Setting.expandTemplates`**: the sentences of several templates in one list.
- **`Corpus.expand`**: every intent expanded, up to the first template that fails.
-/

namespace Phrasing

/-- Something a speaker may want, the slots it defines, and templates that phrase it. -/
structure Intent where
  name : Text
  slots : List Text
  utterances : List Text
deriving Repr, DecidableEq

/-- Intents that share one table of variables. -/
structure Corpus where
  vars : Variables
  intents : List Intent
deriving Repr, DecidableEq

/-- The sentences of an intent, and the slots in them that it does not define. -/
structure ExpandedIntent where
  name : Text
  sentences : List Text
  undefinedSlots : List UndefinedSlot
deriving Repr, DecidableEq

/-- A result, and the notices on the way to it. -/
structure Told (α : Type) where
  result : Except ExpansionError α
  notices : List Notice

/-- The events of an expansion that were told. -/
def Told.events {α : Type} (told : Told α) : List Event := told.notices.filterMap Notice.event?

/-- Expands the templates of an intent one after the other, up to the first that fails. -/
def Setting.expandTemplates (setting : Setting) (intent : Text) (output : Array Text) :
    List Text → Told (Array Text)
  | [] => ⟨.ok output, []⟩
  | template :: rest =>
      let run := setting.expand template output
      let events := run.events.toList.map Notice.expansion
      match run.error with
      | some error => ⟨.error error, events⟩
      | none =>
          -- The notice of this template stands between its own events and those of the next.
          let later := setting.expandTemplates intent run.output rest
          let count := run.output.size - output.size
          ⟨later.result, events ++ .templateExpanded intent template count :: later.notices⟩

/-- An intent expanded. -/
def Intent.expand (intent : Intent) (setting : Setting) : Told ExpandedIntent :=
  let told := setting.expandTemplates intent.name #[] intent.utterances
  match told.result with
  | .error error => ⟨.error error, told.notices⟩
  | .ok output =>
      ⟨.ok ⟨intent.name, output.toList, undefinedSlots intent.slots output.toList⟩, told.notices⟩

/-- Intents expanded, up to the first that fails. -/
def expandIntents (setting : Setting) : List Intent → Told (List ExpandedIntent)
  | [] => ⟨.ok [], []⟩
  | intent :: rest =>
      let told := intent.expand setting
      match told.result with
      | .error error => ⟨.error error, told.notices⟩
      | .ok expanded =>
          let later := expandIntents setting rest
          ⟨later.result.map (expanded :: ·), told.notices ++ later.notices⟩

namespace Corpus

/-- The corpus with more variables, which win over its own. -/
def withVariables (corpus : Corpus) (extra : Variables) : Corpus :=
  { corpus with vars := corpus.vars.extend extra }

/-- All intents expanded, up to the first template that fails. -/
def expand (corpus : Corpus) (options : Options) : Told (List ExpandedIntent) :=
  expandIntents ⟨corpus.vars, options⟩ corpus.intents

end Corpus

end Phrasing
