import Phrasing.Corpus
import Phrasing.Proofs.Sentences
import Phrasing.Proofs.Slots

/-!
# `Proofs.Corpora` — a corpus is what its templates are, one after the other

The templates of an intent share one list of sentences, and intents are expanded until one fails. Seen
from outside, that is the yields of all templates in turn: each template as it expands on its own, up
to the first that fails.

## Contents
- **`Yield.inTurn_map_cases`**: yields in turn, with or without an error.
- **`Tells`**: what was told is a yield. `tells_expandTemplates`, `Intent.tells_expand` and
  `tells_expandIntents` say of what yield.
- **`Setting.alone`**, `templatesYield_cases`: templates in turn, each as on its own.
- **`ReportsUndefined`**, **`Setting.IsExpansion`**: what an expanded intent is.
- **`Corpus.expand_by_templates`**.
-/

namespace Phrasing

/-! ## Yields in turn -/

namespace Yield

variable {α : Type}

/-- **Up to the first error.** Either none of the yields has an error, and all of them are in the
    result; or they are up to the first that has one. -/
theorem inTurn_map_cases (f : α → Yield) (xs : List α) :
    ((∀ x ∈ xs, (f x).error = none) ∧
      inTurn (xs.map f) =
        ⟨xs.flatMap fun x => (f x).sentences, xs.flatMap fun x => (f x).events, none⟩) ∨
    ∃ earlier x later error, xs = earlier ++ x :: later ∧ (∀ y ∈ earlier, (f y).error = none) ∧
      (f x).error = some error ∧
      inTurn (xs.map f) =
        ⟨(earlier ++ [x]).flatMap fun y => (f y).sentences,
          (earlier ++ [x]).flatMap fun y => (f y).events, some error⟩ := by
  induction xs with
  | nil => exact Or.inl ⟨by simp, rfl⟩
  | cons first rest ih =>
      rw [List.map_cons, inTurn_cons, andThen]
      cases hfirst : (f first).error with
      | some error =>
          refine Or.inr ⟨[], first, rest, error, rfl, by simp, hfirst, ?_⟩
          show f first = _
          rw [List.nil_append, List.flatMap_singleton, List.flatMap_singleton, ← hfirst]
      | none =>
          rcases ih with ⟨hnone, hturn⟩ | ⟨earlier, x, later, error, rfl, hnone, hx, hturn⟩
          · refine Or.inl ⟨List.forall_mem_cons.mpr ⟨hfirst, hnone⟩, ?_⟩
            rw [hturn]
            simp
          · refine Or.inr ⟨first :: earlier, x, later, error, rfl,
              List.forall_mem_cons.mpr ⟨hfirst, hnone⟩, hx, ?_⟩
            rw [hturn]
            simp

/-- The value that goes with a yield, or the error that cut it short. -/
def orError (y : Yield) (value : α) : Except ExpansionError α :=
  match y.error with
  | some error => .error error
  | none => .ok value

end Yield

/-! ## Expansions and yields -/

/-- **What was told is a yield**, with a value if it was not cut short. -/
structure Tells {α : Type} (told : Told α) (y : Yield) (value : α) : Prop where
  result : told.result = y.orError value
  events : told.events = y.events

namespace Setting

/-- What templates yield in turn. -/
def templatesYield (setting : Setting) (templates : List Text) : Yield :=
  Yield.inTurn (templates.map fun template => setting.yield template template 0)

theorem templatesYield_cons (setting : Setting) (template : Text) (rest : List Text) :
    setting.templatesYield (template :: rest) =
      (setting.yield template template 0).andThen (setting.templatesYield rest) := rfl

/-- The templates of an intent add to the sentences before them what they yield in turn. -/
theorem tells_expandTemplates (setting : Setting) (intent : Text) (output : Array Text)
    (templates : List Text) :
    Tells (setting.expandTemplates intent output templates) (setting.templatesYield templates)
      (output ++ (setting.templatesYield templates).sentences.toArray) := by
  induction templates generalizing output with
  | nil => exact ⟨by simp [expandTemplates, templatesYield, Yield.nothing, Yield.orError], rfl⟩
  | cons template rest ih =>
      rw [templatesYield_cons, expandTemplates, expand_eq_yield, Yield.andThen]
      cases herror : (setting.yield template template 0).error with
      | some error =>
          refine ⟨by simp [Yield.orError, herror], ?_⟩
          exact filterMap_event_map _
      | none =>
          obtain ⟨hresult, hevents⟩ :=
            ih (output ++ (setting.yield template template 0).sentences.toArray)
          refine ⟨?_, ?_⟩
          · simp only [hresult, Yield.orError, Array.append_assoc, List.append_toArray]
          · -- the notice of the template is no event
            rw [Told.events] at hevents ⊢
            rw [List.filterMap_append, filterMap_event_map, List.filterMap_cons_none rfl, hevents]

end Setting

namespace Intent

/-- An intent with given sentences. -/
def expandedTo (intent : Intent) (sentences : List Text) : ExpandedIntent :=
  ⟨intent.name, sentences, undefinedSlots intent.slots sentences⟩

/-- An intent expanded is what its templates yield in turn. -/
theorem tells_expand (intent : Intent) (setting : Setting) :
    Tells (intent.expand setting) (setting.templatesYield intent.utterances)
      (intent.expandedTo (setting.templatesYield intent.utterances).sentences) := by
  obtain ⟨hresult, hevents⟩ := setting.tells_expandTemplates intent.name #[] intent.utterances
  rw [Yield.orError] at hresult
  rw [expand]
  cases herror : (setting.templatesYield intent.utterances).error with
  | some error =>
      rw [herror] at hresult
      simp only [hresult]
      exact ⟨by rw [Yield.orError, herror], hevents⟩
  | none =>
      rw [herror] at hresult
      simp only [hresult]
      exact ⟨by simp [Yield.orError, herror, expandedTo], hevents⟩

end Intent

/-- **A corpus expanded is what all its templates yield in turn.** -/
theorem tells_expandIntents (setting : Setting) (intents : List Intent) :
    Tells (expandIntents setting intents)
      (setting.templatesYield (intents.flatMap Intent.utterances))
      (intents.map fun intent =>
        intent.expandedTo (setting.templatesYield intent.utterances).sentences) := by
  induction intents with
  | nil => exact ⟨rfl, rfl⟩
  | cons intent rest ih =>
      have hturn : setting.templatesYield ((intent :: rest).flatMap Intent.utterances) =
          (setting.templatesYield intent.utterances).andThen
            (setting.templatesYield (rest.flatMap Intent.utterances)) := by
        rw [List.flatMap_cons]
        unfold Setting.templatesYield
        rw [List.map_append, Yield.inTurn_append]
      obtain ⟨hresult, hevents⟩ := intent.tells_expand setting
      obtain ⟨hlater, hlaterEvents⟩ := ih
      rw [Yield.orError] at hresult
      rw [hturn, Yield.andThen, expandIntents]
      cases herror : (setting.templatesYield intent.utterances).error with
      | some error =>
          rw [herror] at hresult
          simp only [hresult]
          exact ⟨by rw [Yield.orError, herror], hevents⟩
      | none =>
          rw [herror] at hresult
          simp only [hresult, hlater]
          refine ⟨?_, ?_⟩
          · unfold Yield.orError
            cases (setting.templatesYield (rest.flatMap Intent.utterances)).error <;> rfl
          · rw [Told.events] at hevents hlaterEvents
            simp only [Told.events, List.filterMap_append, hevents, hlaterEvents]

/-! ## Templates on their own -/

namespace Setting

/-- The reply to a template that is expanded on its own. -/
def alone (setting : Setting) (template : Text) : Reply := setting.perform .attempt template #[]

/-- Whether a template expands on its own. -/
def Succeeds (setting : Setting) (template : Text) : Prop :=
  ∃ count, (setting.alone template).result = .ok count

variable (setting : Setting) (template : Text)

theorem output_alone : (setting.alone template).output.toList =
    (setting.yield template template 0).sentences := by
  rw [alone, output_attempt, Array.empty_append]

theorem events_alone : (setting.alone template).events =
    (setting.yield template template 0).events := by
  rw [alone, events_attempt]

variable {setting template}

theorem result_alone_eq_error_iff {error : ExpansionError} :
    (setting.alone template).result = .error error ↔
      (setting.yield template template 0).error = some error := by
  rw [alone, result_attempt, Yield.result]
  cases (setting.yield template template 0).error <;> simp

theorem succeeds_iff :
    setting.Succeeds template ↔ (setting.yield template template 0).error = none := by
  rw [Succeeds, alone, result_attempt, Yield.result]
  cases (setting.yield template template 0).error <;> simp

/-- **Templates in turn, each as on its own**: all of them, or those up to the first that fails. -/
theorem templatesYield_cases (setting : Setting) (templates : List Text) :
    ((∀ template ∈ templates, setting.Succeeds template) ∧
      setting.templatesYield templates =
        ⟨templates.flatMap fun template => (setting.alone template).output.toList,
          templates.flatMap fun template => (setting.alone template).events, none⟩) ∨
    ∃ earlier template later error, templates = earlier ++ template :: later ∧
      (∀ other ∈ earlier, setting.Succeeds other) ∧
      (setting.alone template).result = .error error ∧
      (setting.templatesYield templates).events =
        (earlier ++ [template]).flatMap (fun other => (setting.alone other).events) ∧
      (setting.templatesYield templates).error = some error := by
  simp only [output_alone, events_alone, result_alone_eq_error_iff, succeeds_iff]
  rcases Yield.inTurn_map_cases (fun template => setting.yield template template 0) templates with
    h | ⟨earlier, template, later, error, htemplates, hearlier, herror, hturn⟩
  · exact Or.inl h
  · exact Or.inr ⟨earlier, template, later, error, htemplates, hearlier, herror,
      congrArg Yield.events hturn, congrArg Yield.error hturn⟩

end Setting

/-! ## Corpora -/

/-- **Mentions of slots that are not known**: in the order of the sentences, and from left to right in
    each, one for every place where such a slot begins. -/
inductive ReportsUndefined (known : List Text) : List Text → List UndefinedSlot → Prop
  | nil : ReportsUndefined known [] []
  | cons {sentence : Text} {sentences : List Text} {slots : List Slot} {later : List UndefinedSlot} :
      Slot.Lists sentence slots → ReportsUndefined known sentences later →
      ReportsUndefined known (sentence :: sentences)
        ((slots.filter (·.name ∉ known)).map (⟨·, sentence⟩) ++ later)

theorem reportsUndefined_undefinedSlots (known sentences : List Text) :
    ReportsUndefined known sentences (undefinedSlots known sentences) := by
  induction sentences with
  | nil => exact .nil
  | cons sentence rest ih =>
      have hcons := ReportsUndefined.cons (Slot.lists_findAll sentence) ih
      simpa [undefinedSlots] using hcons

/-- **What an expanded intent is**: the sentences of its templates, each expanded on its own, and the
    mentions in them of slots that it does not define. -/
structure Setting.IsExpansion (setting : Setting) (intent : Intent) (expanded : ExpandedIntent) :
    Prop where
  name : expanded.name = intent.name
  sentences : expanded.sentences =
    intent.utterances.flatMap fun template => (setting.alone template).output.toList
  undefinedSlots : ReportsUndefined intent.slots expanded.sentences expanded.undefinedSlots

/-- An intent whose templates expand is expanded to what they yield. -/
theorem Setting.isExpansion_expandedTo {setting : Setting} {intent : Intent}
    (h : ∀ template ∈ intent.utterances, setting.Succeeds template) :
    setting.IsExpansion intent
      (intent.expandedTo (setting.templatesYield intent.utterances).sentences) := by
  refine ⟨rfl, ?_, reportsUndefined_undefinedSlots _ _⟩
  rcases setting.templatesYield_cases intent.utterances with
    ⟨-, hyield⟩ | ⟨earlier, template, later, error, htemplates, -, herror, -⟩
  · exact congrArg Yield.sentences hyield
  · obtain ⟨count, hcount⟩ := h template (by simp [htemplates])
    rw [hcount] at herror
    exact absurd herror (by simp)

/-- **A corpus expands by its templates, up to the first that fails.** If all templates of all intents
    expand on their own, each intent is expanded to their sentences in order, with the undefined slots
    in them, and the events of all templates are told. Otherwise the error is that of the first
    template that fails, and the events are those of the templates up to it. -/
theorem Corpus.expand_by_templates (corpus : Corpus) (options : Options) :
    let setting : Setting := ⟨corpus.vars, options⟩
    let templates := corpus.intents.flatMap Intent.utterances
    ((∀ template ∈ templates, setting.Succeeds template) ∧
      (∃ expanded, (corpus.expand options).result = .ok expanded ∧
        List.Forall₂ setting.IsExpansion corpus.intents expanded) ∧
      (corpus.expand options).events =
        templates.flatMap fun template => (setting.alone template).events) ∨
    ∃ earlier template later error, templates = earlier ++ template :: later ∧
      (∀ other ∈ earlier, setting.Succeeds other) ∧
      (setting.alone template).result = .error error ∧
      (corpus.expand options).result = .error error ∧
      (corpus.expand options).events =
        (earlier ++ [template]).flatMap fun other => (setting.alone other).events := by
  intro setting templates
  obtain ⟨hresult, hevents⟩ := tells_expandIntents setting corpus.intents
  rw [Yield.orError] at hresult
  rcases setting.templatesYield_cases templates with
    ⟨hsucceed, hyield⟩ | ⟨earlier, template, later, error, htemplates, hearlier, hfails, htold, herror⟩
  · refine Or.inl ⟨hsucceed, ⟨_, by rw [expand, hresult, hyield], ?_⟩, by rw [expand, hevents, hyield]⟩
    rw [List.forall₂_map_right_iff]
    refine List.forall₂_same.mpr ?_
    intro intent hintent
    apply Setting.isExpansion_expandedTo
    intro template htemplate
    exact hsucceed template (List.mem_flatMap.mpr ⟨intent, hintent, htemplate⟩)
  · refine Or.inr ⟨earlier, template, later, error, htemplates, hearlier, hfails, ?_, ?_⟩
    · rw [expand, hresult, herror]
    · rw [expand, hevents, htold]

end Phrasing
