import Phrasing.Proofs.Corpora

/-!
# `Proofs.Sessions` — requests in sequence do not get in each other's way

All requests of a session share a list of sentences and a recorder. Each replies as it would on its own,
whatever the session went through before, failures included. What is shared only grows: the list by the
sentences of each request, and the recorder by its events.

## Contents
- **`Event.Warns`**, **`WarningsOf`**: the warnings among events.
- **`Mode.place`**: where the new sentences go. `output_perform`, `result_perform` and `events_perform`
  say what each way of asking makes of the same yield.
- **`Setting.single`**: a request on its own, and `isStep_perform`, which compares with it.
- **`Session.after`**: the session after requests; `performAll_append` and `recorded_after` follow it.
- **`Session.performAll_independent`**.
-/

namespace Phrasing

/-! ## Warnings -/

/-- **What warns**: something was dropped, taken as empty or cut short. -/
inductive Event.Warns : Event → Prop
  | unrecognized (fragment : Text) : Warns (.unrecognized fragment)
  | undefinedVariable (name fragment : Text) : Warns (.undefinedVariable name fragment)
  | limitReached (limit : Nat) (template : Text) : Warns (.limitReached limit template)

theorem Event.isWarning_iff_warns {event : Event} : event.isWarning = true ↔ event.Warns := by
  cases event with
  | varied rule fragment variants => exact ⟨fun h => absurd h Bool.false_ne_true, nofun⟩
  | emitted rule sentence => exact ⟨fun h => absurd h Bool.false_ne_true, nofun⟩
  | unrecognized fragment => exact ⟨fun _ => .unrecognized fragment, fun _ => rfl⟩
  | undefinedVariable name fragment => exact ⟨fun _ => .undefinedVariable name fragment, fun _ => rfl⟩
  | limitReached limit template => exact ⟨fun _ => .limitReached limit template, fun _ => rfl⟩

/-- **The warnings among events**: all events that warn, in their order, and no others. -/
inductive WarningsOf : List Event → List Event → Prop
  | nil : WarningsOf [] []
  | warning {event : Event} {events warnings : List Event} : event.Warns →
      WarningsOf events warnings → WarningsOf (event :: events) (event :: warnings)
  | other {event : Event} {events warnings : List Event} : ¬ event.Warns →
      WarningsOf events warnings → WarningsOf (event :: events) warnings

/-- The warnings of a session are those among its events. -/
theorem Session.warningsOf_warnings (session : Session) :
    WarningsOf session.recorded session.warnings := by
  unfold warnings
  induction session.recorded with
  | nil => exact .nil
  | cons event events ih =>
      by_cases hwarning : event.isWarning = true
      · rw [List.filter_cons_of_pos hwarning]
        exact .warning (Event.isWarning_iff_warns.mp hwarning) ih
      · rw [List.filter_cons_of_neg hwarning]
        exact .other (fun hwarns => hwarning (Event.isWarning_iff_warns.mpr hwarns)) ih

/-! ## Ways to ask -/

/-- **Where new sentences go**: behind those before, or in their place. -/
def Mode.place : Mode → Array Text → Array Text → Array Text
  | .attempt, before, sentences => before ++ sentences
  | .gather, before, sentences => before ++ sentences
  | .fresh, _, sentences => sentences

/-- What is answered to a request for a yield: the error, if it is asked for, or else the number of
    sentences. -/
def Yield.answer (y : Yield) : Mode → Except ExpansionError Nat
  | .attempt => y.result
  | .gather => .ok y.sentences.length
  | .fresh => .ok y.sentences.length

/-- An expansion that may not fail tells the same events. -/
theorem Run.events_noticesGathering (run : Run) (template : Text) :
    (run.noticesGathering template).filterMap Notice.event? = run.events.toList := by
  unfold noticesGathering notices
  cases run.error with
  | none => exact Setting.filterMap_event_map _
  | some error =>
      -- that it stopped early is no event
      rw [List.filterMap_append, Setting.filterMap_event_map, List.filterMap_cons_none rfl]
      exact List.append_nil _

namespace Setting

variable (setting : Setting) (mode : Mode) (template : Text) (output : Array Text)

theorem output_perform : (setting.perform mode template output).output =
    mode.place output (setting.yield template template 0).sentences.toArray := by
  cases mode with
  | attempt => exact setting.output_attempt template output
  | gather => simp only [perform, expand_eq_yield, Mode.place]
  | fresh => simp only [perform, expand_eq_yield, Mode.place, Array.empty_append]

theorem result_perform : (setting.perform mode template output).result =
    (setting.yield template template 0).answer mode := by
  cases mode with
  | attempt => exact setting.result_attempt template output
  | gather => simp [perform, expand_eq_yield, Yield.answer]
  | fresh => simp [perform, expand_eq_yield, Yield.answer]

theorem events_perform : (setting.perform mode template output).events =
    (setting.yield template template 0).events := by
  cases mode with
  | attempt => exact setting.events_attempt template output
  | gather => simp only [Reply.events, perform, Run.events_noticesGathering, expand_eq_yield]
  | fresh => simp only [Reply.events, perform, Run.events_noticesGathering, expand_eq_yield]

/-! ## Requests on their own -/

/-- The reply to a request on its own: the first of a session, with an empty list. -/
def single (setting : Setting) (mode : Mode) (template : Text) : Reply :=
  (Session.perform ⟨#[], []⟩ setting mode template).2

theorem output_single : (setting.single mode template).output =
    (setting.yield template template 0).sentences.toArray := by
  show (setting.perform mode template #[]).output = _
  rw [output_perform]
  cases mode with
  | attempt => exact Array.empty_append
  | gather => exact Array.empty_append
  | fresh => rfl

theorem result_single : (setting.single mode template).result =
    (setting.yield template template 0).answer mode := setting.result_perform mode template #[]

theorem events_single : (setting.single mode template).events =
    (setting.yield template template 0).events := setting.events_perform mode template #[]

end Setting

/-- **What a step of a session comes to**, next to the same request on its own. -/
structure Session.IsStep (setting : Setting) (before : Session) (mode : Mode) (template : Text)
    (next : Session) (reply : Reply) : Prop where
  /-- The count or the error is that of the request on its own. -/
  result : reply.result = (setting.single mode template).result
  /-- The count is that of the sentences, and an error is reported only if it is asked for. -/
  counted : reply.result = .ok (setting.single mode template).output.size ∨
    mode = .attempt ∧ ∃ error, reply.result = .error error
  /-- The sentences are those of the request on its own, behind the list as it was unless the request
      begins a new one. -/
  output : reply.output = mode.place before.output (setting.single mode template).output
  /-- The events are those of the request on its own. -/
  events : reply.events = (setting.single mode template).events
  /-- The next request finds the list of the reply. -/
  list : next.output = reply.output
  /-- The recorder has the events of the reply behind all before. -/
  recorded : next.recorded = before.recorded ++ reply.events

namespace Session

variable {setting : Setting}

/-- **Every request replies as on its own**, whatever the session went through before. -/
theorem isStep_perform (session : Session) (setting : Setting) (mode : Mode) (template : Text) :
    IsStep setting session mode template (session.perform setting mode template).1
      (session.perform setting mode template).2 where
  result := (setting.result_perform mode template session.output).trans
    (setting.result_single mode template).symm
  counted := by
    have hresult : (session.perform setting mode template).2.result =
        (setting.yield template template 0).answer mode :=
      setting.result_perform mode template session.output
    rw [hresult, setting.output_single, List.size_toArray]
    cases mode with
    | gather => exact Or.inl rfl
    | fresh => exact Or.inl rfl
    | attempt =>
        unfold Yield.answer Yield.result
        cases (setting.yield template template 0).error with
        | none => exact Or.inl rfl
        | some error => exact Or.inr ⟨rfl, error, rfl⟩
  output := by
    rw [setting.output_single]
    exact setting.output_perform mode template session.output
  events := (setting.events_perform mode template session.output).trans
    (setting.events_single mode template).symm
  list := rfl
  recorded := rfl

/-! ## Sequences of requests -/

/-- **The session after requests.** -/
def after (session : Session) (setting : Setting) (steps : List (Mode × Text)) : Session :=
  steps.foldl (fun current step => (current.perform setting step.1 step.2).1) session

theorem after_cons (session : Session) (mode : Mode) (template : Text) (rest : List (Mode × Text)) :
    session.after setting ((mode, template) :: rest) =
      (session.perform setting mode template).1.after setting rest := rfl

theorem after_append (session : Session) (earlier later : List (Mode × Text)) :
    session.after setting (earlier ++ later) = (session.after setting earlier).after setting later :=
  List.foldl_append

theorem length_performAll (session : Session) (steps : List (Mode × Text)) :
    (session.performAll setting steps).length = steps.length := by
  induction steps generalizing session with
  | nil => rfl
  | cons step rest ih => exact congrArg Nat.succ (ih _)

/-- Later requests find the session that earlier ones leave. -/
theorem performAll_append (session : Session) (earlier later : List (Mode × Text)) :
    session.performAll setting (earlier ++ later) =
      session.performAll setting earlier ++
        (session.after setting earlier).performAll setting later := by
  induction earlier generalizing session with
  | nil => rfl
  | cons step rest ih => exact congrArg (List.cons _) (ih _)

/-- The reply to a request in a sequence is the one after what came before it. -/
theorem getElem?_performAll (session : Session) (earlier later : List (Mode × Text)) (mode : Mode)
    (template : Text) :
    (session.performAll setting (earlier ++ (mode, template) :: later))[earlier.length]? =
      some ((session.after setting earlier).perform setting mode template) := by
  have hlength : (session.performAll setting earlier).length ≤ earlier.length :=
    Nat.le_of_eq (session.length_performAll earlier)
  rw [performAll_append, List.getElem?_append_right hlength, length_performAll, Nat.sub_self]
  rfl

/-- **The recorder keeps everything**: the events of all requests, each as on its own, in order. -/
theorem recorded_after (session : Session) (steps : List (Mode × Text)) :
    (session.after setting steps).recorded =
      session.recorded ++ steps.flatMap fun step => (setting.single step.1 step.2).events := by
  induction steps generalizing session with
  | nil => exact (List.append_nil _).symm
  | cons step rest ih =>
      obtain ⟨mode, template⟩ := step
      have hstep := session.isStep_perform setting mode template
      rw [after_cons, ih, hstep.recorded, hstep.events, List.flatMap_cons, List.append_assoc]

/-- **Requests in sequence are independent.** Each gets the reply that it would get on its own, its
    sentences at the end of the list that it found, also if it or one before it failed. The three ways
    of asking differ in what they report and where the sentences go, and in nothing else. The recorder
    holds the events of all requests in order, and the warnings are the ones among them. -/
theorem performAll_independent (session : Session) (setting : Setting) :
    (∀ steps, (session.performAll setting steps).length = steps.length) ∧
    (∀ earlier mode template later,
      ∃ reply, (session.performAll setting (earlier ++ (mode, template) :: later))[earlier.length]? =
          some (session.after setting (earlier ++ [(mode, template)]), reply) ∧
        IsStep setting (session.after setting earlier) mode template
          (session.after setting (earlier ++ [(mode, template)])) reply) ∧
    (∀ mode other template,
      (setting.single mode template).output = (setting.single other template).output ∧
      (setting.single mode template).events = (setting.single other template).events) ∧
    ∀ steps, (session.after setting steps).recorded =
        session.recorded ++ steps.flatMap (fun step => (setting.single step.1 step.2).events) ∧
      WarningsOf (session.after setting steps).recorded (session.after setting steps).warnings := by
  refine ⟨session.length_performAll, ?_, ?_, ?_⟩
  · intro earlier mode template later
    have hafter : session.after setting (earlier ++ [(mode, template)]) =
        ((session.after setting earlier).perform setting mode template).1 :=
      session.after_append earlier [(mode, template)]
    rw [hafter]
    exact ⟨_, session.getElem?_performAll earlier later mode template,
      (session.after setting earlier).isStep_perform setting mode template⟩
  · intro mode other template
    rw [setting.output_single, setting.output_single, setting.events_single, setting.events_single]
    exact ⟨rfl, rfl⟩
  · intro steps
    exact ⟨session.recorded_after steps, warningsOf_warnings _⟩

/-- The same template, which fails behind one sentence, in all three ways behind another sentence. -/
example :
    ((Session.mk #["a".toList] []).performAll Setting.withoutSubstitutions
      [(.attempt, "n~$(a|1)".toList), (.gather, "n~$(a|1)".toList), (.fresh, "n~$(a|1)".toList)]).map
        (fun step => (step.1.output.map String.ofList, step.1.warnings.length)) =
      [(#["a", "n~$1"], 1), (#["a", "n~$1", "n~$1"], 2), (#["n~$1"], 3)] := by
  decide +kernel

end Session

end Phrasing
