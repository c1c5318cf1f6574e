import Phrasing.Expansion.Session
import Phrasing.Proofs.Step

/-!
# `Proofs.Recursion` — the stack works like a recursion

What a text yields can be told without a stack: a sentence yields itself, and a text with variants
yields what they yield, the last variant first, up to the first error. `drain_eq_yields` says that
working off any stack is this recursion on each of its texts in turn, and
`perform_attempt_eq_yield` that an expansion is the recursion on its template.

## Contents
- **`Yield`**, `Yield.andThen`, `Yield.inTurn`: what a text yields; one yield after another.
- **`Setting.yield`**: the recursion, and `yield_eq_of_step`, which compares it with one step.
- **`Setting.yields`**: what a stack yields. `drain_eq_yields` carries the induction.
- **`Setting.perform_attempt_eq_yield`**.
-/

namespace Phrasing

/-! ## Yields -/

/-- **What a text yields**: its sentences and what is reported meanwhile, in order, and the error
    that cut it short, if any. -/
structure Yield where
  sentences : List Text
  events : List Event
  error : Option ExpansionError
deriving Repr, DecidableEq

namespace Yield

/-- No sentence, no event. -/
def nothing : Yield := ⟨[], [], none⟩

/-- One yield after another; an error in the first keeps the second from being begun. -/
def andThen (first second : Yield) : Yield :=
  match first.error with
  | some _ => first
  | none =>
      ⟨first.sentences ++ second.sentences, first.events ++ second.events, second.error⟩

/-- Yields in turn, up to the first error. -/
def inTurn : List Yield → Yield
  | [] => nothing
  | first :: rest => first.andThen (inTurn rest)

/-- The yield with something reported before it. -/
def behind (events : List Event) (later : Yield) : Yield :=
  { later with events := events ++ later.events }

/-- The number of sentences, or the error that cut them short. -/
def result (y : Yield) : Except ExpansionError Nat :=
  match y.error with
  | some error => .error error
  | none => .ok y.sentences.length

@[simp] theorem inTurn_nil : inTurn [] = nothing := rfl

@[simp] theorem inTurn_cons (first : Yield) (rest : List Yield) :
    inTurn (first :: rest) = first.andThen (inTurn rest) := rfl

theorem andThen_nothing (first : Yield) : first.andThen nothing = first := by
  obtain ⟨sentences, events, error⟩ := first
  cases error <;> simp [andThen, nothing]

theorem andThen_assoc (first second third : Yield) :
    (first.andThen second).andThen third = first.andThen (second.andThen third) := by
  obtain ⟨sentences, events, error⟩ := first
  cases error with
  | some error => rfl
  | none =>
      obtain ⟨sentences', events', error'⟩ := second
      cases error' <;> simp [andThen]

theorem behind_andThen (events : List Event) (first second : Yield) :
    (first.behind events).andThen second = (first.andThen second).behind events := by
  obtain ⟨sentences, events', error⟩ := first
  cases error <;> simp [andThen, behind]

/-- The yields of two lists in turn. -/
theorem inTurn_append (xs ys : List Yield) :
    inTurn (xs ++ ys) = (inTurn xs).andThen (inTurn ys) := by
  induction xs with
  | nil => rfl
  | cons first rest ih => rw [List.cons_append, inTurn_cons, inTurn_cons, ih, andThen_assoc]

/-- Without errors nothing is cut short: the sentences of all the yields come one after the other. -/
theorem inTurn_of_no_error {ys : List Yield} (h : ∀ y ∈ ys, y.error = none) :
    (inTurn ys).error = none ∧ (inTurn ys).sentences = ys.flatMap Yield.sentences := by
  induction ys with
  | nil => exact ⟨rfl, rfl⟩
  | cons first rest ih =>
      have hfirst : first.error = none := h first List.mem_cons_self
      obtain ⟨herror, hsentences⟩ := ih fun y hy => h y (List.mem_cons_of_mem _ hy)
      rw [inTurn_cons, andThen, hfirst]
      exact ⟨herror, by rw [hsentences, List.flatMap_cons]⟩

end Yield

/-! ## The recursion -/

namespace Setting

/-- A shorter text that as many substitutions led to is lighter. -/
theorem loadOf_lt_of_length_lt (setting : Setting) {s v : Text} (depth : Nat)
    (h : v.length < s.length) : setting.loadOf ⟨v, depth⟩ < setting.loadOf ⟨s, depth⟩ := by
  have hlt : total (weight setting.growth (setting.options.depthLimit - depth)) [v.length] <
      weight setting.growth (setting.options.depthLimit - depth) s.length :=
    total_weight_lt _ _ (by simpa using h) (by simp)
  simpa [loadOf] using hlt

/-- A text with a value filled in is lighter than the text. -/
theorem loadOf_fill_wrap_lt {setting : Setting} {s value : Text} {depth : Nat}
    (hdepth : ¬ setting.options.depthLimit ≤ depth)
    (hvalue : value.length ≤ setting.vars.longest) :
    setting.loadOf ⟨(classify s).fill (wrap value), depth + 1⟩ < setting.loadOf ⟨s, depth⟩ := by
  have hlt : setting.load (stack [(classify s).fill (wrap value)] (depth + 1)) <
      setting.loadOf ⟨s, depth⟩ := @load_substitution_lt setting ⟨s, depth⟩ value hdepth hvalue
  simpa [load, stack] using hlt

/-- **What a text yields**, in the expansion of a template, when so many substitutions led to it. -/
def yield (setting : Setting) (template s : Text) (depth : Nat) : Yield :=
  let c := classify s
  match c.rule with
  | .vanilla => ⟨[s], [.emitted .vanilla s], none⟩
  | .synonym => ⟨[s], [.emitted .synonym s], none⟩
  | .unrecognized => ⟨[], [.unrecognized s], none⟩
  | .reference =>
      if _hlimit : setting.options.depthLimit ≤ depth then
        ⟨[], [.limitReached setting.options.depthLimit template],
          some (.depthExceeded template setting.options.depthLimit)⟩
      else
        match hget : setting.vars.get? c.body with
        | some value =>
            (setting.yield template (c.fill (wrap value)) (depth + 1)).behind
              [.varied .reference s 1]
        | none =>
            match setting.options.undefined with
            | .empty =>
                (setting.yield template (c.fill (wrap [])) (depth + 1)).behind
                  [.undefinedVariable c.body s, .varied .reference s 1]
            | .strict => ⟨[], [], some (.undefinedVariable c.body s)⟩
  | rule =>
      (Yield.inTurn (c.choices.reverse.attach.map fun v =>
        setting.yield template v.1 depth)).behind [.varied rule s c.choices.length]
termination_by setting.loadOf ⟨s, depth⟩
decreasing_by
  · exact loadOf_fill_wrap_lt _hlimit (Variables.length_le_longest hget)
  · exact loadOf_fill_wrap_lt _hlimit (Nat.zero_le _)
  · exact setting.loadOf_lt_of_length_lt depth
      (length_lt_of_mem_choices (List.mem_reverse.mp v.2))

theorem yield_of_vanilla {setting : Setting} {s : Text} (hrule : (classify s).rule = .vanilla)
    (template : Text) (depth : Nat) :
    setting.yield template s depth = ⟨[s], [.emitted .vanilla s], none⟩ := by
  rw [yield]
  simp only [hrule]

theorem yield_of_unrecognized {setting : Setting} {s : Text}
    (hrule : (classify s).rule = .unrecognized) (template : Text) (depth : Nat) :
    setting.yield template s depth = ⟨[], [.unrecognized s], none⟩ := by
  rw [yield]
  simp only [hrule]

/-- A text under a rule for choices yields what its choices yield, the last first. -/
theorem yield_of_isChoice {setting : Setting} {s : Text} (hrule : (classify s).rule.IsChoice)
    (template : Text) (depth : Nat) :
    setting.yield template s depth =
      (Yield.inTurn ((classify s).choices.reverse.map fun v =>
        setting.yield template v depth)).behind
        [.varied (classify s).rule s (classify s).choices.length] := by
  rw [yield]
  rcases hrule with hrule | hrule | hrule <;> simp [hrule]

/-- The recursion and one step agree: what a step finds is what is yielded, and where it gives way
    to variants, they are yielded in turn, the last first. -/
theorem yield_eq_of_step (setting : Setting) (template : Text) (pending : Pending) :
    setting.yield template pending.text pending.depth =
      match setting.step template pending with
      | .sentence rule => ⟨[pending.text], (Step.sentence rule).events pending.text, none⟩
      | .dropped => ⟨[], Step.dropped.events pending.text, none⟩
      | .varied rule missing variants depth =>
          (Yield.inTurn (variants.reverse.map fun v => setting.yield template v depth)).behind
            ((Step.varied rule missing variants depth).events pending.text)
      | .stopped error => ⟨[], (Step.stopped error).events pending.text, some error⟩ := by
  have htakes := takes_step setting template pending
  generalize setting.step template pending = step at htakes
  cases htakes with
  | vanilla hrule => exact yield_of_vanilla hrule template pending.depth
  | synonym hrule =>
      rw [yield]
      simp only [hrule, Step.events]
  | dropped hrule => exact yield_of_unrecognized hrule template pending.depth
  | exhausted hrule hlimit =>
      rw [yield]
      simp only [hrule, hlimit, Step.events, dif_pos]
  | substituted hrule hdepth hget =>
      rw [yield]
      simp only [hrule, Nat.not_le_of_lt hdepth, Step.events, dif_neg, not_false_eq_true]
      split
      · rename_i value hvalue
        rw [hget, Option.some.injEq] at hvalue
        subst hvalue
        simp [Yield.andThen_nothing]
      · rename_i hnone
        rw [hget] at hnone
        exact absurd hnone (by simp)
  | emptied hrule hdepth hget hempty =>
      rw [yield]
      simp only [hrule, Nat.not_le_of_lt hdepth, Step.events, dif_neg, not_false_eq_true]
      split
      · rename_i value hvalue
        rw [hget] at hvalue
        exact absurd hvalue (by simp)
      · simp [hempty, Yield.andThen_nothing]
  | undefined hrule hdepth hget hstrict =>
      rw [yield]
      simp only [hrule, Nat.not_le_of_lt hdepth, Step.events, dif_neg, not_false_eq_true]
      split
      · rename_i value hvalue
        rw [hget] at hvalue
        exact absurd hvalue (by simp)
      · simp [hstrict]
  | chosen hrule => exact yield_of_isChoice hrule template pending.depth

/-! ## The stack -/

/-- What the texts of a stack yield in turn, from the top down. -/
def yields (setting : Setting) (template : Text) (pending : List Pending) : Yield :=
  Yield.inTurn (pending.map fun p => setting.yield template p.text p.depth)

theorem yields_cons (setting : Setting) (template : Text) (top : Pending) (rest : List Pending) :
    setting.yields template (top :: rest) =
      (setting.yield template top.text top.depth).andThen (setting.yields template rest) := rfl

/-- Stacked variants are yielded in turn, the last first, and then the stack below them. -/
theorem yields_stack_append (setting : Setting) (template : Text) (variants : List Text)
    (depth : Nat) (rest : List Pending) :
    setting.yields template (stack variants depth ++ rest) =
      (Yield.inTurn (variants.reverse.map fun v => setting.yield template v depth)).andThen
        (setting.yields template rest) := by
  rw [yields, List.map_append, Yield.inTurn_append]
  congr 2
  simp [stack]

theorem append_list_eq {α : Type} (xs : Array α) (ys : List α) : xs ++ ys = xs ++ ys.toArray :=
  Array.toList_inj.mp (by simp)

/-- **The stack refines the recursion.** Working off a stack adds to the sentences and events so far
    what the texts of the stack yield in turn, and ends with the error that cuts them short. -/
theorem drain_eq_yields (setting : Setting) (template : Text) (pending : List Pending)
    (output : Array Text) (events : Array Event) :
    setting.drain template pending output events =
      ⟨output ++ (setting.yields template pending).sentences.toArray,
        events ++ (setting.yields template pending).events.toArray,
        (setting.yields template pending).error⟩ := by
  -- along the run: a step on the top of the stack unfolds its yield once
  fun_induction setting.drain template pending output events with
  | case1 output events => simp [yields, Yield.nothing]
  | case2 output events top rest rule hstep ih =>
      rw [ih, yields_cons, yield_eq_of_step, hstep, append_list_eq]
      simp [Yield.andThen]
  | case3 output events top rest hstep ih =>
      rw [ih, yields_cons, yield_eq_of_step, hstep, append_list_eq]
      simp [Yield.andThen]
  | case4 output events top rest rule missing variants depth hstep ih =>
      rw [ih, yields_cons, yield_eq_of_step, hstep, yields_stack_append, append_list_eq]
      simp only [Yield.behind_andThen]
      simp [Yield.behind]
  | case5 output events top rest error hstep =>
      rw [yields_cons, yield_eq_of_step, hstep, append_list_eq]
      simp [Yield.andThen]

/-! ## Expansions -/

/-- A stack of one text yields what the text yields. -/
theorem yields_singleton (setting : Setting) (template : Text) (pending : Pending) :
    setting.yields template [pending] = setting.yield template pending.text pending.depth :=
  Yield.andThen_nothing _

/-- An expansion adds to the sentences before it what its template yields. -/
theorem expand_eq_yield (setting : Setting) (template : Text) (output : Array Text) :
    setting.expand template output =
      ⟨output ++ (setting.yield template template 0).sentences.toArray,
        (setting.yield template template 0).events.toArray,
        (setting.yield template template 0).error⟩ := by
  rw [expand, drain_eq_yields, yields_singleton, Array.empty_append]

/-- **An expansion is the recursion on its template.** The reply tells the number of sentences or the
    error that cut them short; the sentences come behind those before, also if there is an error; and
    the events are told in the order of the recursion. -/
theorem perform_attempt_eq_yield (setting : Setting) (template : Text) (output : Array Text) :
    setting.perform .attempt template output =
      ⟨(setting.yield template template 0).result,
        output ++ (setting.yield template template 0).sentences.toArray,
        (setting.yield template template 0).events.map .expansion⟩ := by
  simp only [perform, expand_eq_yield, Run.result, Run.notices, Yield.result]
  cases (setting.yield template template 0).error with
  | some error => rfl
  | none => simp

end Setting

end Phrasing
