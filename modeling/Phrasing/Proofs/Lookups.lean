import Phrasing.Proofs.Lockstep
import Phrasing.Proofs.Sessions

/-!
# `Proofs.Lookups` — what an expansion asks of the variables

Which variables matter to an expansion shows only while it runs: values mention further variables,
choices put references together, and an error ends the run before all of them are looked up. What a run
looks up is told by its events and its error, and nothing else of the table of variables matters to it.

## Contents
- **`Loop.Asks`**, **`Setting.LooksUp`**: the names that a run looks up.
- **`Run.lookups`**: the same names, read off a finished run (`looksUp_iff_mem_lookups`).
- **`Setting.withVars`**, `expand_withVars`: tables that agree on these names give the same run.
- **`Variables.erase`**: the table without a name.
- **`Setting.perform_withVars`**.
-/

namespace Phrasing

open Text

/-! ## Lookups -/

/-- **A state asks for a name**: the text on top of the stack mentions the variable, and there is a
    substitution left for it. -/
def Loop.Asks (loop : Loop) (limit : Nat) (name : Text) : Prop :=
  ∃ top rest, loop.stack = top :: rest ∧ (classify top.text).rule = .reference ∧
    top.depth < limit ∧ (classify top.text).body = name

/-- Only the text on top of the stack matters. -/
theorem Loop.asks_iff {loop : Loop} {top : Branch} {rest : List Branch}
    (hstack : loop.stack = top :: rest) {limit : Nat} {name : Text} :
    loop.Asks limit name ↔ (classify top.text).rule = .reference ∧ top.depth < limit ∧
      (classify top.text).body = name := by
  constructor
  · rintro ⟨asked, below, hasked, h⟩
    rw [hstack, List.cons.injEq] at hasked
    rwa [hasked.1]
  · intro h
    exact ⟨top, rest, hstack, h⟩

/-- **An expansion looks up a name** if it comes to a state that asks for it. -/
def Setting.LooksUp (setting : Setting) (template name : Text) : Prop :=
  ∃ n loop, setting.Reaches template (.start template #[]) n loop ∧
    loop.Asks setting.options.depthLimit name

/-- The name that was looked up, if the event tells of that. -/
def Event.lookup? : Event → Option Text
  | varied .reference fragment _ => some (classify fragment).body
  | _ => none

/-- The name whose lookup stopped an expansion, if the error tells of that. -/
def ExpansionError.lookup? : ExpansionError → Option Text
  | undefinedVariable name _ => some name
  | depthExceeded _ _ => none

/-- **The names that a finished run tells of**: each has given way to its value, except that the last
    may have none where it needs one. -/
def Run.lookups (run : Run) : List Text :=
  run.events.toList.filterMap Event.lookup? ++ (run.error.bind ExpansionError.lookup?).toList

namespace Setting

variable {first second setting : Setting} {template : Text} {output : Array Text}

/-! ## Lookups and events -/

/-- What an iteration tells is what its step tells. -/
theorem step_of_goesOn {loop next : Loop} (h : setting.iterate template loop = .goesOn next) :
    ∃ top rest step, loop.stack = top :: rest ∧ setting.Takes template top.toPending step ∧
      (∀ error, step ≠ .stopped error) ∧
      next.events.toList = loop.events.toList ++ step.events top.text := by
  unfold iterate at h
  split at h
  · exact absurd h (by simp)
  · rename_i top rest hstack
    have htakes := takes_step setting template top.toPending
    refine ⟨top, rest, setting.step template top.toPending, hstack, htakes, ?_⟩
    split at h
    all_goals
      rename_i hstep
      simp only [Iteration.goesOn.injEq, reduceCtorEq] at h
    all_goals
      subst h
      rw [hstep]
      exact ⟨by simp, by simp⟩

/-- **An iteration that goes on tells of the name that it looks up**, and of no other. -/
theorem asks_iff_of_goesOn {loop next : Loop} (h : setting.iterate template loop = .goesOn next) :
    ∃ told, next.events.toList = loop.events.toList ++ told ∧
      ∀ name, name ∈ told.filterMap Event.lookup? ↔ loop.Asks setting.options.depthLimit name := by
  obtain ⟨top, rest, step, hstack, htakes, hgoes, hevents⟩ := step_of_goesOn h
  refine ⟨step.events top.text, hevents, fun name => ?_⟩
  rw [Loop.asks_iff hstack]
  cases htakes with
  | vanilla hrule => simp [Step.events, Event.lookup?, hrule]
  | synonym hrule => simp [Step.events, Event.lookup?, hrule]
  | dropped hrule => simp [Step.events, Event.lookup?, hrule]
  | substituted hrule hdepth _ =>
      simp [Step.events, Event.lookup?, hrule, hdepth, @eq_comm _ name]
  | emptied hrule hdepth _ _ => simp [Step.events, Event.lookup?, hrule, hdepth]
  | exhausted _ _ => exact absurd rfl (hgoes _)
  | undefined _ _ _ _ => exact absurd rfl (hgoes _)
  | chosen hrule =>
      rcases hrule with hrule | hrule | hrule <;> simp [Step.events, Event.lookup?, hrule]

/-- **An iteration that ends a run** leaves the name that it looks up in the error. -/
theorem asks_iff_of_ended {loop : Loop} {run : Run}
    (h : setting.iterate template loop = .ended run) :
    run.events.toList.filterMap Event.lookup? = loop.events.toList.filterMap Event.lookup? ∧
      ∀ name, name ∈ run.error.bind ExpansionError.lookup? ↔
        loop.Asks setting.options.depthLimit name := by
  rcases ended_cases h with ⟨hstack, rfl⟩ | ⟨top, rest, error, hstack, hstep, rfl⟩
  · refine ⟨rfl, fun name => ⟨fun hname => absurd hname (by simp), ?_⟩⟩
    rintro ⟨top, rest, htop, -⟩
    exact absurd (hstack.symm.trans htop) (by simp)
  · have htakes := takes_step setting template top.toPending
    rw [hstep] at htakes
    simp only [Loop.asks_iff hstack]
    cases htakes with
    | exhausted hrule hlimit =>
        have hdepth : ¬ top.depth < setting.options.depthLimit := Nat.not_lt_of_le hlimit
        exact ⟨by simp [Step.events, Event.lookup?], by simp [ExpansionError.lookup?, hdepth]⟩
    | undefined hrule hdepth _ _ =>
        exact ⟨by simp [Step.events], by simp [ExpansionError.lookup?, hrule, hdepth]⟩

/-- The names that the events of a state tell of were looked up on the way to it. -/
theorem looksUp_of_mem_events {n : Nat} {loop : Loop}
    (h : setting.Reaches template (.start template #[]) n loop) {name : Text}
    (hname : name ∈ loop.events.toList.filterMap Event.lookup?) :
    setting.LooksUp template name := by
  induction h with
  | refl => exact absurd hname List.not_mem_nil
  | @next n loop next hreaches hnext ih =>
      obtain ⟨told, hevents, hasks⟩ := asks_iff_of_goesOn hnext
      rw [hevents, List.filterMap_append] at hname
      rcases List.mem_append.mp hname with hname | hname
      · exact ih hname
      · exact ⟨n, loop, hreaches, (hasks name).mp hname⟩

/-- The events of a state that is reached are told by the finished run. -/
theorem Reaches.events_extend {n : Nat} {loop : Loop}
    (h : setting.Reaches template (.start template output) n loop) :
    ∃ later, (setting.expand template output).events.toList = loop.events.toList ++ later := by
  obtain ⟨-, later, -, hevents⟩ := h.attempt_extends
  rw [(attempt_of_expand rfl).2.2] at hevents
  exact ⟨later, hevents⟩

/-- **What a run looks up can be read off it**, once it is finished. -/
theorem looksUp_iff_mem_lookups (setting : Setting) (template name : Text) :
    setting.LooksUp template name ↔ name ∈ (setting.expand template #[]).lookups := by
  rw [Run.lookups, List.mem_append, Option.mem_toList]
  constructor
  · rintro ⟨n, loop, hreaches, hloop⟩
    cases hiterate : setting.iterate template loop with
    | goesOn next =>
        obtain ⟨told, htold, hasks⟩ := asks_iff_of_goesOn hiterate
        obtain ⟨later, hlater⟩ := (Reaches.next hreaches hiterate).events_extend
        rw [hlater, htold, List.filterMap_append, List.filterMap_append]
        exact Or.inl (List.mem_append_left _ (List.mem_append_right _ ((hasks name).mpr hloop)))
    | ended run =>
        have hrun := hreaches.expand_eq
        rw [drain_eq_of_iterate, hiterate] at hrun
        rw [hrun]
        exact Or.inr (((asks_iff_of_ended hiterate).2 name).mpr hloop)
  · obtain ⟨n, last, hreaches, hended⟩ := exists_ended_expand setting template #[]
    obtain ⟨hevents, hasks⟩ := asks_iff_of_ended hended
    rintro (hname | hname)
    · rw [hevents] at hname
      exact looksUp_of_mem_events hreaches hname
    · exact ⟨n, last, hreaches, (hasks name).mp hname⟩

/-! ## The same steps -/

/-- A step depends on the variables through the value of one name, if the text has a variable and a
    substitution is left. -/
theorem step_congr {pending : Pending} (hoptions : second.options = first.options)
    (hget : (classify pending.text).rule = .reference → pending.depth < first.options.depthLimit →
      second.vars.get? (classify pending.text).body = first.vars.get? (classify pending.text).body) :
    second.step template pending = first.step template pending := by
  have htakes := takes_step first template pending
  generalize first.step template pending = step at htakes
  apply Takes.step_eq
  cases htakes with
  | vanilla hrule => exact .vanilla hrule
  | synonym hrule => exact .synonym hrule
  | dropped hrule => exact .dropped hrule
  | chosen hrule => exact .chosen hrule
  | exhausted hrule hlimit =>
      rw [← hoptions] at hlimit ⊢
      exact .exhausted hrule hlimit
  | substituted hrule hdepth hvalue =>
      exact .substituted hrule (hoptions ▸ hdepth) ((hget hrule hdepth).trans hvalue)
  | emptied hrule hdepth hnone hempty =>
      exact .emptied hrule (hoptions ▸ hdepth) ((hget hrule hdepth).trans hnone)
        (hoptions ▸ hempty)
  | undefined hrule hdepth hnone hstrict =>
      exact .undefined hrule (hoptions ▸ hdepth) ((hget hrule hdepth).trans hnone)
        (hoptions ▸ hstrict)

/-- If two settings take the same iteration in every state that one of them reaches, the other reaches
    these states, too. -/
theorem Reaches.congr {start : Loop}
    (h : ∀ n loop, first.Reaches template start n loop →
      second.iterate template loop = first.iterate template loop)
    {n : Nat} {loop : Loop} (hreaches : first.Reaches template start n loop) :
    second.Reaches template start n loop := by
  induction hreaches with
  | refl => exact .refl
  | next hbefore hnext ih => exact .next ih ((h _ _ hbefore).trans hnext)

/-- And their runs are the same. -/
theorem expand_congr
    (h : ∀ n loop, first.Reaches template (.start template output) n loop →
      second.iterate template loop = first.iterate template loop) :
    second.expand template output = first.expand template output := by
  obtain ⟨n, last, hreaches, hended⟩ := exists_ended_expand first template output
  have hdrain := drain_eq_of_iterate second template last
  rw [h n last hreaches, hended] at hdrain
  exact (hreaches.congr h).expand_eq.trans hdrain

/-- The same run gives the same replies, however it is asked for. -/
theorem perform_congr (h : second.expand template #[] = first.expand template #[]) (mode : Mode)
    (output : Array Text) :
    second.perform mode template output = first.perform mode template output := by
  have hsame : second.expand template output = first.expand template output := by
    rw [expand_eq_yield, expand_eq_yield, Run.mk.injEq] at h ⊢
    obtain ⟨hsentences, hevents, herror⟩ := h
    rw [Array.empty_append, Array.empty_append] at hsentences
    exact ⟨by rw [hsentences], hevents, herror⟩
  cases mode with
  | attempt => exact attempt_congr hsame
  | gather => simp only [perform, hsame]
  | fresh => simp only [perform, h]

/-! ## Other variables -/

/-- The setting with other variables. -/
def withVars (setting : Setting) (vars : Variables) : Setting := { setting with vars := vars }

/-- **Tables that agree on what is looked up** give the same run. -/
theorem expand_withVars {vars : Variables}
    (h : ∀ name, setting.LooksUp template name → vars.get? name = setting.vars.get? name) :
    (setting.withVars vars).expand template #[] = setting.expand template #[] := by
  refine expand_congr fun n loop hreaches => iterate_congr fun top htop => ?_
  obtain ⟨rest, hstack⟩ := List.head?_eq_some_iff.mp htop
  refine step_congr rfl fun hrule hdepth => ?_
  exact h _ ⟨n, loop, hreaches, top, rest, hstack, hrule, hdepth, rfl⟩

end Setting

/-! ## Tables without a name -/

namespace Variables

/-- **The table without a name**, in whatever letter case the name is written. -/
def erase (vars : Variables) (name : Text) : Variables :=
  ⟨vars.entries.filter fun entry => entry.1 ≠ lower name, vars.sorted.filter _⟩

theorem findEntry_filter {key other : Text} (h : other ≠ key) (entries : List (Text × Text)) :
    findEntry other (entries.filter fun entry => entry.1 ≠ key) = findEntry other entries := by
  induction entries with
  | nil => rfl
  | cons entry rest ih =>
      obtain ⟨k, value⟩ := entry
      by_cases hk : k = key
      · have hne : k ≠ other := fun heq => h (heq ▸ hk)
        rw [List.filter_cons_of_neg (by simpa using hk), findEntry, if_neg hne, ih]
      · rw [List.filter_cons_of_pos (by simpa using hk), findEntry, findEntry, ih]

/-- Other names keep their values. -/
theorem get?_erase {vars : Variables} {name other : Text} (h : lower other ≠ lower name) :
    (vars.erase name).get? other = vars.get? other :=
  findEntry_filter h vars.entries

/-- The name has none any more. -/
theorem get?_erase_self (vars : Variables) (name : Text) : (vars.erase name).get? name = none := by
  cases hget : (vars.erase name).get? name with
  | none => rfl
  | some value =>
      have hmem := (List.mem_filter.mp (mem_entries_of_get? hget)).2
      exact absurd hmem (by simp)

/-- Setting the value of a name keeps the values of other names. -/
theorem get?_insert {vars : Variables} {name value other : Text} (h : lower other ≠ lower name) :
    (vars.insert name value).get? other = vars.get? other := by
  rw [get?, insert, find?_put, if_neg (fun heq => h heq.symm)]
  rfl

end Variables

namespace Setting

/-! ## Nothing else matters -/

/-- **An expansion depends on the variables only through the names that it looks up.** With a table that
    agrees on these, it replies the same and looks up the same names. So a variable that is not looked
    up, in whatever letter case, can be added, changed or taken away. -/
theorem perform_withVars (setting : Setting) (template : Text) (mode : Mode) (output : Array Text) :
    (∀ vars : Variables,
      (∀ name, setting.LooksUp template name → vars.get? name = setting.vars.get? name) →
        (setting.withVars vars).perform mode template output =
            setting.perform mode template output ∧
          ∀ name, (setting.withVars vars).LooksUp template name ↔ setting.LooksUp template name) ∧
    ∀ name, (∀ other, setting.LooksUp template other → lower other ≠ lower name) →
      (∀ value, (setting.withVars (setting.vars.insert name value)).perform mode template output =
        setting.perform mode template output) ∧
      (setting.withVars (setting.vars.erase name)).perform mode template output =
        setting.perform mode template output := by
  have hreply : ∀ vars : Variables,
      (∀ name, setting.LooksUp template name → vars.get? name = setting.vars.get? name) →
        (setting.withVars vars).perform mode template output =
          setting.perform mode template output :=
    fun vars hvars => perform_congr (expand_withVars hvars) mode output
  refine ⟨fun vars hvars => ⟨hreply vars hvars, fun name => ?_⟩, fun name hname => ⟨?_, ?_⟩⟩
  · rw [looksUp_iff_mem_lookups, looksUp_iff_mem_lookups, expand_withVars hvars]
  · intro value
    exact hreply _ fun other hother => Variables.get?_insert (hname other hother)
  · exact hreply _ fun other hother => Variables.get?_erase (hname other hother)

/-- One substitution, and values required. -/
def strictOnce : Setting :=
  ⟨.ofPairs [("v".toList, "x".toList)], { depthLimit := 1, undefined := .strict }⟩

/-- `$(v|w)` comes to `$w` first, which has no value, and so never looks up `v`. -/
theorem strictOnce_lookups : (strictOnce.expand "$(v|w)".toList #[]).lookups = ["w".toList] := by
  decide +kernel

/-- Where the choice between two variables fails at the one, the value of the other makes no difference,
    nor does a table without it. -/
theorem perform_withVars_strictOnce :
    (strictOnce.perform .attempt "$(v|w)".toList #[]).result =
        .error (.undefinedVariable "w".toList "$w".toList) ∧
      (strictOnce.withVars (.ofPairs [("V".toList, "$w".toList)])).perform .attempt
        "$(v|w)".toList #[] = strictOnce.perform .attempt "$(v|w)".toList #[] ∧
      (strictOnce.vars.erase "V".toList).get? "V".toList = none ∧
      (strictOnce.withVars (strictOnce.vars.erase "V".toList)).perform .attempt "$(v|w)".toList #[] =
        strictOnce.perform .attempt "$(v|w)".toList #[] := by
  have hlookups : ∀ name, strictOnce.LooksUp "$(v|w)".toList name → name = "w".toList := by
    intro name hname
    rw [looksUp_iff_mem_lookups, strictOnce_lookups] at hname
    exact List.mem_singleton.mp hname
  obtain ⟨hsame, hunused⟩ := perform_withVars strictOnce "$(v|w)".toList .attempt #[]
  refine ⟨by decide +kernel, (hsame _ ?_).1, strictOnce.vars.get?_erase_self _,
    (hunused "V".toList ?_).2⟩
  · intro name hname
    rw [hlookups name hname]
    decide +kernel
  · intro other hother
    rw [hlookups other hother]
    decide +kernel

end Setting

end Phrasing
