import Phrasing.Proofs.Ledger

/-!
# `Proofs.Lockstep` — expansions of one template in two settings

A setting outlasts another if it takes the same step wherever the other goes on. Then its run goes
through all states of the other run, to the end of it or beyond. A higher limit outlasts a lower one,
and where variables may be without a value a run outlasts one where they may not.

## Contents
- **`Setting.Outlasts`**: the relation between settings. `Outlasts.expand_cases` says how the shorter
  run ends, and what the longer one has done by then.
- **`Setting.withDepthLimit`**, **`perform_attempt_withDepthLimit`**: a higher limit only carries a run
  further.
- **`Setting.withStrict`**, **`perform_attempt_withStrict`**: where values are required, a run is cut off
  at the first variable without one.
-/

namespace Phrasing

open Text Grammar Event

namespace Setting

variable {first second setting : Setting} {template : Text} {output : Array Text}

/-! ## What is reached stays -/

/-- An expansion works off the stack of every state that it reaches. -/
theorem Reaches.expand_eq {n : Nat} {loop : Loop}
    (h : setting.Reaches template (.start template output) n loop) :
    setting.expand template output =
      setting.drain template loop.pending loop.output loop.events :=
  h.drain_eq.symm

/-- A reply keeps the sentences and the events of every state that the expansion reaches. -/
theorem Reaches.attempt_extends {n : Nat} {loop : Loop}
    (h : setting.Reaches template (.start template output) n loop) :
    ∃ more later,
      (setting.perform .attempt template output).output = loop.output ++ List.toArray more ∧
      (setting.perform .attempt template output).events = loop.events.toList ++ later := by
  have hrun := h.expand_eq
  rw [drain_eq_yields] at hrun
  obtain ⟨-, houtput, hevents⟩ := attempt_of_expand hrun
  refine ⟨_, (setting.yields template loop.pending).events, houtput, ?_⟩
  rw [hevents, Array.toList_append]

/-! ## One run outlasts another -/

/-- The same run gives the same reply. -/
theorem attempt_congr
    (h : second.expand template output = first.expand template output) :
    second.perform .attempt template output = first.perform .attempt template output := by
  simp only [perform, h]

/-- Iterations are the same if the steps on the top of the stack are. -/
theorem iterate_congr {loop : Loop}
    (h : ∀ top ∈ loop.stack.head?,
      second.step template top.toPending = first.step template top.toPending) :
    second.iterate template loop = first.iterate template loop := by
  unfold iterate
  cases hstack : loop.stack with
  | nil => rfl
  | cons top rest =>
      rw [hstack] at h
      simp only [h top rfl]

/-- **A setting outlasts another** if it takes the same step wherever the other goes on. -/
def Outlasts (second first : Setting) (template : Text) : Prop :=
  ∀ pending, (∀ error, first.step template pending ≠ .stopped error) →
    second.step template pending = first.step template pending

/-- Where one run goes on, the other goes on in the same way. -/
theorem Outlasts.iterate (h : second.Outlasts first template) {loop next : Loop}
    (hnext : first.iterate template loop = .goesOn next) :
    second.iterate template loop = .goesOn next := by
  rw [← hnext]
  apply iterate_congr
  intro top htop
  apply h
  intro error hstep
  obtain ⟨rest, hstack⟩ := List.head?_eq_some_iff.mp htop
  rw [Setting.iterate, hstack] at hnext
  simp only [hstep] at hnext
  exact absurd hnext (by simp)

/-- Every state of the one run is a state of the other. -/
theorem Outlasts.reaches (h : second.Outlasts first template) {start loop : Loop} {n : Nat}
    (hreaches : first.Reaches template start n loop) : second.Reaches template start n loop := by
  induction hreaches with
  | refl => exact .refl
  | next _ hnext ih => exact .next ih (h.iterate hnext)

/-- **How the shorter run ends.** Both runs come to a state where the shorter one ends: because nothing
    is left, and then the other is the same; or because of a step that stops it, and then the other is
    the same if it takes that step. -/
theorem Outlasts.expand_cases (h : second.Outlasts first template) (output : Array Text) :
    ∃ n last, first.Reaches template (.start template output) n last ∧
      second.Reaches template (.start template output) n last ∧
      ((first.expand template output = ⟨last.output, last.events, none⟩ ∧
          second.expand template output = first.expand template output) ∨
        ∃ top rest error, last.stack = top :: rest ∧
          first.step template top.toPending = .stopped error ∧
          first.expand template output =
            ⟨last.output, last.events ++ (Step.stopped error).events top.text, some error⟩ ∧
          (second.step template top.toPending = .stopped error →
            second.expand template output = first.expand template output)) := by
  obtain ⟨n, last, hreaches, hended⟩ := exists_ended_expand first template output
  have hboth := h.reaches hreaches
  -- the other run ends here, too, if it takes the same step
  have hsame : (∀ top ∈ last.stack.head?,
      second.step template top.toPending = first.step template top.toPending) →
        second.expand template output = first.expand template output := by
    intro hstep
    have hdrain := drain_eq_of_iterate second template last
    rw [iterate_congr hstep, hended] at hdrain
    exact hboth.expand_eq.trans hdrain
  refine ⟨n, last, hreaches, hboth, ?_⟩
  rcases ended_cases hended with ⟨hstack, hrun⟩ | ⟨top, rest, error, hstack, hstep, hrun⟩
  · refine Or.inl ⟨hrun, hsame ?_⟩
    rw [hstack]
    intro top htop
    exact absurd htop (by simp)
  · refine Or.inr ⟨top, rest, error, hstack, hstep, hrun, ?_⟩
    intro hstopped
    apply hsame
    rw [hstack]
    intro other hother
    rw [← Option.some.inj hother, hstopped, hstep]

/-! ## A higher limit -/

/-- The setting with another limit. -/
def withDepthLimit (setting : Setting) (limit : Nat) : Setting :=
  { setting with options := setting.options.withDepthLimit (some limit) }

/-- A higher limit makes no difference to a step, unless the lower one stops it. -/
theorem withDepthLimit_step {limit : Nat} (h : setting.options.depthLimit ≤ limit)
    {pending : Pending}
    (hlimit : ∀ stopped bound,
      setting.step template pending ≠ .stopped (.depthExceeded stopped bound)) :
    (setting.withDepthLimit limit).step template pending = setting.step template pending := by
  have htakes := takes_step setting template pending
  generalize setting.step template pending = step at htakes hlimit
  apply Takes.step_eq
  cases htakes with
  | vanilla hrule => exact .vanilla hrule
  | synonym hrule => exact .synonym hrule
  | dropped hrule => exact .dropped hrule
  | exhausted _ _ => exact absurd rfl (hlimit _ _)
  | substituted hrule hdepth hget => exact .substituted hrule (Nat.lt_of_lt_of_le hdepth h) hget
  | emptied hrule hdepth hget hempty =>
      exact .emptied hrule (Nat.lt_of_lt_of_le hdepth h) hget hempty
  | undefined hrule hdepth hget hstrict =>
      exact .undefined hrule (Nat.lt_of_lt_of_le hdepth h) hget hstrict
  | chosen hrule => exact .chosen hrule

/-- **A higher limit only carries a run further.** -/
theorem perform_attempt_withDepthLimit (setting : Setting) (template : Text) (output : Array Text)
    {limit : Nat} (h : setting.options.depthLimit ≤ limit) :
    ((∀ stopped bound, (setting.perform .attempt template output).result ≠
          .error (.depthExceeded stopped bound)) ∧
        (setting.withDepthLimit limit).perform .attempt template output =
          setting.perform .attempt template output) ∨
      ((setting.perform .attempt template output).result =
          .error (.depthExceeded template setting.options.depthLimit) ∧
        ∃ produced more told later,
          (setting.perform .attempt template output).output = output ++ List.toArray produced ∧
          ((setting.withDepthLimit limit).perform .attempt template output).output =
            output ++ (produced ++ more).toArray ∧
          (setting.perform .attempt template output).events =
            told ++ [.limitReached setting.options.depthLimit template] ∧
          ((setting.withDepthLimit limit).perform .attempt template output).events =
            told ++ later) := by
  have houtlasts : (setting.withDepthLimit limit).Outlasts setting template :=
    fun pending hgoes => withDepthLimit_step h fun stopped bound => hgoes _
  obtain ⟨n, last, hreaches, hboth, hend⟩ := houtlasts.expand_cases output
  rcases hend with ⟨hrun, hsame⟩ | ⟨top, rest, error, hstack, hstep, hrun, hsame⟩
  · refine Or.inl ⟨?_, attempt_congr hsame⟩
    intro stopped bound
    rw [(attempt_of_expand hrun).1]
    simp [Run.result]
  · obtain ⟨hresult, houtput, hevents⟩ := attempt_of_expand hrun
    have htakes := takes_step setting template top.toPending
    rw [hstep] at htakes
    cases htakes with
    | exhausted _ _ =>
        -- the other run has come as far, and goes on or not
        have hbooked := booked_of_reaches hreaches
        obtain ⟨more, later, hmore, hlater⟩ := hboth.attempt_extends
        refine Or.inr ⟨hresult, last.events.toList.filterMap sentence?, more, last.events.toList,
          later, ?_, ?_, ?_, hlater⟩
        · rw [houtput, hbooked.output_eq]
        · rw [hmore, hbooked.output_eq]
          simp
        · rw [hevents, Array.toList_appendList]
          rfl
    | undefined _ _ _ _ =>
        have hnot : ∀ stopped bound, setting.step template top.toPending ≠
            .stopped (.depthExceeded stopped bound) := by
          intro stopped bound
          rw [hstep]
          simp
        refine Or.inl ⟨?_, attempt_congr (hsame ?_)⟩
        · intro stopped bound
          rw [hresult]
          simp [Run.result]
        · rw [withDepthLimit_step h hnot, hstep]

/-- A run that stops at the limit of no substitutions, behind a sentence. With one substitution allowed,
    the sentence comes first, too, and one more behind it. -/
theorem perform_attempt_withDepthLimit_one :
    withoutSubstitutions.options.depthLimit ≤ 1 ∧
      (withoutSubstitutions.perform .attempt "n~$(a|1)".toList #[]).output = #["n~$1".toList] ∧
      ((withoutSubstitutions.withDepthLimit 1).perform .attempt "n~$(a|1)".toList #[]).output =
        #["n~$1".toList, "n~()".toList] ∧
      ∃ told later,
        (withoutSubstitutions.perform .attempt "n~$(a|1)".toList #[]).events =
          told ++ [.limitReached 0 "n~$(a|1)".toList] ∧
        ((withoutSubstitutions.withDepthLimit 1).perform .attempt "n~$(a|1)".toList #[]).events =
          told ++ later := by
  have hlimit : withoutSubstitutions.options.depthLimit ≤ 1 := by decide
  have hresult : (withoutSubstitutions.perform .attempt "n~$(a|1)".toList #[]).result =
      .error (.depthExceeded "n~$(a|1)".toList 0) := by decide +kernel
  refine ⟨hlimit, by decide +kernel, by decide +kernel, ?_⟩
  rcases perform_attempt_withDepthLimit withoutSubstitutions "n~$(a|1)".toList #[] hlimit with
    ⟨hnot, -⟩ | ⟨-, -, -, told, later, -, -, htold, hlater⟩
  · exact absurd hresult (hnot _ _)
  · exact ⟨told, later, htold, hlater⟩

/-! ## Values required -/

/-- The setting with values required or not. -/
def withStrict (setting : Setting) (strict : Bool) : Setting :=
  { setting with options := setting.options.withStrict strict }

/-- Whether values are required makes no difference to a step, unless a variable without one stops it. -/
theorem withStrict_step {pending : Pending}
    (hdefined : ∀ name fragment,
      (setting.withStrict true).step template pending ≠
        .stopped (.undefinedVariable name fragment)) :
    (setting.withStrict false).step template pending =
      (setting.withStrict true).step template pending := by
  have htakes := takes_step (setting.withStrict true) template pending
  generalize (setting.withStrict true).step template pending = step at htakes hdefined
  apply Takes.step_eq
  cases htakes with
  | vanilla hrule => exact .vanilla hrule
  | synonym hrule => exact .synonym hrule
  | dropped hrule => exact .dropped hrule
  | exhausted hrule hlimit => exact .exhausted hrule hlimit
  | substituted hrule hdepth hget => exact .substituted hrule hdepth hget
  | emptied _ _ _ hempty => exact absurd hempty (by simp [withStrict, Options.withStrict])
  | undefined _ _ _ _ => exact absurd rfl (hdefined _ _)
  | chosen hrule => exact .chosen hrule

/-- **Where values are required, a run is cut off at the first variable without one.** If there is none,
    the two runs are the same. Otherwise the cut-off run fails at that variable, with the events told
    before it and the sentences that the other run had by then. -/
theorem perform_attempt_withStrict (setting : Setting) (template : Text) (output : Array Text) :
    ((∀ name fragment, .undefinedVariable name fragment ∉
          ((setting.withStrict false).perform .attempt template output).events) ∧
        (setting.withStrict true).perform .attempt template output =
          (setting.withStrict false).perform .attempt template output) ∨
      ∃ told name fragment later,
        ((setting.withStrict false).perform .attempt template output).events =
          told ++ .undefinedVariable name fragment :: later ∧
        (∀ other text, .undefinedVariable other text ∉ told) ∧
        ((setting.withStrict true).perform .attempt template output).result =
          .error (.undefinedVariable name fragment) ∧
        ((setting.withStrict true).perform .attempt template output).events = told ∧
        ∃ n loop next,
          (setting.withStrict false).Reaches template (.start template output) n loop ∧
          loop.events.toList = told ∧
          loop.output = ((setting.withStrict true).perform .attempt template output).output ∧
          (setting.withStrict false).iterate template loop = .goesOn next ∧
          next.events.toList =
            told ++ [.undefinedVariable name fragment, .varied .reference fragment 1] := by
  have houtlasts : (setting.withStrict false).Outlasts (setting.withStrict true) template :=
    fun pending hgoes => withStrict_step fun name fragment => hgoes _
  obtain ⟨n, last, hreaches, hboth, hend⟩ := houtlasts.expand_cases output
  have hbooked := booked_of_reaches hreaches
  have hnone : ∀ name fragment, .undefinedVariable name fragment ∉ last.events.toList :=
    hbooked.undefinedVariable_notMem rfl
  rcases hend with ⟨hrun, hsame⟩ | ⟨top, rest, error, hstack, hstep, hrun, hsame⟩
  · refine Or.inl ⟨?_, (attempt_congr hsame).symm⟩
    rw [(attempt_of_expand (hsame.trans hrun)).2.2]
    exact hnone
  · obtain ⟨hresult, houtput, hevents⟩ := attempt_of_expand hrun
    have htakes := takes_step (setting.withStrict true) template top.toPending
    rw [hstep] at htakes
    cases htakes with
    | exhausted hrule hlimit =>
        -- the other run stops at the limit, too
        have hnot : ∀ name fragment, (setting.withStrict true).step template top.toPending ≠
            .stopped (.undefinedVariable name fragment) := by
          intro name fragment
          rw [hstep]
          simp
        have hreply := attempt_congr (hsame ((withStrict_step hnot).trans hstep))
        refine Or.inl ⟨?_, hreply.symm⟩
        intro name fragment
        rw [hreply, hevents, Array.toList_appendList, List.mem_append, not_or]
        exact ⟨hnone name fragment, by simp [Step.events]⟩
    | undefined hrule hdepth hget hstrict =>
        -- the other run goes on with an empty value
        have hemptied := (Takes.emptied hrule hdepth hget rfl :
          (setting.withStrict false).Takes template top.toPending _).step_eq
        obtain ⟨next, hnext, htold⟩ : ∃ next,
            (setting.withStrict false).iterate template last = .goesOn next ∧
              next.events.toList = last.events.toList ++
                [.undefinedVariable (classify top.text).body top.text,
                  .varied .reference top.text 1] := by
          refine ⟨_, by rw [iterate, hstack]; simp only [hemptied]; rfl, ?_⟩
          simp [Step.events]
        obtain ⟨-, later, -, hlater⟩ := (Reaches.next hboth hnext).attempt_extends
        refine Or.inr ⟨last.events.toList, (classify top.text).body, top.text,
          .varied .reference top.text 1 :: later, ?_, hnone, hresult, ?_, n, last, next, hboth, rfl,
          houtput.symm, hnext, htold⟩
        · rw [hlater, htold, List.append_assoc]
          rfl
        · rw [hevents, Array.toList_appendList]
          exact List.append_nil _

-- A choice puts together a variable without a value, behind a sentence that both runs have.
example :
    (((withoutSubstitutions.withDepthLimit 1).withStrict true).perform .attempt
        "n~$(a|1)".toList #[]).output = #["n~$1".toList] ∧
      (((withoutSubstitutions.withDepthLimit 1).withStrict false).perform .attempt
        "n~$(a|1)".toList #[]).output = #["n~$1".toList, "n~()".toList] := by
  decide +kernel

end Setting

end Phrasing
