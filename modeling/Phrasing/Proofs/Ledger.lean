import Mathlib.Algebra.Ring.Nat
import Phrasing.Proofs.Sentences

/-!
# `Proofs.Ledger` — the events of an expansion are a ledger of it

An iteration takes one text from the stack, puts a number of texts in its place and tells what became
of it. So the texts whose fate has been told and those still on the stack are together the template and
all variants that were told of: no text gets lost, and none is told of twice.

## Contents
- **`Event.variantCounts`**, **`Event.settled`**: what the events of a run add up to.
- **`Event.Paired`**: a variable without a value is told of right before its text gives way.
- **`Setting.Entry`**: everything that one iteration can tell (`entry_of_iterate`).
- **`Setting.Booked`**: the invariant of the loop, kept by every iteration (`booked_iterate`).
- **`Setting.Ledger`**: what the events of a whole expansion say, and
  **`Setting.perform_attempt_ledger`**.
-/

namespace Phrasing

/-! ## What events add up to -/

namespace Event

/-- The number of variants that a text gave way to, if the event tells of that. -/
def variants? : Event → Option Nat
  | varied _ _ variants => some variants
  | _ => none

/-- The text that was dropped, if the event tells of that. -/
def dropped? : Event → Option Text
  | unrecognized fragment => some fragment
  | _ => none

/-- The numbers of variants that are told of, one for each text that gave way to variants. -/
def variantCounts (events : List Event) : List Nat := events.filterMap variants?

/-- How many texts the events tell the fate of: texts that gave way, sentences and dropped texts. -/
def settled (events : List Event) : Nat :=
  (variantCounts events).length + (events.filterMap sentence?).length +
    (events.filterMap dropped?).length

@[simp] theorem variantCounts_append (earlier later : List Event) :
    variantCounts (earlier ++ later) = variantCounts earlier ++ variantCounts later :=
  List.filterMap_append

@[simp] theorem settled_append (earlier later : List Event) :
    settled (earlier ++ later) = settled earlier + settled later := by
  simp only [settled, variantCounts_append, List.filterMap_append, List.length_append]
  omega

/-- **Right behind a variable without a value**, its text gives way to one variant. -/
def Paired (events : List Event) : Prop :=
  ∀ earlier name fragment later, events = earlier ++ .undefinedVariable name fragment :: later →
    ∃ rest, later = .varied .reference fragment 1 :: rest

theorem Paired.append {earlier later : List Event} (hearlier : Paired earlier)
    (hlater : Paired later) : Paired (earlier ++ later) := by
  intro before name fragment behind h
  rcases List.append_eq_append_iff.mp h with ⟨between, rfl, hbetween⟩ | ⟨between, rfl, hbetween⟩
  -- the event is among the later ones
  · exact hlater between name fragment behind hbetween
  · cases between with
    | nil => exact hlater [] name fragment behind hbetween.symm
    | cons first between =>
        obtain ⟨rfl, rfl⟩ := List.cons.inj hbetween
        obtain ⟨rest, rfl⟩ := hearlier before name fragment between rfl
        exact ⟨rest ++ later, rfl⟩

/-- Events that tell of no variable without a value are paired. -/
theorem paired_of_forall_ne {events : List Event}
    (h : ∀ name fragment, .undefinedVariable name fragment ∉ events) : Paired events := by
  rintro earlier name fragment later rfl
  exact absurd (by simp) (h name fragment)

end Event

open Text Grammar Event

namespace Setting

variable {setting : Setting} {template : Text} {output : Array Text}

/-! ## What one iteration tells -/

/-- **What an event says is so**: the rule of a text is that of its classification, the variants are as
    many as the text has, the variable has no value and need not have one, and the limit is the
    template's. -/
def Accords (setting : Setting) (template : Text) : Event → Prop
  | .varied rule fragment variants =>
      (classify fragment).rule = rule ∧ variants = (setting.variants fragment).length
  | .emitted rule sentence => (classify sentence).rule = rule ∧ rule.disposition = .emit
  | .unrecognized fragment => (classify fragment).rule = .unrecognized
  | .undefinedVariable name fragment =>
      (classify fragment).rule = .reference ∧ (classify fragment).body = name ∧
        setting.vars.get? name = none ∧ setting.options.undefined = .empty
  | .limitReached limit stopped => limit = setting.options.depthLimit ∧ stopped = template

/-- **The entry of an iteration** for the text that it takes from the stack: what it tells, the
    sentences that it adds, and the number of texts that it puts in the place of the text. -/
inductive Entry (setting : Setting) (s : Text) : List Event → List Text → Nat → Prop
  | emitted {rule : Rule} : (classify s).rule = rule → rule.disposition = .emit →
      Entry setting s [.emitted rule s] [s] 0
  | dropped : (classify s).rule = .unrecognized → Entry setting s [.unrecognized s] [] 0
  | varied {rule : Rule} {variants : Nat} : (classify s).rule = rule →
      variants = (setting.variants s).length → Entry setting s [.varied rule s variants] [] variants
  | emptied {name : Text} : (classify s).rule = .reference → (classify s).body = name →
      setting.vars.get? name = none → setting.options.undefined = .empty →
      Entry setting s [.undefinedVariable name s, .varied .reference s 1] [] 1

/-- A text that mentions a variable has one variant. -/
theorem length_variants_of_reference (setting : Setting) {s : Text}
    (h : (classify s).rule = .reference) : (setting.variants s).length = 1 := by
  simp [variants, replacements, h]

/-- **An iteration that goes on makes one entry.** -/
theorem entry_of_iterate {loop next : Loop} (h : setting.iterate template loop = .goesOn next) :
    ∃ top rest told sentences count, loop.stack = top :: rest ∧
      setting.Entry top.text told sentences count ∧
      next.events.toList = loop.events.toList ++ told ∧
      next.output = loop.output ++ sentences.toArray ∧
      next.stack.length = count + rest.length := by
  unfold iterate at h
  split at h
  · exact absurd h (by simp)
  · rename_i top rest hstack
    have htakes := takes_step setting template top.toPending
    split at h
    · rename_i rule hstep
      rw [hstep] at htakes
      rw [Iteration.goesOn.injEq] at h
      subst h
      refine ⟨top, rest, [.emitted rule top.text], [top.text], 0, hstack, ?_, by simp [Step.events],
        by simp, by simp⟩
      cases htakes with
      | vanilla hrule => exact .emitted hrule rfl
      | synonym hrule => exact .emitted hrule rfl
    · rename_i hstep
      rw [hstep] at htakes
      rw [Iteration.goesOn.injEq] at h
      subst h
      refine ⟨top, rest, [.unrecognized top.text], [], 0, hstack, ?_, by simp [Step.events],
        by simp, by simp⟩
      cases htakes with
      | dropped hrule => exact .dropped hrule
    · rename_i rule missing variants depth hstep
      have hvariants := (variants_of_step hstep).1
      rw [hstep] at htakes
      rw [Iteration.goesOn.injEq] at h
      subst h
      refine ⟨top, rest, (Step.varied rule missing variants depth).events top.text, [],
        variants.length, hstack, ?_, by simp, by simp, by simp [Branch.children]⟩
      cases htakes with
      | substituted hrule hdepth hget => exact .varied hrule (congrArg List.length hvariants)
      | emptied hrule hdepth hget hempty => exact .emptied hrule rfl hget hempty
      | chosen hrule => exact .varied rfl (congrArg List.length hvariants)
    · exact absurd h (by simp)

/-! ## What an entry adds up to -/

section Entry

variable {s : Text} {told : List Event} {sentences : List Text} {count : Nat}

/-- The sentences that are added are told. -/
theorem Entry.sentences_eq (h : setting.Entry s told sentences count) :
    told.filterMap Event.sentence? = sentences := by
  cases h <;> rfl

/-- An entry tells the fate of one text. -/
theorem Entry.settled_eq (h : setting.Entry s told sentences count) : settled told = 1 := by
  cases h <;> rfl

/-- The variants told of are the texts that take the place of the text. -/
theorem Entry.sum_variantCounts (h : setting.Entry s told sentences count) :
    (variantCounts told).sum = count := by
  cases h with
  | emitted _ _ => rfl
  | dropped _ => rfl
  | varied _ _ => exact Nat.add_zero count
  | emptied _ _ _ _ => rfl

theorem Entry.paired (h : setting.Entry s told sentences count) : Paired told := by
  cases h with
  | emitted _ _ => exact paired_of_forall_ne (by simp)
  | dropped _ => exact paired_of_forall_ne (by simp)
  | varied _ _ => exact paired_of_forall_ne (by simp)
  | @emptied name _ _ _ _ =>
      intro earlier other fragment later hsplit
      cases earlier with
      | nil =>
          obtain ⟨hfirst, rfl⟩ := List.cons.inj hsplit
          obtain ⟨rfl, rfl⟩ := Event.undefinedVariable.inj hfirst
          exact ⟨[], rfl⟩
      | cons first earlier =>
          have hmem : Event.undefinedVariable other fragment ∈ [Event.varied .reference s 1] := by
            rw [(List.cons.inj hsplit).2]
            simp
          exact absurd hmem (by simp)

/-- What an entry tells is so. -/
theorem Entry.accords (h : setting.Entry s told sentences count) (template : Text) :
    ∀ event ∈ told, setting.Accords template event := by
  cases h with
  | emitted hrule hemit => exact List.forall_mem_singleton.mpr ⟨hrule, hemit⟩
  | dropped hrule => exact List.forall_mem_singleton.mpr hrule
  | varied hrule hcount => exact List.forall_mem_singleton.mpr ⟨hrule, hcount⟩
  | emptied hrule hname hget hempty =>
      refine List.forall_mem_cons.mpr ⟨⟨hrule, hname, hget, hempty⟩, ?_⟩
      refine List.forall_mem_singleton.mpr ⟨hrule, ?_⟩
      exact (length_variants_of_reference setting hrule).symm

/-- A run that goes on has not come to its limit. -/
theorem Entry.limitReached_notMem (h : setting.Entry s told sentences count) (limit : Nat)
    (stopped : Text) : Event.limitReached limit stopped ∉ told := by
  cases h <;> simp

end Entry

/-! ## The books of the loop -/

/-- **The invariant of the loop.** The sentences are those told of, the texts settled and the texts on
    the stack are the template and all variants told of, and everything told is so. -/
structure Booked (setting : Setting) (template : Text) (output : Array Text) (loop : Loop) :
    Prop where
  output_eq : loop.output = output ++ (loop.events.toList.filterMap Event.sentence?).toArray
  balanced : 1 + (variantCounts loop.events.toList).sum =
    settled loop.events.toList + loop.stack.length
  paired : Paired loop.events.toList
  accords : ∀ event ∈ loop.events.toList, setting.Accords template event
  unlimited : ∀ limit stopped, .limitReached limit stopped ∉ loop.events.toList

/-- The books begin with the template on the stack, and nothing told. -/
theorem booked_start (setting : Setting) (template : Text) (output : Array Text) :
    setting.Booked template output (.start template output) where
  output_eq := by simp [Loop.start]
  balanced := rfl
  paired := paired_of_forall_ne fun _ _ => List.not_mem_nil
  accords := fun _ h => absurd h List.not_mem_nil
  unlimited := fun _ _ => List.not_mem_nil

/-- **An iteration keeps the books.** -/
theorem booked_iterate {loop next : Loop} (hloop : setting.Booked template output loop)
    (h : setting.iterate template loop = .goesOn next) : setting.Booked template output next := by
  obtain ⟨top, rest, told, sentences, count, hstack, hentry, hevents, houtput, hlength⟩ :=
    entry_of_iterate h
  have hbalanced := hloop.balanced
  rw [hstack, List.length_cons] at hbalanced
  constructor
  · rw [houtput, hloop.output_eq, hevents, List.filterMap_append, hentry.sentences_eq]
    simp
  · rw [hevents, variantCounts_append, List.sum_append, hentry.sum_variantCounts, settled_append,
      hentry.settled_eq, hlength]
    omega
  · rw [hevents]
    exact hloop.paired.append hentry.paired
  · rw [hevents]
    exact List.forall_mem_append.mpr ⟨hloop.accords, hentry.accords template⟩
  · intro limit stopped
    rw [hevents, List.mem_append, not_or]
    exact ⟨hloop.unlimited limit stopped, hentry.limitReached_notMem limit stopped⟩

/-- The books are kept in every state of a run. -/
theorem booked_of_reaches {n : Nat} {loop : Loop}
    (h : setting.Reaches template (.start template output) n loop) :
    setting.Booked template output loop :=
  reaches_invariant booked_iterate h (booked_start setting template output)

/-- Where values are required, no state of a run tells of a variable without one. -/
theorem Booked.undefinedVariable_notMem {loop : Loop}
    (h : setting.Booked template output loop) (hstrict : setting.options.undefined = .strict)
    (name fragment : Text) : .undefinedVariable name fragment ∉ loop.events.toList := by
  intro hmem
  have hempty : setting.options.undefined = .empty := (h.accords _ hmem).2.2.2
  rw [hstrict] at hempty
  exact absurd hempty (by simp)

/-! ## The ledger of an expansion -/

/-- **What the events of an expansion say** about its result and its sentences. -/
structure Ledger (setting : Setting) (template : Text) (result : Except ExpansionError Nat)
    (sentences : List Text) (events : List Event) : Prop where
  /-- The sentences are told of in their order. -/
  sentences_eq : events.filterMap Event.sentence? = sentences
  /-- On success, their number is the result. -/
  count_eq : ∀ count, result = .ok count → (events.filterMap Event.sentence?).length = count
  /-- On success, the fate of the template and of all variants has been told. -/
  balanced : ∀ count, result = .ok count → 1 + (variantCounts events).sum = settled events
  /-- On failure, that of one text or more has not. -/
  unbalanced : ∀ error, result = .error error → settled events + 1 ≤ 1 + (variantCounts events).sum
  /-- Right behind a variable without a value, its text gives way to one variant. -/
  paired : Paired events
  /-- Where values are required, there is no variable without one. -/
  defined : setting.options.undefined = .strict →
    ∀ name fragment, .undefinedVariable name fragment ∉ events
  /-- The limit is told of exactly if the expansion fails at it. -/
  limited : (∃ limit stopped, .limitReached limit stopped ∈ events) ↔
    ∃ stopped limit, result = .error (.depthExceeded stopped limit)
  /-- Nothing is told after the limit, which is that of the template. -/
  last : ∀ limit stopped, .limitReached limit stopped ∈ events →
    ∃ told, events = told ++ [.limitReached setting.options.depthLimit template] ∧
      ∀ limit stopped, .limitReached limit stopped ∉ told
  /-- What is told is so. -/
  accords : ∀ event ∈ events, setting.Accords template event

/-- Books without a word on the limit are the ledger of a success, if nothing is left on the stack, and
    otherwise of any failure but that at the limit. -/
theorem Booked.ledger {loop : Loop} (h : setting.Booked template output loop)
    {result : Except ExpansionError Nat}
    (hcount : ∀ count, result = .ok count → loop.stack = [] ∧
      (loop.events.toList.filterMap Event.sentence?).length = count)
    (herror : ∀ error, result = .error error → loop.stack ≠ [])
    (hlimit : ∀ stopped limit, result ≠ .error (.depthExceeded stopped limit)) :
    setting.Ledger template result (loop.events.toList.filterMap Event.sentence?)
      loop.events.toList where
  sentences_eq := rfl
  count_eq := fun count hok => (hcount count hok).2
  balanced := by
    intro count hok
    have hbalanced := h.balanced
    rwa [(hcount count hok).1] at hbalanced
  unbalanced := by
    intro error hfailed
    have hbalanced := h.balanced
    have hpos : 0 < loop.stack.length := List.length_pos_iff.mpr (herror error hfailed)
    omega
  paired := h.paired
  defined := h.undefinedVariable_notMem
  limited := by
    constructor
    · rintro ⟨limit, stopped, hmem⟩
      exact absurd hmem (h.unlimited limit stopped)
    · rintro ⟨stopped, limit, hfailed⟩
      exact absurd hfailed (hlimit stopped limit)
  last := fun limit stopped hmem => absurd hmem (h.unlimited limit stopped)
  accords := h.accords

/-- Books at the limit, with the limit told of, are the ledger of that failure. -/
theorem Booked.ledger_depthExceeded {loop : Loop} (h : setting.Booked template output loop)
    (hstack : loop.stack ≠ []) :
    setting.Ledger template (.error (.depthExceeded template setting.options.depthLimit))
      (loop.events.toList.filterMap Event.sentence?)
      (loop.events.toList ++ [.limitReached setting.options.depthLimit template]) where
  sentences_eq := by rw [List.filterMap_append]; exact List.append_nil _
  count_eq := fun _ hcount => absurd hcount (by simp)
  balanced := fun _ hcount => absurd hcount (by simp)
  unbalanced := by
    intro _ _
    have hbalanced := h.balanced
    have hpos : 0 < loop.stack.length := List.length_pos_iff.mpr hstack
    have hsum : (variantCounts [.limitReached setting.options.depthLimit template]).sum = 0 := rfl
    have hsettled : settled [.limitReached setting.options.depthLimit template] = 0 := rfl
    rw [variantCounts_append, List.sum_append, hsum, settled_append, hsettled]
    omega
  paired := h.paired.append (paired_of_forall_ne (by simp))
  defined := by
    intro hstrict name fragment hmem
    rcases List.mem_append.mp hmem with hmem | hmem
    · exact h.undefinedVariable_notMem hstrict name fragment hmem
    · exact absurd hmem (by simp)
  limited := by
    constructor
    · intro _
      exact ⟨_, _, rfl⟩
    · intro _
      exact ⟨_, _, List.mem_append_right _ (List.mem_singleton_self _)⟩
  last := fun _ _ _ => ⟨_, rfl, h.unlimited⟩
  accords := List.forall_mem_append.mpr
    ⟨h.accords, List.forall_mem_singleton.mpr ⟨rfl, rfl⟩⟩

/-- **A run that ends closes its books**: with a success, or with one of two failures. -/
theorem Booked.ledger_of_ended {loop : Loop} {run : Run}
    (h : setting.Booked template output loop) (hended : setting.iterate template loop = .ended run) :
    run.output = loop.output ∧
      setting.Ledger template (run.result output.size)
        (loop.events.toList.filterMap Event.sentence?) run.events.toList := by
  rcases ended_cases hended with ⟨hstack, rfl⟩ | ⟨top, rest, error, hstack, hstep, rfl⟩
  -- nothing is left on the stack
  · have hcount : loop.output.size - output.size =
        (loop.events.toList.filterMap Event.sentence?).length := by
      rw [h.output_eq, Array.size_append, Nat.add_sub_cancel_left, List.size_toArray]
    refine ⟨rfl, h.ledger ?_ ?_ ?_⟩
    · intro count hok
      exact ⟨hstack, hcount ▸ Except.ok.inj hok⟩
    · intro error hfailed
      exact absurd hfailed (by simp [Run.result])
    · intro stopped limit
      simp [Run.result]
  -- the step on the top of the stack stops the run, at the limit or at a variable without a value
  · have hleft : loop.stack ≠ [] := by
      rw [hstack]
      exact List.cons_ne_nil top rest
    have htakes := takes_step setting template top.toPending
    rw [hstep] at htakes
    cases htakes with
    | exhausted _ _ =>
        refine ⟨rfl, ?_⟩
        rw [Array.toList_appendList]
        exact h.ledger_depthExceeded hleft
    | undefined _ _ _ _ =>
        -- which is not told of
        simp only [Step.events, Array.appendList_nil]
        refine ⟨trivial, h.ledger ?_ ?_ ?_⟩
        · intro count hok
          exact absurd hok (by simp [Run.result])
        · intro _ _
          exact hleft
        · intro stopped limit
          simp [Run.result]

/-- What the events of a template tell is so. -/
theorem accords_yield (setting : Setting) (template : Text) :
    ∀ event ∈ (setting.yield template template 0).events, setting.Accords template event := by
  obtain ⟨n, last, hreaches, hended⟩ := exists_ended_expand setting template #[]
  obtain ⟨-, hledger⟩ := (booked_of_reaches hreaches).ledger_of_ended hended
  rw [expand_eq_yield] at hledger
  exact hledger.accords

/-- **The events of an expansion are a faithful ledger of it**: of its sentences, of the fate of every
    text, of variables without a value and of the limit. -/
theorem perform_attempt_ledger (setting : Setting) (template : Text) (output : Array Text) :
    ∃ produced : List Text,
      (setting.perform .attempt template output).output = output ++ produced.toArray ∧
      setting.Ledger template (setting.perform .attempt template output).result produced
        (setting.perform .attempt template output).events := by
  obtain ⟨n, last, hreaches, hended⟩ := exists_ended_expand setting template output
  generalize hrun : setting.expand template output = run at hended
  have hbooked := booked_of_reaches hreaches
  obtain ⟨hkept, hledger⟩ := hbooked.ledger_of_ended hended
  obtain ⟨hresult, houtput, hevents⟩ := attempt_of_expand hrun
  rw [hresult, houtput, hevents]
  exact ⟨_, hkept.trans hbooked.output_eq, hledger⟩

/-- The ledger of a run with a variable without a value, a choice behind a dollar sign, a sentence, and a
    second variable for which there is no substitution left. -/
theorem perform_attempt_ledger_midway :
    (perform ⟨.empty, { depthLimit := 1 }⟩ .attempt "n~$(a|)$v".toList #[]).events =
        [.undefinedVariable "v".toList "n~$(a|)$v".toList, .varied .reference "n~$(a|)$v".toList 1,
          .varied .round "n~$(a|)()".toList 2, .emitted .synonym "n~$()".toList,
          .limitReached 1 "n~$(a|)$v".toList] ∧
      Ledger ⟨.empty, { depthLimit := 1 }⟩ "n~$(a|)$v".toList
        (.error (.depthExceeded "n~$(a|)$v".toList 1)) ["n~$()".toList]
        (perform ⟨.empty, { depthLimit := 1 }⟩ .attempt "n~$(a|)$v".toList #[]).events := by
  obtain ⟨produced, houtput, hledger⟩ :=
    perform_attempt_ledger ⟨.empty, { depthLimit := 1 }⟩ "n~$(a|)$v".toList #[]
  have hline : (perform ⟨.empty, { depthLimit := 1 }⟩ .attempt "n~$(a|)$v".toList #[]).output =
      #["n~$()".toList] := by decide +kernel
  have hresult : (perform ⟨.empty, { depthLimit := 1 }⟩ .attempt "n~$(a|)$v".toList #[]).result =
      .error (.depthExceeded "n~$(a|)$v".toList 1) := by decide +kernel
  have hproduced : produced = ["n~$()".toList] := by
    rw [hline, Array.empty_append] at houtput
    exact (congrArg Array.toList houtput).symm
  refine ⟨by decide +kernel, ?_⟩
  rw [hresult, hproduced] at hledger
  exact hledger

end Setting

end Phrasing
