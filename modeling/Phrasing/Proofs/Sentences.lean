import Phrasing.Proofs.Iteration
import Phrasing.Proofs.Runs

/-!
# `Proofs.Sentences` — sentences, and what they inherit from the template

A property that a text passes on to whatever it gives way to reaches every pending text of a run and
every sentence. A sentence itself has nothing left to expand: whatever the variables and the options,
it yields itself.

## Contents
- **`Yield.Exactly`**: given sentences, in their order, and no error.
- **`literal_or_synonym_of_emit`**: the two kinds of sentences.
- **`pending_induction`**: induction along the variants of a pending text.
- **`Setting.Gives`**: the shapes of a variant, and `gives_of_mem_variants`.
- **`variant_cases`**: a variable gives way to its value, and a choice loses characters.
- **`Setting.Hereditary`**: properties that are passed on, with `Hereditary.of_reaches` for pending
  texts and `Hereditary.of_mem_sentences` for sentences. `hereditary_notMem` is about the characters
  that come in with a value.
- **`result_attempt`**, **`output_attempt`**: the reply to a request, by what the template yields.
- **`Finished`**: a text with nothing left to expand. `finished_of_emit` says that sentences are.
- **`Setting.perform_attempt_finished`**: every sentence is finished and yields itself.
-/

namespace Phrasing

open Text Grammar Nested

/-- The rules for sentences are two. -/
theorem Rule.disposition_eq_emit_iff {rule : Rule} :
    rule.disposition = .emit ↔ rule = .vanilla ∨ rule = .synonym := by
  cases rule <;> decide

/-- **What a sentence is**: literal text, or else a synonym line. -/
theorem literal_or_synonym_of_emit {s : Text} (h : (classify s).rule.disposition = .emit) :
    (IsRun false s ∧ s ≠ []) ∨ ((classify s).rule = .synonym ∧ IsSynonymLine s) := by
  have hfits := (fits_classify s).1
  rcases Rule.disposition_eq_emit_iff.mp h with hrule | hrule
  · rw [hrule] at hfits
    exact Or.inl hfits
  · rw [hrule] at hfits
    exact Or.inr ⟨hrule, hfits⟩

/-! ## Sentences of several yields -/

/-- A sentence of yields in turn is a sentence of one of them. -/
theorem Yield.exists_of_mem_inTurn {ys : List Yield} {s : Text} (h : s ∈ (inTurn ys).sentences) :
    ∃ y ∈ ys, s ∈ y.sentences := by
  induction ys with
  | nil => exact absurd h List.not_mem_nil
  | cons first rest ih =>
      rw [inTurn_cons, andThen] at h
      split at h
      · exact ⟨first, List.mem_cons_self, h⟩
      · rcases List.mem_append.mp h with h | h
        · exact ⟨first, List.mem_cons_self, h⟩
        · obtain ⟨y, hy, hs⟩ := ih h
          exact ⟨y, List.mem_cons_of_mem _ hy, hs⟩

/-- **Given sentences, in their order**, and no error. -/
structure Yield.Exactly (y : Yield) (given : List Text) : Prop where
  no_error : y.error = none
  sentences_eq : y.sentences = given

namespace Setting

/-- A choice yields what its variants yield, the last variant first. -/
theorem exactly_of_isChoice (setting : Setting) (template : Text) (depth : Nat) {α : Type}
    {s : Text} {fills : List α} {variant : α → Text} {given : α → List Text}
    (hrule : (classify s).rule.IsChoice)
    (hchoices : (classify s).choices = fills.reverse.map variant)
    (h : ∀ fill ∈ fills, (setting.yield template (variant fill) depth).Exactly (given fill)) :
    (setting.yield template s depth).Exactly (fills.flatMap given) := by
  have hyields : ∀ y ∈ fills.map fun fill => setting.yield template (variant fill) depth,
      y.error = none := by
    intro y hy
    obtain ⟨fill, hfill, rfl⟩ := List.mem_map.mp hy
    exact (h fill hfill).no_error
  obtain ⟨herror, hsentences⟩ := Yield.inTurn_of_no_error hyields
  rw [yield_of_isChoice hrule, hchoices, ← List.map_reverse, List.reverse_reverse, List.map_map]
  refine ⟨herror, ?_⟩
  show (Yield.inTurn _).sentences = _
  rw [List.flatMap_map] at hsentences
  refine hsentences.trans ?_
  exact List.flatMap_congr fun fill hfill => (h fill hfill).sentences_eq

/-! ## Induction along the variants -/

/-- A pending text is no heavier than the stack that it is on. -/
theorem loadOf_le_load (setting : Setting) {p : Pending} {stack : List Pending} (h : p ∈ stack) :
    setting.loadOf p ≤ setting.load stack := by
  induction stack with
  | nil => exact absurd h List.not_mem_nil
  | cons top rest ih =>
      rw [load_cons]
      rcases List.mem_cons.mp h with rfl | h
      · exact Nat.le_add_right _ _
      · have hrest := ih h
        omega

/-- **Induction along the variants.** What holds of a pending text if it holds of the variants that
    the text gives way to, holds of every pending text. -/
theorem pending_induction (setting : Setting) (template : Text) {motive : Pending → Prop}
    (h : ∀ p, (∀ rule missing variants depth,
      setting.step template p = .varied rule missing variants depth →
        ∀ v ∈ variants, motive ⟨v, depth⟩) → motive p) (p : Pending) : motive p := by
  -- on the load, since all the variants together are lighter than the text
  induction hload : setting.loadOf p using Nat.strongRecOn generalizing p with
  | ind load ih =>
      apply h p
      intro rule missing variants depth hstep v hv
      have hmem : (⟨v, depth⟩ : Pending) ∈ stack variants depth :=
        List.mem_reverse.mpr (List.mem_map.mpr ⟨v, hv, rfl⟩)
      have hle := setting.loadOf_le_load hmem
      have hlt := load_variants_lt hstep
      exact ih _ (by omega) ⟨v, depth⟩ rfl

/-! ## What a text gives way to -/

/-- **What a text can give way to**: a text with the value of a variable in brackets, with one of the
    alternatives of a group or with an optional group left out; or a piece of a run. -/
inductive Gives (setting : Setting) (s : Text) : Text → Prop
  | value {before name after : Text} : s = before ++ '$' :: name ++ after → IsName name →
      Gives setting s (before ++ wrap ((setting.vars.get? name).getD []) ++ after)
  | alternative (bracket : Bracket) {before body after part : Text} :
      s = before ++ (bracket.opening :: body ++ [bracket.closing]) ++ after → IsRun true body →
      part ∈ pieces '|' body → Gives setting s (before ++ part ++ after)
  | omission {before body after : Text} :
      s = before ++ ('[' :: body ++ [']']) ++ after → IsRun true body →
      Gives setting s (before ++ [] ++ after)
  | piece {part : Text} : IsRun true s → part ∈ pieces '|' s → Gives setting s part

/-- **A variant of a text is of one of these kinds.** -/
theorem gives_of_mem_variants {setting : Setting} {s v : Text} (hv : v ∈ setting.variants s) :
    setting.Gives s v := by
  obtain ⟨r, hr, rfl⟩ := List.mem_map.mp hv
  have htext := text_classify s
  have hlocates := locates_classify s
  have hfits := (fits_classify s).1
  unfold replacements at hr
  unfold Locates at hlocates
  unfold Classification.text Classification.construct at htext
  cases hrule : (classify s).rule with
  | reference =>
      rw [hrule] at hr hlocates htext
      rw [List.mem_singleton.mp hr]
      exact .value htext.symm hlocates.2.1
  | round =>
      rw [hrule] at hr hlocates htext
      exact .alternative .round htext.symm hlocates.2.2 hr
  | square =>
      rw [hrule] at hr hlocates htext
      rcases List.mem_append.mp hr with hr | hr
      · exact .alternative .square htext.symm hlocates.2.2 hr
      · rw [List.mem_singleton.mp hr]
        exact .omission htext.symm hlocates.2.2
  | bare =>
      rw [hrule] at hr hlocates hfits
      obtain ⟨hbefore, hbody, hafter⟩ := hlocates
      have hpart : r ∈ pieces '|' s := by
        rw [← hbody]
        exact hr
      rw [Classification.fill, hbefore, hafter, List.nil_append, List.append_nil]
      exact .piece hfits.1 hpart
  | vanilla => rw [hrule] at hr; exact absurd hr List.not_mem_nil
  | synonym => rw [hrule] at hr; exact absurd hr List.not_mem_nil
  | unrecognized => rw [hrule] at hr; exact absurd hr List.not_mem_nil

/-! ## What a variant is made of -/

/-- A body is a part of its construct. -/
theorem body_sublist_construct (c : Classification) : c.body.Sublist c.construct := by
  unfold Classification.construct
  cases c.rule with
  | reference => exact List.sublist_cons_self '$' c.body
  | round => exact (List.sublist_append_left c.body [')']).cons '('
  | square => exact (List.sublist_append_left c.body [']']).cons '['
  | vanilla => exact List.Sublist.refl c.body
  | bare => exact List.Sublist.refl c.body
  | synonym => exact List.Sublist.refl c.body
  | unrecognized => exact List.Sublist.refl c.body

/-- **Without a variable, characters are only taken away**: a variant is what is left of its text. -/
theorem sublist_of_mem_variants {setting : Setting} {s v : Text}
    (hrule : (classify s).rule ≠ .reference) (hv : v ∈ setting.variants s) : v.Sublist s := by
  obtain ⟨r, hr, rfl⟩ := List.mem_map.mp hv
  have halternative : r ∈ (classify s).alternatives → r.Sublist (classify s).construct :=
    fun hmem => (sublist_of_mem_pieces hmem).trans (body_sublist_construct (classify s))
  have hreplacement : r.Sublist (classify s).construct := by
    unfold replacements at hr
    cases hcase : (classify s).rule with
    | reference => exact absurd hcase hrule
    | round => rw [hcase] at hr; exact halternative hr
    | bare => rw [hcase] at hr; exact halternative hr
    | square =>
        rw [hcase] at hr
        rcases List.mem_append.mp hr with hr | hr
        · exact halternative hr
        · rw [List.mem_singleton.mp hr]
          exact List.nil_sublist _
    | vanilla => rw [hcase] at hr; exact absurd hr List.not_mem_nil
    | synonym => rw [hcase] at hr; exact absurd hr List.not_mem_nil
    | unrecognized => rw [hcase] at hr; exact absurd hr List.not_mem_nil
  have htext := text_classify s
  unfold Classification.text at htext
  have hfill : ((classify s).fill r).Sublist
      ((classify s).before ++ (classify s).construct ++ (classify s).after) :=
    (hreplacement.append_left _).append_right _
  rwa [htext] at hfill

/-- The value of the first variable of a text. It is empty if the variable has none. -/
def firstValue (setting : Setting) (s : Text) : Text :=
  (setting.vars.get? (classify s).body).getD []

/-- A character that is in no value is not in that one. -/
theorem notMem_firstValue {setting : Setting} {c : Char}
    (h : ∀ entry ∈ setting.vars.entries, c ∉ entry.2) (s : Text) : c ∉ setting.firstValue s := by
  exact Variables.getD_get?_of_entries (P := fun value => c ∉ value) List.not_mem_nil h _

/-- **A variant of a text** has the value of a variable, in brackets, in the place of the variable; or it
    is what is left of a text without variables. -/
theorem variant_cases {setting : Setting} {s v : Text} (hv : v ∈ setting.variants s) :
    ((classify s).rule = .reference ∧ ∃ before name after, s = before ++ '$' :: name ++ after ∧
      IsName name ∧ v = before ++ wrap (setting.firstValue s) ++ after) ∨
    ((classify s).rule ≠ .reference ∧ v.Sublist s) := by
  by_cases hrule : (classify s).rule = .reference
  · obtain ⟨htext, hname⟩ := text_of_reference hrule
    simp only [variants, replacements, hrule, List.map_cons, List.map_nil, List.mem_singleton] at hv
    exact Or.inl ⟨hrule, _, _, _, htext, hname, hv⟩
  · exact Or.inr ⟨hrule, sublist_of_mem_variants hrule hv⟩

/-! ## What is passed on -/

/-- **A hereditary property** of texts passes from a text to whatever the text gives way to. -/
def Hereditary (setting : Setting) (P : Text → Prop) : Prop :=
  ∀ s, P s → ∀ v ∈ setting.variants s, P v

variable {setting : Setting} {template : Text} {P : Text → Prop}

/-- A character that is in no value, and is no round bracket, does not come into a text. -/
theorem hereditary_notMem {c : Char} (hvalues : ∀ entry ∈ setting.vars.entries, c ∉ entry.2)
    (hopening : c ≠ '(') (hclosing : c ≠ ')') : setting.Hereditary fun s => c ∉ s := by
  intro s hs v hv hc
  rcases variant_cases hv with ⟨-, before, name, after, htext, -, rfl⟩ | ⟨-, hsublist⟩
  · have hvalue : c ∉ wrap (setting.firstValue s) := by
      simp [wrap, hopening, hclosing, notMem_firstValue hvalues s]
    rw [htext, List.mem_append, List.mem_append, not_or, not_or] at hs
    rw [List.mem_append, List.mem_append] at hc
    rcases hc with (hc | hc) | hc
    · exact hs.1.1 hc
    · exact hvalue hc
    · exact hs.2 hc
  · exact hs (hsublist.subset hc)

theorem Hereditary.of_lineage (hP : setting.Hereditary P) (htemplate : P template)
    {ancestors : List Text} {s : Text} (h : setting.Lineage template ancestors s) : P s := by
  induction h with
  | template => exact htemplate
  | variant _ hv ih => exact hP _ ih _ hv

/-- A hereditary property of the template holds of every pending text of a run. -/
theorem Hereditary.of_reaches (hP : setting.Hereditary P) (htemplate : P template)
    {output : Array Text} {n : Nat} {loop : Loop}
    (h : setting.Reaches template (.start template output) n loop) :
    ∀ branch ∈ loop.stack, P branch.text := by
  intro branch hbranch
  exact hP.of_lineage htemplate (sound_of_reaches h branch hbranch).lineage

/-- A hereditary property of a text holds of every sentence that it yields, and each of these falls
    under a rule for sentences. -/
theorem Hereditary.of_mem_sentences (hP : setting.Hereditary P) {s : Text} (hs : P s) (depth : Nat)
    {w : Text} (hw : w ∈ (setting.yield template s depth).sentences) :
    P w ∧ (classify w).rule.disposition = .emit := by
  suffices hall : ∀ p : Pending, P p.text → w ∈ (setting.yield template p.text p.depth).sentences →
      P w ∧ (classify w).rule.disposition = .emit from hall ⟨s, depth⟩ hs hw
  refine pending_induction setting template fun p ih hp hw => ?_
  rw [yield_eq_of_step] at hw
  have htakes := takes_step setting template p
  cases hstep : setting.step template p with
  | sentence rule =>
      rw [hstep] at hw htakes
      rw [List.mem_singleton.mp hw]
      refine ⟨hp, ?_⟩
      cases htakes with
      | vanilla hrule => rw [hrule]; rfl
      | synonym hrule => rw [hrule]; rfl
  | dropped =>
      rw [hstep] at hw
      exact absurd hw List.not_mem_nil
  | varied rule missing variants depth =>
      rw [hstep] at hw
      obtain ⟨y, hy, hw⟩ := Yield.exists_of_mem_inTurn hw
      obtain ⟨v, hv, rfl⟩ := List.mem_map.mp hy
      have hv : v ∈ variants := List.mem_reverse.mp hv
      have hvariants := (variants_of_step hstep).1
      exact ih rule missing variants depth hstep v hv (hP p.text hp v (hvariants ▸ hv)) hw
  | stopped error =>
      rw [hstep] at hw
      exact absurd hw List.not_mem_nil

/-! ## Requests -/

/-- A request reports the number of sentences that its template yields, or the error. -/
theorem result_attempt (setting : Setting) (template : Text) (output : Array Text) :
    (setting.perform .attempt template output).result =
      (setting.yield template template 0).result := by
  simp only [perform, expand_eq_yield, Run.result, Yield.result]
  cases (setting.yield template template 0).error with
  | some error => rfl
  | none => simp

/-- A request adds the sentences that its template yields to those before. -/
theorem output_attempt (setting : Setting) (template : Text) (output : Array Text) :
    (setting.perform .attempt template output).output =
      output ++ (setting.yield template template 0).sentences.toArray := by
  simp only [perform, expand_eq_yield]

/-- A request tells the events of its template. -/
theorem notices_attempt (setting : Setting) (template : Text) (output : Array Text) :
    (setting.perform .attempt template output).notices =
      (setting.yield template template 0).events.map .expansion := by
  simp only [perform, expand_eq_yield, Run.notices]

/-- The events of an expansion, told one by one. -/
theorem filterMap_event_map (events : List Event) :
    (events.map Notice.expansion).filterMap Notice.event? = events := by
  rw [List.filterMap_map]
  exact List.filterMap_some

/-- The events of a request are those of its template. -/
theorem events_attempt (setting : Setting) (template : Text) (output : Array Text) :
    (setting.perform .attempt template output).events =
      (setting.yield template template 0).events := by
  rw [Reply.events, notices_attempt, filterMap_event_map]

/-- A request replies with what the run of the expansion comes to. -/
theorem attempt_of_expand {setting : Setting} {template : Text} {output : Array Text} {run : Run}
    (h : setting.expand template output = run) :
    (setting.perform .attempt template output).result = run.result output.size ∧
      (setting.perform .attempt template output).output = run.output ∧
      (setting.perform .attempt template output).events = run.events.toList := by
  subst h
  exact ⟨rfl, rfl, filterMap_event_map _⟩

/-! ## Nothing is left to expand -/

/-- A text under a rule for sentences yields itself, with one event. -/
theorem yield_of_emit (setting : Setting) (template : Text) {s : Text}
    (h : (classify s).rule.disposition = .emit) (depth : Nat) :
    setting.yield template s depth = ⟨[s], [.emitted (classify s).rule s], none⟩ := by
  rw [yield]
  rcases Rule.disposition_eq_emit_iff.mp h with hrule | hrule
  · simp only [hrule]
  · simp only [hrule]

end Setting

/-- **A finished text** has nothing left to expand: no variable and no group to resolve, and it is
    literal text without any mark, or else a synonym line. -/
structure Finished (s : Text) : Prop where
  ne_nil : s ≠ []
  no_reference : ¬ Contains StartsReference s
  no_round : ¬ Contains (StartsGroup '(' ')') s
  no_square : ¬ Contains (StartsGroup '[' ']') s
  literal_or_synonym :
    (IsRun false s ∧ ∀ mark ∈ ['|', '(', ')', '[', ']', '$'], mark ∉ s) ∨ IsSynonymLine s

/-- Text without the character that every occurrence of a construct begins with has none. -/
theorem not_contains_of_notMem {fits : Text → Prop} {mark : Char}
    (hfits : ∀ t, fits t → mark ∈ t) {s : Text} (h : mark ∉ s) : ¬ Contains fits s := by
  rintro ⟨before, rest, rfl, hrest⟩
  exact h (List.mem_append_right before (hfits rest hrest))

/-- Literal text is finished. -/
theorem finished_of_isRun {s : Text} (h : IsRun false s) (hne : s ≠ []) : Finished s := by
  have hmarks : ∀ mark ∈ ['|', '(', ')', '[', ']', '$'], mark ∉ s := by
    intro mark hmark
    rcases List.mem_cons.mp hmark with rfl | hmark
    · exact bar_notMem_of_isRun h
    · simp only [List.mem_cons, List.not_mem_nil, or_false] at hmark
      rcases hmark with rfl | rfl | rfl | rfl | rfl <;>
        exact notMem_of_isRun h (by decide) (by decide)
  refine ⟨hne, ?_, ?_, ?_, Or.inl ⟨h, hmarks⟩⟩
  · refine not_contains_of_notMem ?_ (hmarks '$' (by decide))
    rintro _ ⟨c, rest, rfl, _⟩
    exact List.mem_cons_self
  · refine not_contains_of_notMem ?_ (hmarks '(' (by decide))
    rintro _ ⟨body, rest, rfl, _⟩
    exact List.mem_cons_self
  · refine not_contains_of_notMem ?_ (hmarks '[' (by decide))
    rintro _ ⟨body, rest, rfl, _⟩
    exact List.mem_cons_self

/-- **A text under a rule for sentences is finished.** -/
theorem finished_of_emit {s : Text} (h : (classify s).rule.disposition = .emit) : Finished s := by
  rcases literal_or_synonym_of_emit h with ⟨hrun, hne⟩ | ⟨hrule, hline⟩
  · exact finished_of_isRun hrun hne
  -- no rule before the one for synonyms fits, so nothing of theirs is in the text
  · have hnone := (fits_classify s).2
    rw [hrule] at hnone
    have hne : s ≠ [] := by
      obtain ⟨name, gap, skipped, line, rfl, -⟩ := hline
      simp
    exact ⟨hne, hnone .reference (by decide), hnone .round (by decide), hnone .square (by decide),
      Or.inr hline⟩

namespace Setting

/-- **Every sentence is a fixed point**, also the ones before an error. It is finished, and asked for
    again under any variables and options, it gives itself and nothing else, with a single event. -/
theorem perform_attempt_finished (setting : Setting) (template : Text) (output : Array Text) :
    ∃ produced : List Text,
      (setting.perform .attempt template output).output = output ++ produced.toArray ∧
      ∀ s ∈ produced, Finished s ∧ ∀ (other : Setting) (before : Array Text),
        (other.perform .attempt s before).result = .ok 1 ∧
        (other.perform .attempt s before).output = before ++ #[s] ∧
        (other.perform .attempt s before).notices =
          [.expansion (.emitted (classify s).rule s)] := by
  refine ⟨(setting.yield template template 0).sentences, output_attempt setting template output, ?_⟩
  intro s hs
  have hanything : setting.Hereditary fun _ => True := fun _ _ _ _ => trivial
  have hemit : (classify s).rule.disposition = .emit :=
    (hanything.of_mem_sentences trivial 0 hs).2
  refine ⟨finished_of_emit hemit, ?_⟩
  intro other before
  rw [result_attempt, output_attempt, notices_attempt, other.yield_of_emit s hemit 0]
  exact ⟨rfl, rfl, rfl⟩

/-- No variables, and no substitution allowed. -/
def withoutSubstitutions : Setting := ⟨.empty, { depthLimit := 0 }⟩

/-- A run that stops at a variable put together from a choice, behind a synonym line with a dollar
    sign in it: the line is a fixed point under any variables and options. -/
theorem perform_attempt_finished_midway :
    (withoutSubstitutions.perform .attempt "n~$(a|1)".toList #[]).result =
        .error (.depthExceeded "n~$(a|1)".toList 0) ∧
      (withoutSubstitutions.perform .attempt "n~$(a|1)".toList #[]).output = #["n~$1".toList] ∧
      Finished "n~$1".toList ∧ ∀ (other : Setting) (before : Array Text),
        (other.perform .attempt "n~$1".toList before).result = .ok 1 ∧
        (other.perform .attempt "n~$1".toList before).output = before ++ #["n~$1".toList] := by
  obtain ⟨produced, houtput, hproduced⟩ :=
    perform_attempt_finished withoutSubstitutions "n~$(a|1)".toList #[]
  have hline : (withoutSubstitutions.perform .attempt "n~$(a|1)".toList #[]).output =
      #["n~$1".toList] := by decide +kernel
  have hmem : "n~$1".toList ∈ produced := by
    rw [hline, Array.empty_append] at houtput
    rw [← List.mem_toArray, ← houtput]
    exact List.mem_toArray.mpr (List.mem_singleton_self _)
  obtain ⟨hfinished, hfixed⟩ := hproduced _ hmem
  refine ⟨by decide +kernel, hline, hfinished, ?_⟩
  intro other before
  exact ⟨(hfixed other before).1, (hfixed other before).2.1⟩

end Setting

end Phrasing
