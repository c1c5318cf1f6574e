import Mathlib.Data.List.Perm.Subperm
import Phrasing.Proofs.Lockstep
import Phrasing.Proofs.Substitution

/-!
# `Proofs.Provenance` — where the characters of a text come from

A choice takes characters away from a text and adds none. A variable takes its name away, and its value
comes in with a pair of round brackets. So along the way from a template to a text nothing comes in but
the values of the variables on the way, and the name of each pays for the brackets around its value.
Where the values have no dollar sign, each variable on the way has used up one of the template's.

## Contents
- **`Setting.substituted`**: the values that came in on the way.
- **`MadeOf`**: the characters of a text and their size, by the template and the values.
  `madeOf_of_lineage` follows them from the template.
- **`Setting.Emits`**: the pending text that became a sentence; `exists_emitted` finds it.
- **`Setting.perform_attempt_provenance`**: the characters of all pending texts and sentences.
- **`Setting.perform_attempt_dollarBudget`**: dollar signs bound the substitutions, and without them
  neither variables nor options matter.
-/

namespace Phrasing

open Text Grammar Event

/-! ## What a text is made of -/

theorem byteSize_wrap (value : Text) : byteSize (wrap value) = byteSize value + 2 := by
  have hopening : '('.utf8Size = 1 := rfl
  have hclosing : ')'.utf8Size = 1 := rfl
  rw [wrap, List.cons_append, byteSize_cons, byteSize_append, byteSize_cons, byteSize_nil, hopening,
    hclosing]
  omega

/-- **What a text is made of**, if these values came in on the way from the template. -/
structure MadeOf (template : Text) (values : List Text) (s : Text) : Prop where
  /-- If no value came in, the text is what is left of the template. -/
  sublist : values = [] → s.Sublist template
  /-- Its characters are the template's, those of the values and the brackets around these, and none of
      them is used twice. -/
  subperm : s.Subperm (template ++ values.flatMap wrap)
  /-- The values lengthen it by no more than they are long. -/
  byteSize_le : byteSize s ≤ byteSize template + (values.map byteSize).sum

namespace MadeOf

variable {template s v before name after : Text} {values : List Text}

/-- A template is made of itself. -/
theorem refl (template : Text) : MadeOf template [] template where
  sublist := fun _ => List.Sublist.refl template
  subperm := (List.sublist_append_left _ _).subperm
  byteSize_le := Nat.le_add_right _ _

/-- What is left of a text is made of the same. -/
theorem of_sublist (h : MadeOf template values s) (hv : v.Sublist s) : MadeOf template values v where
  sublist := fun hvalues => hv.trans (h.sublist hvalues)
  subperm := hv.subperm.trans h.subperm
  byteSize_le := Nat.le_trans (byteSize_le_of_sublist hv) h.byteSize_le

/-- **A value comes in** for a reference, and the dollar sign and the name pay for its brackets. -/
theorem fill_wrap (h : MadeOf template values (before ++ '$' :: name ++ after)) (hname : IsName name)
    (value : Text) : MadeOf template (value :: values) (before ++ wrap value ++ after) where
  sublist := fun hvalues => absurd hvalues (List.cons_ne_nil _ _)
  subperm := by
    have hrest : (before ++ after).Sublist (before ++ '$' :: name ++ after) :=
      (List.sublist_append_left before ('$' :: name)).append_right after
    have hkept : (wrap value ++ (before ++ after)).Subperm
        (wrap value ++ (template ++ values.flatMap wrap)) :=
      (List.subperm_append_left _).mpr (hrest.subperm.trans h.subperm)
    have hfront : (before ++ wrap value ++ after).Perm (wrap value ++ (before ++ after)) := by
      rw [← List.append_assoc]
      exact List.perm_append_comm.append_right after
    have hback : (wrap value ++ (template ++ values.flatMap wrap)).Perm
        (template ++ (wrap value ++ values.flatMap wrap)) := by
      rw [← List.append_assoc, ← List.append_assoc]
      exact List.perm_append_comm.append_right _
    rw [List.flatMap_cons]
    exact hfront.subperm.trans (hkept.trans hback.subperm)
  byteSize_le := by
    have hsize := h.byteSize_le
    have hpaid : 1 ≤ byteSize name := by
      obtain ⟨_, _⟩ := hname
      exact Nat.le_trans (by simp) (length_le_byteSize _)
    have hdollar : '$'.utf8Size = 1 := rfl
    simp only [byteSize_append, byteSize_cons, hdollar] at hsize
    simp only [byteSize_append, byteSize_wrap, List.map_cons, List.sum_cons]
    omega

/-- A character of the text comes from the template or from a value, or is a bracket around one. -/
theorem mem_cases (h : MadeOf template values s) {c : Char} (hc : c ∈ s) :
    c ∈ template ∨ ∃ value ∈ values, c ∈ value ∨ c = '(' ∨ c = ')' := by
  rcases List.mem_append.mp (h.subperm.subset hc) with hc | hc
  · exact Or.inl hc
  · obtain ⟨value, hvalue, hc⟩ := List.mem_flatMap.mp hc
    refine Or.inr ⟨value, hvalue, ?_⟩
    rw [wrap, List.cons_append, List.mem_cons, List.mem_append, List.mem_singleton] at hc
    rcases hc with hopening | hc | hclosing
    · exact Or.inr (Or.inl hopening)
    · exact Or.inl hc
    · exact Or.inr (Or.inr hclosing)

end MadeOf

namespace Setting

variable {setting : Setting} {template : Text} {output : Array Text}

/-! ## Values on the way -/

/-- **The values that came in** for the variables of the ancestors, the last of them first. -/
def substituted (setting : Setting) (ancestors : List Text) : List Text :=
  (ancestors.filter fun s => (classify s).rule = .reference).map setting.firstValue

/-- One more ancestor with a variable brings in its value. -/
theorem substituted_cons_of_reference {s : Text} (h : (classify s).rule = .reference)
    (ancestors : List Text) : setting.substituted (s :: ancestors) =
      setting.firstValue s :: setting.substituted ancestors := by
  simp [substituted, h]

/-- One without a variable brings in nothing. -/
theorem substituted_cons_of_ne {s : Text} (h : (classify s).rule ≠ .reference)
    (ancestors : List Text) :
    setting.substituted (s :: ancestors) = setting.substituted ancestors := by
  simp [substituted, h]

/-- There are as many values as substitutions. -/
theorem length_substituted (setting : Setting) (branch : Branch) :
    (setting.substituted branch.ancestors).length = branch.substitutions := by
  rw [substituted, List.length_map, Branch.substitutions, List.countP_eq_length_filter]

/-- **A text is made of its template and the values that came in.** -/
theorem madeOf_of_lineage {ancestors : List Text} {s : Text}
    (h : setting.Lineage template ancestors s) :
    MadeOf template (setting.substituted ancestors) s := by
  induction h with
  | template => exact .refl template
  | @variant ancestors s v _ hv ih =>
      rcases variant_cases hv with ⟨hrule, before, name, after, hs, hname, rfl⟩ | ⟨hrule, hsublist⟩
      · rw [substituted_cons_of_reference hrule]
        rw [hs] at ih
        exact ih.fill_wrap hname _
      · rw [substituted_cons_of_ne hrule]
        exact ih.of_sublist hsublist

/-- All pending texts of a run are made of the template and the values that came in. -/
theorem madeOf_of_sound {branch : Branch} (h : setting.Sound template branch) :
    (setting.substituted branch.ancestors).length = branch.depth ∧
      MadeOf template (setting.substituted branch.ancestors) branch.text :=
  ⟨(setting.length_substituted branch).trans h.depth_eq.symm, madeOf_of_lineage h.lineage⟩

/-! ## Sentences and the pending texts that they were -/

/-- **A pending text becomes a sentence**: it comes to the top of the stack, under a rule for
    sentences. -/
def Emits (setting : Setting) (template : Text) (output : Array Text) (branch : Branch) : Prop :=
  (classify branch.text).rule.disposition = .emit ∧
    ∃ n loop rest, setting.Reaches template (.start template output) n loop ∧
      loop.stack = branch :: rest

/-- The sentences of a state of a run were pending texts of states before it. -/
theorem exists_emitted_of_reaches {n : Nat} {loop : Loop}
    (h : setting.Reaches template (.start template output) n loop) :
    ∃ emitted : List Branch, loop.output = output ++ (emitted.map (·.text)).toArray ∧
      ∀ branch ∈ emitted, setting.Emits template output branch := by
  induction h with
  | refl => exact ⟨[], by simp [Loop.start], fun _ hbranch => absurd hbranch List.not_mem_nil⟩
  | @next n loop next hreaches hnext ih =>
      obtain ⟨emitted, houtput, hemitted⟩ := ih
      obtain ⟨top, rest, told, sentences, count, hstack, hentry, -, hadded, -⟩ :=
        entry_of_iterate hnext
      cases hentry with
      | @emitted rule hrule hemit =>
          refine ⟨emitted ++ [top], ?_, ?_⟩
          · rw [hadded, houtput]
            simp
          · rw [List.forall_mem_append]
            refine ⟨hemitted, List.forall_mem_singleton.mpr ⟨?_, n, loop, rest, hreaches, hstack⟩⟩
            rw [hrule, hemit]
      | dropped _ => exact ⟨emitted, by rw [hadded, houtput]; simp, hemitted⟩
      | varied _ _ => exact ⟨emitted, by rw [hadded, houtput]; simp, hemitted⟩
      | emptied _ _ _ _ => exact ⟨emitted, by rw [hadded, houtput]; simp, hemitted⟩

/-- **Every sentence was a pending text**, also the ones before an error. -/
theorem exists_emitted (setting : Setting) (template : Text) (output : Array Text) :
    ∃ emitted : List Branch,
      (setting.perform .attempt template output).output =
        output ++ (emitted.map (·.text)).toArray ∧
      ∀ branch ∈ emitted, setting.Emits template output branch := by
  obtain ⟨n, last, hreaches, hended⟩ := exists_ended_expand setting template output
  obtain ⟨emitted, houtput, hemitted⟩ := exists_emitted_of_reaches hreaches
  refine ⟨emitted, ?_, hemitted⟩
  rcases ended_cases hended with ⟨_, hrun⟩ | ⟨_, _, _, _, _, hrun⟩
  · exact (attempt_of_expand hrun).2.1.trans houtput
  · exact (attempt_of_expand hrun).2.1.trans houtput

/-- A pending text that becomes a sentence is sound. -/
theorem Emits.sound {branch : Branch} (h : setting.Emits template output branch) :
    setting.Sound template branch := by
  obtain ⟨-, n, loop, rest, hreaches, hstack⟩ := h
  exact sound_of_reaches hreaches branch (hstack ▸ List.mem_cons_self)

/-- A sentence with a round bracket is a synonym line. -/
theorem synonym_of_round {s : Text} (hemit : (classify s).rule.disposition = .emit)
    (hround : '(' ∈ s ∨ ')' ∈ s) : (classify s).rule = .synonym ∧ IsSynonymLine s := by
  rcases literal_or_synonym_of_emit hemit with ⟨hrun, -⟩ | hsynonym
  · rcases hround with hopening | hclosing
    · exact absurd hopening (notMem_of_isRun hrun (by decide) (by decide))
    · exact absurd hclosing (notMem_of_isRun hrun (by decide) (by decide))
  · exact hsynonym

/-- **Nothing comes from nowhere.** A pending text is made of characters of the template, of the values
    that came in on the way to it and of the brackets around them, and is no longer than these values
    make it; without a substitution it is what is left of the template. The same holds of sentences, and
    round brackets are in none but synonym lines. -/
theorem perform_attempt_provenance (setting : Setting) (template : Text) (output : Array Text) :
    (∀ n loop, setting.Reaches template (.start template output) n loop →
      ∀ branch ∈ loop.stack,
        setting.Lineage template branch.ancestors branch.text ∧
        (setting.substituted branch.ancestors).length = branch.depth ∧
        (branch.depth = 0 → branch.text.Sublist template) ∧
        (∀ c ∈ branch.text, c ∈ template ∨
          ∃ value ∈ setting.substituted branch.ancestors, c ∈ value ∨ c = '(' ∨ c = ')') ∧
        MadeOf template (setting.substituted branch.ancestors) branch.text) ∧
    ∃ emitted : List Branch,
      (setting.perform .attempt template output).output =
        output ++ (emitted.map (·.text)).toArray ∧
      ∀ branch ∈ emitted,
        setting.Emits template output branch ∧
        (branch.depth = 0 → branch.text.Sublist template) ∧
        ('(' ∈ branch.text ∨ ')' ∈ branch.text →
          (classify branch.text).rule = .synonym ∧ IsSynonymLine branch.text) := by
  have hsublist : ∀ branch, setting.Sound template branch → branch.depth = 0 →
      branch.text.Sublist template := by
    intro branch hsound hdepth
    obtain ⟨hlength, hmade⟩ := madeOf_of_sound hsound
    rw [hdepth] at hlength
    exact hmade.sublist (List.eq_nil_of_length_eq_zero hlength)
  refine ⟨?_, ?_⟩
  · intro n loop hloop branch hbranch
    have hsound := sound_of_reaches hloop branch hbranch
    obtain ⟨hlength, hmade⟩ := madeOf_of_sound hsound
    exact ⟨hsound.lineage, hlength, hsublist branch hsound, fun c hc => hmade.mem_cases hc, hmade⟩
  · obtain ⟨emitted, houtput, hemitted⟩ := exists_emitted setting template output
    refine ⟨emitted, houtput, ?_⟩
    intro branch hbranch
    have hemits := hemitted branch hbranch
    exact ⟨hemits, hsublist branch hemits.sound, synonym_of_round hemits.1⟩

/-- Two variables with values, and a single substitution allowed. -/
def twoValues : Setting :=
  ⟨.ofPairs [("a".toList, "x|y".toList), ("b".toList, "z".toList)], { depthLimit := 1 }⟩

/-- One variable, and a bracket that is never closed behind a tilde. -/
def unclosedLine : Text := "$a~(".toList

/-- The first state of a run behind the substitution of a value. -/
def afterValue : Loop where
  stack := [⟨⟨"(x|y)~(".toList, 1⟩, [unclosedLine]⟩]
  output := #[]
  events := #[.varied .reference unclosedLine 1]

/-- The value of a variable comes in with its brackets, and the two sentences that come of it are synonym
    lines, since there is a bracket in them. -/
theorem perform_attempt_provenance_unclosed :
    (twoValues.Reaches unclosedLine (.start unclosedLine #[]) 1 afterValue ∧
      MadeOf unclosedLine ["x|y".toList] "(x|y)~(".toList) ∧
    (twoValues.perform .attempt unclosedLine #[]).output = #["y~(".toList, "x~(".toList] ∧
    ∃ emitted : List Branch, emitted.map (·.text) = ["y~(".toList, "x~(".toList] ∧
      ∀ branch ∈ emitted, '(' ∈ branch.text ∧ (classify branch.text).rule = .synonym := by
  obtain ⟨hpending, emitted, houtput, hemitted⟩ :=
    perform_attempt_provenance twoValues unclosedLine #[]
  have hreaches : twoValues.Reaches unclosedLine (.start unclosedLine #[]) 1 afterValue :=
    .next .refl (by decide +kernel)
  have hvalues : twoValues.substituted [unclosedLine] = ["x|y".toList] := by decide +kernel
  have hmade := (hpending 1 afterValue hreaches _ (List.mem_singleton_self _)).2.2.2.2
  have hlines : (twoValues.perform .attempt unclosedLine #[]).output =
      #["y~(".toList, "x~(".toList] := by decide +kernel
  have htexts : emitted.map (·.text) = ["y~(".toList, "x~(".toList] := by
    rw [hlines, Array.empty_append] at houtput
    exact (congrArg Array.toList houtput).symm
  refine ⟨⟨hreaches, hvalues ▸ hmade⟩, hlines, emitted, htexts, ?_⟩
  intro branch hbranch
  have hopening : ∀ line ∈ ["y~(".toList, "x~(".toList], '(' ∈ line := by decide
  have hround : '(' ∈ branch.text :=
    hopening _ (htexts ▸ List.mem_map.mpr ⟨branch, hbranch, rfl⟩)
  exact ⟨hround, ((hemitted branch hbranch).2.2 (Or.inl hround)).1⟩

/-! ## Dollar signs -/

/-- Where values have no dollar sign, a variable uses up one of the text's. -/
theorem count_dollar_of_lineage (hvalues : ∀ entry ∈ setting.vars.entries, '$' ∉ entry.2)
    {ancestors : List Text} {s : Text} (h : setting.Lineage template ancestors s) :
    s.count '$' + (setting.substituted ancestors).length ≤ template.count '$' := by
  induction h with
  | template => exact Nat.le_refl _
  | @variant ancestors s v _ hv ih =>
      rcases variant_cases hv with ⟨hrule, before, name, after, hs, hname, rfl⟩ | ⟨hrule, hsublist⟩
      · have hvalue : (setting.firstValue s).count '$' = 0 :=
          List.count_eq_zero.mpr (notMem_firstValue hvalues s)
        have hdollar : s.count '$' = before.count '$' + (name.count '$' + 1) + after.count '$' := by
          rw [hs, List.count_append, List.count_append, List.count_cons_self]
        have hvariant : (before ++ wrap (setting.firstValue s) ++ after).count '$' =
            before.count '$' + after.count '$' := by
          simp [wrap, hvalue]
        rw [substituted_cons_of_reference hrule, List.length_cons, hvariant]
        omega
      · rw [substituted_cons_of_ne hrule]
        have hcount := hsublist.count_le '$'
        omega

/-- **Within the budget.** If there are as many substitutions allowed as the template has dollar
    signs, and values have none, the limit stops nothing. -/
theorem result_ne_depthExceeded (hvalues : ∀ entry ∈ setting.vars.entries, '$' ∉ entry.2)
    (hlimit : template.count '$' ≤ setting.options.depthLimit) (output : Array Text)
    (stopped : Text) (limit : Nat) :
    (setting.perform .attempt template output).result ≠ .error (.depthExceeded stopped limit) := by
  obtain ⟨n, last, hreaches, hended⟩ := exists_ended_expand setting template output
  rcases ended_cases hended with ⟨_, hrun⟩ | ⟨top, rest, error, hstack, hstep, hrun⟩
  · rw [(attempt_of_expand hrun).1]
    simp [Run.result]
  · rw [(attempt_of_expand hrun).1]
    have htakes := takes_step setting template top.toPending
    rw [hstep] at htakes
    cases htakes with
    | undefined _ _ _ _ => simp [Run.result]
    | exhausted hrule hdepth =>
        -- the variable on top has a dollar sign of its own
        have hsound := sound_of_reaches hreaches top (hstack ▸ List.mem_cons_self)
        have hbudget := count_dollar_of_lineage hvalues hsound.lineage
        have hdollar : 0 < top.text.count '$' := List.count_pos_iff.mpr (dollar_mem_of_reference hrule)
        have hlength := (madeOf_of_sound hsound).1
        omega

/-! ## No dollar signs at all -/

/-- Only a variable makes a step depend on the setting. -/
theorem step_eq_of_ne_reference {pending : Pending} (h : (classify pending.text).rule ≠ .reference)
    (first second : Setting) (template : Text) :
    first.step template pending = second.step template pending := by
  have htakes := takes_step second template pending
  generalize second.step template pending = step at htakes
  apply Takes.step_eq
  cases htakes with
  | vanilla hrule => exact .vanilla hrule
  | synonym hrule => exact .synonym hrule
  | dropped hrule => exact .dropped hrule
  | exhausted hrule _ => exact absurd hrule h
  | substituted hrule _ _ => exact absurd hrule h
  | emptied hrule _ _ _ => exact absurd hrule h
  | undefined hrule _ _ _ => exact absurd hrule h
  | chosen hrule => exact .chosen hrule

/-- **Without dollar signs, variables and options do not matter.** -/
theorem yield_eq_of_dollar_notMem (first second : Setting) (template : Text) {s : Text}
    (h : '$' ∉ s) (depth : Nat) :
    first.yield template s depth = second.yield template s depth := by
  suffices hall : ∀ p : Pending, '$' ∉ p.text →
      first.yield template p.text p.depth = second.yield template p.text p.depth from
    hall ⟨s, depth⟩ h
  refine pending_induction first template fun p ih hp => ?_
  have hrule : (classify p.text).rule ≠ .reference :=
    fun hrule => hp (dollar_mem_of_reference hrule)
  rw [yield_eq_of_step, yield_eq_of_step, ← step_eq_of_ne_reference hrule first second template]
  cases hstep : first.step template p with
  | sentence rule => rfl
  | dropped => rfl
  | stopped error => rfl
  | varied rule missing variants depth =>
      have hvariants := (variants_of_step hstep).1
      have hsame : ∀ v ∈ variants.reverse,
          first.yield template v depth = second.yield template v depth := by
        intro v hv
        have hv : v ∈ variants := List.mem_reverse.mp hv
        exact ih rule missing variants depth hstep v hv
          (hereditary_dollar_notMem first p.text hp v (hvariants ▸ hv))
      simp only [List.map_congr_left hsame]

/-- **Dollar signs bound the substitutions.** If no value has any, the dollar signs of a pending
    text and the substitutions that led to it are together no more than the dollar signs of the
    template, so a limit of as many is never exceeded. A template without any always expands, and in
    every setting to the same. -/
theorem perform_attempt_dollarBudget (setting : Setting) (template : Text) (output : Array Text) :
    ((∀ entry ∈ setting.vars.entries, '$' ∉ entry.2) →
      (∀ n loop, setting.Reaches template (.start template output) n loop →
        ∀ branch ∈ loop.stack, branch.text.count '$' + branch.depth ≤ template.count '$') ∧
      (template.count '$' ≤ setting.options.depthLimit → ∀ stopped limit,
        (setting.perform .attempt template output).result ≠
          .error (.depthExceeded stopped limit))) ∧
    ('$' ∉ template →
      (∃ count, (setting.perform .attempt template output).result = .ok count) ∧
      ∀ other : Setting, other.perform .attempt template output =
        setting.perform .attempt template output) := by
  refine ⟨?_, ?_⟩
  · intro hvalues
    refine ⟨?_, fun hlimit => result_ne_depthExceeded hvalues hlimit output⟩
    intro n loop hloop branch hbranch
    have hsound := sound_of_reaches hloop branch hbranch
    rw [← (madeOf_of_sound hsound).1]
    exact count_dollar_of_lineage hvalues hsound.lineage
  · intro hdollar
    refine ⟨?_, ?_⟩
    · have hexactly := setting.exactly_of_dollar_notMem hdollar template 0
      rw [result_attempt, Yield.result, hexactly.no_error]
      exact ⟨_, rfl⟩
    · intro other
      apply attempt_congr
      rw [expand_eq_yield, expand_eq_yield, yield_eq_of_dollar_notMem other setting template hdollar]

/-- A dollar sign in front of a choice makes two variables, and both are within a limit of one.
    Without the dollar sign the choice expands also where no substitution is allowed, to the same.
    -/
theorem perform_attempt_dollarBudget_choice :
    (∀ entry ∈ twoValues.vars.entries, '$' ∉ entry.2) ∧
      "$(a|b)".toList.count '$' ≤ twoValues.options.depthLimit ∧
      (∀ n loop, twoValues.Reaches "$(a|b)".toList (.start "$(a|b)".toList #[]) n loop →
        ∀ branch ∈ loop.stack, branch.text.count '$' + branch.depth ≤ 1) ∧
      (∀ stopped limit, (twoValues.perform .attempt "$(a|b)".toList #[]).result ≠
        .error (.depthExceeded stopped limit)) ∧
      (twoValues.perform .attempt "$(a|b)".toList #[]).output =
        #["z".toList, "y".toList, "x".toList] ∧
      '$' ∉ "(a|b)".toList ∧
      withoutSubstitutions.perform .attempt "(a|b)".toList #[] =
        twoValues.perform .attempt "(a|b)".toList #[] := by
  have hvalues : ∀ entry ∈ twoValues.vars.entries, '$' ∉ entry.2 := by decide +kernel
  have hlimit : "$(a|b)".toList.count '$' ≤ twoValues.options.depthLimit := by decide
  have hdollar : '$' ∉ "(a|b)".toList := by decide
  obtain ⟨hbudget, hwithin⟩ := (perform_attempt_dollarBudget twoValues "$(a|b)".toList #[]).1 hvalues
  have hsame := ((perform_attempt_dollarBudget twoValues "(a|b)".toList #[]).2 hdollar).2
  exact ⟨hvalues, hlimit, hbudget, hwithin hlimit, by decide +kernel, hdollar,
    hsame withoutSubstitutions⟩

end Setting

end Phrasing
