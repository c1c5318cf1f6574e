import Phrasing.Proofs.References
import Phrasing.Proofs.Sentences

/-!
# `Proofs.Substitution` — variables are macros, with an exact budget

The first reference of a text is resolved before anything else, and its value may have references
again. What comes out in the end can be told without an expansion: every reference gives way to what
the value of its variable unfolds to, in brackets. The names that are looked up on the way are as many
substitutions, all of them on one branch, so the limit can be compared with their number at once.

## Contents
- **`Variables.Unfolds`**: what a text unfolds to, and the names that are looked up, in order.
  `Unfolds.det` and `exists_unfolds` say that there is one result, where variables are acyclic.
- **`Unfolds.of_cons`**: to unfold is to resolve the first reference and unfold what comes out.
- **`exactly_of_dollar_notMem`**: without variables, neither the depth nor the template matters.
- **`yield_of_unfolds`**: the induction over the names that are looked up.
- **`Setting.perform_attempt_unfolds`**.
-/

namespace Phrasing

open Text Grammar Nested

namespace Variables

/-! ## Unfolding -/

/-- **What a text unfolds to**, and the names that are looked up on the way, in order. A reference
    gives way to what the value of its variable unfolds to, in brackets; without a value it is taken
    as empty. -/
inductive Unfolds (vars : Variables) : Text → Text → List Text → Prop
  | plain {s : Text} : '$' ∉ s → Unfolds vars s s []
  | reference {s before name after value rest : Text} {inner later : List Text} :
      ReferenceAt s before name after → '$' ∉ before →
      Unfolds vars ((vars.get? name).getD []) value inner → Unfolds vars after rest later →
      Unfolds vars s (before ++ wrap value ++ rest) (name :: (inner ++ later))

variable {vars : Variables} {s t : Text} {names : List Text}

/-- **There is one result**, and one list of names. -/
theorem Unfolds.det (h : vars.Unfolds s t names) {t' : Text} {names' : List Text}
    (h' : vars.Unfolds s t' names') : t' = t ∧ names' = names := by
  induction h generalizing t' names' with
  | plain hplain =>
      cases h' with
      | plain _ => exact ⟨rfl, rfl⟩
      | reference hat _ _ _ => exact absurd hat.dollar_mem hplain
  | reference hat hbefore _ _ ihvalue ihafter =>
      cases h' with
      | plain hplain => exact absurd hat.dollar_mem hplain
      | reference hat' hbefore' hvalue' hafter' =>
          -- a text has one first reference, since it has one classification
          have hclassify := classify_of_referenceAt hat hbefore
          rw [classify_of_referenceAt hat' hbefore'] at hclassify
          simp only [Classification.mk.injEq, Occurrence.mk.injEq, and_true] at hclassify
          obtain ⟨rfl, rfl, rfl⟩ := hclassify
          obtain ⟨rfl, rfl⟩ := ihvalue hvalue'
          obtain ⟨rfl, rfl⟩ := ihafter hafter'
          exact ⟨rfl, rfl⟩

/-- Nothing is left to unfold. -/
theorem Unfolds.dollar_notMem (h : vars.Unfolds s t names) : '$' ∉ t := by
  induction h with
  | plain hplain => exact hplain
  | reference _ hbefore _ _ ihvalue ihafter => simp [wrap, hbefore, ihvalue, ihafter]

/-! ## Longer texts -/

/-- Text without references stays in front of what a text unfolds to. -/
theorem Unfolds.append_left (h : vars.Unfolds s t names) {front : Text} (hfront : '$' ∉ front) :
    vars.Unfolds (front ++ s) (front ++ t) names := by
  cases h with
  | plain hplain =>
      apply Unfolds.plain
      rw [List.mem_append, not_or]
      exact ⟨hfront, hplain⟩
  | @reference _ before name after value rest inner later hat hbefore hvalue hafter =>
      have hfirst : '$' ∉ front ++ before := by
        rw [List.mem_append, not_or]
        exact ⟨hfront, hbefore⟩
      have hunfolds := Unfolds.reference (hat.append_left front) hfirst hvalue hafter
      simp only [List.append_assoc] at hunfolds ⊢
      exact hunfolds

/-- **Texts unfold side by side**, as long as no name of the first goes on in the second. -/
theorem Unfolds.append (h : vars.Unfolds s t names) {back back' : Text} {later : List Text}
    (hback : vars.Unfolds back back' later) (hstops : ∀ c ∈ back.head?, ¬ IsNameRest c) :
    vars.Unfolds (s ++ back) (t ++ back') (names ++ later) := by
  induction h with
  | plain hplain => exact hback.append_left hplain
  | reference hat hbefore hvalue _ _ ihafter =>
      have hunfolds := Unfolds.reference (hat.append_right hstops) hbefore hvalue ihafter
      simp only [List.append_assoc, List.cons_append] at hunfolds ⊢
      exact hunfolds

/-- A text in brackets unfolds within them. -/
theorem Unfolds.wrap (h : vars.Unfolds s t names) :
    vars.Unfolds (Phrasing.wrap s) (Phrasing.wrap t) names := by
  have hclosing : vars.Unfolds [')'] [')'] [] := .plain (by decide)
  have hstops : ∀ c ∈ [')'].head?, ¬ IsNameRest c := by
    intro c hc
    rw [← Option.some.inj hc, ← isNameRest_iff]
    decide
  have hopening : '$' ∉ ['('] := by decide
  have hunfolds := (h.append hclosing hstops).append_left hopening
  rw [List.append_nil] at hunfolds
  exact hunfolds

/-! ## One reference after the other -/

/-- Where no name is looked up, there is nothing to unfold. -/
theorem Unfolds.of_nil (h : vars.Unfolds s t []) : '$' ∉ s ∧ t = s := by
  cases h with
  | plain hplain => exact ⟨hplain, rfl⟩

/-- **The first name that is looked up** is that of the first reference. The text with the value in
    its place unfolds to the same, and looks up the other names. -/
theorem Unfolds.of_cons {name : Text} (h : vars.Unfolds s t (name :: names)) :
    ∃ before after, classify s = ⟨⟨before, name, after⟩, .reference⟩ ∧
      vars.Unfolds (before ++ Phrasing.wrap ((vars.get? name).getD []) ++ after) t names := by
  cases h with
  | @reference _ before _ after value rest inner later hat hbefore hvalue hafter =>
      refine ⟨before, after, classify_of_referenceAt hat hbefore, ?_⟩
      rw [List.append_assoc, List.append_assoc]
      exact (hvalue.wrap.append hafter hat.stops).append_left hbefore

/-- A text refers to the variables that are looked up. -/
theorem Unfolds.refers_of_mem (h : vars.Unfolds s t names) {x : Text} (hx : x ∈ names) :
    vars.Refers s x := by
  induction h with
  | plain _ => exact absurd hx List.not_mem_nil
  | @reference s before name after value rest inner later hat _ _ _ ihvalue ihafter =>
      rcases List.mem_cons.mp hx with rfl | hx
      · exact .here ⟨before, after, hat⟩
      rcases List.mem_append.mp hx with hx | hx
      · have hrefers := ihvalue hx
        cases hget : vars.get? name with
        | some value =>
            rw [hget] at hrefers
            exact .through ⟨before, after, hat⟩ hget hrefers
        | none =>
            -- no value, so nothing that could refer to anything
            rw [hget] at hrefers
            exact absurd hrefers.dollar_mem List.not_mem_nil
      · rw [hat.text]
        exact (ihafter hx).append_left _

/-! ## Everything unfolds -/

/-- A text unfolds if the values of all the variables that it mentions do. -/
theorem exists_unfolds_of_values (hs : DollarsRefer s)
    (hvalues : ∀ name, Mentions s name → ∃ t names, vars.Unfolds ((vars.get? name).getD []) t names) :
    ∃ t names, vars.Unfolds s t names := by
  -- on the length: the text behind the first reference is shorter
  induction hlength : s.length using Nat.strongRecOn generalizing s with
  | ind n ih =>
      subst hlength
      by_cases hdollar : '$' ∈ s
      · obtain ⟨before, name, after, hbefore, hat⟩ := exists_first_reference hs hdollar
        obtain ⟨value, inner, hvalue⟩ := hvalues name ⟨before, after, hat⟩
        have hmentions : ∀ other, Mentions after other → Mentions s other := by
          intro other hother
          rw [hat.text]
          exact hother.append_left _
        have hafter : DollarsRefer after := by
          rw [hat.text] at hs
          exact hs.of_append
        obtain ⟨rest, later, hrest⟩ := ih after.length hat.length_lt hafter
          (fun other hother => hvalues other (hmentions other hother)) rfl
        exact ⟨_, _, .reference hat hbefore hvalue hrest⟩
      · exact ⟨s, [], .plain hdollar⟩

/-- **Every text of references unfolds**, if variables are acyclic and their values texts of
    references, too. -/
theorem exists_unfolds (hvalues : ∀ entry ∈ vars.entries, DollarsRefer entry.2)
    (hacyclic : vars.Acyclic) (hs : DollarsRefer s) : ∃ t names, vars.Unfolds s t names := by
  obtain ⟨rank, hrank⟩ := hacyclic
  have hall : ∀ name, ∃ t names, vars.Unfolds ((vars.get? name).getD []) t names := by
    intro name
    -- on the rank of the variable
    induction hname : rank (lower name) using Nat.strongRecOn generalizing name with
    | ind n ih =>
        subst hname
        cases hget : vars.get? name with
        | none => exact ⟨[], [], .plain List.not_mem_nil⟩
        | some value =>
            have hentry := mem_entries_of_get? hget
            apply exists_unfolds_of_values (hvalues _ hentry)
            intro other hother
            exact ih (rank (lower other)) (hrank _ hentry other hother) other rfl
  exact exists_unfolds_of_values hs fun name _ => hall name

end Variables

namespace Setting

/-! ## Without variables -/

/-- Dollar signs do not come out of nothing. -/
theorem hereditary_dollar_notMem (setting : Setting) : setting.Hereditary ('$' ∉ ·) := by
  intro s hs v hv
  rcases variant_cases hv with ⟨-, before, name, after, rfl, -, -⟩ | ⟨-, hsublist⟩
  · exact absurd (by simp) hs
  · exact fun hmem => hs (hsublist.subset hmem)

/-- **Without variables**, a text yields the same in any template and behind any number of
    substitutions, and no error. -/
theorem exactly_of_dollar_notMem (setting : Setting) {s : Text} (h : '$' ∉ s) (template : Text)
    (depth : Nat) : (setting.yield template s depth).Exactly (setting.yield s s 0).sentences := by
  -- on the length: variants are shorter, and have no variables either
  induction hlength : s.length using Nat.strongRecOn generalizing s template depth with
  | ind n ih =>
      subst hlength
      have hemit : (classify s).rule.disposition = .emit →
          (setting.yield template s depth).Exactly (setting.yield s s 0).sentences := by
        intro hemit
        rw [yield_of_emit setting template hemit, yield_of_emit setting s hemit]
        exact ⟨rfl, rfl⟩
      have hchoice : (classify s).rule.IsChoice →
          (setting.yield template s depth).Exactly (setting.yield s s 0).sentences := by
        intro hchoice
        have hchoices : (classify s).choices = (classify s).choices.reverse.reverse.map id := by
          rw [List.reverse_reverse, List.map_id]
        have hvariants : ∀ (template : Text) (depth : Nat),
            (setting.yield template s depth).Exactly
              ((classify s).choices.reverse.flatMap fun v => (setting.yield v v 0).sentences) := by
          intro template depth
          apply exactly_of_isChoice setting template depth hchoice hchoices
          intro v hv
          have hv : v ∈ (classify s).choices := List.mem_reverse.mp hv
          have hvariant : v ∈ setting.variants s := by
            rw [variants_of_isChoice hchoice]
            exact hv
          exact ih v.length (length_lt_of_mem_choices hv)
            (hereditary_dollar_notMem setting s h v hvariant) template depth rfl
        rw [(hvariants s 0).sentences_eq]
        exact hvariants template depth
      cases hrule : (classify s).rule with
      | vanilla => exact hemit (by rw [hrule]; rfl)
      | synonym => exact hemit (by rw [hrule]; rfl)
      | unrecognized =>
          rw [yield_of_unrecognized hrule, yield_of_unrecognized hrule]
          exact ⟨rfl, rfl⟩
      | reference => exact absurd (dollar_mem_of_reference hrule) h
      | round => exact hchoice (by rw [hrule]; exact Or.inl rfl)
      | square => exact hchoice (by rw [hrule]; exact Or.inr (Or.inl rfl))
      | bare => exact hchoice (by rw [hrule]; exact Or.inr (Or.inr rfl))

/-! ## One substitution -/

variable {setting : Setting} {s : Text} {depth : Nat}

/-- At the limit, a reference ends the expansion. -/
theorem yield_of_exhausted (hrule : (classify s).rule = .reference)
    (hlimit : setting.options.depthLimit ≤ depth) (template : Text) :
    setting.yield template s depth =
      ⟨[], [.limitReached setting.options.depthLimit template],
        some (.depthExceeded template setting.options.depthLimit)⟩ := by
  rw [yield]
  simp only [hrule, hlimit, dif_pos]

/-- **Below the limit**, it yields what the text with the value yields, and one substitution is told before
    that; unless a value is required and there is none. -/
theorem yield_of_reference (hrule : (classify s).rule = .reference)
    (hdepth : depth < setting.options.depthLimit) (template : Text) :
    (∃ told, (told = [.varied .reference s 1] ∨
          told = [.undefinedVariable (classify s).body s, .varied .reference s 1]) ∧
        setting.yield template s depth =
          (setting.yield template
            ((classify s).fill (wrap ((setting.vars.get? (classify s).body).getD [])))
            (depth + 1)).behind told) ∨
      (setting.options.undefined = .strict ∧ setting.vars.get? (classify s).body = none ∧
        setting.yield template s depth =
          ⟨[], [], some (.undefinedVariable (classify s).body s)⟩) := by
  have hyield := setting.yield_eq_of_step template ⟨s, depth⟩
  cases hget : setting.vars.get? (classify s).body with
  | some value =>
      have hstep : setting.step template ⟨s, depth⟩ = .varied .reference none
          [(classify s).fill (wrap value)] (depth + 1) :=
        (Takes.substituted hrule hdepth hget :
          setting.Takes template ⟨s, depth⟩ _).step_eq
      rw [hstep] at hyield
      refine Or.inl ⟨_, Or.inl rfl, ?_⟩
      simpa [Step.events, Yield.andThen_nothing] using hyield
  | none =>
      cases hpolicy : setting.options.undefined with
      | empty =>
          have hstep : setting.step template ⟨s, depth⟩ =
              .varied .reference (some (classify s).body)
                [(classify s).fill (wrap [])] (depth + 1) :=
            (Takes.emptied hrule hdepth hget hpolicy :
              setting.Takes template ⟨s, depth⟩ _).step_eq
          rw [hstep] at hyield
          refine Or.inl ⟨_, Or.inr rfl, ?_⟩
          simpa [Step.events, Yield.andThen_nothing] using hyield
      | strict =>
          have hstep : setting.step template ⟨s, depth⟩ =
              .stopped (.undefinedVariable (classify s).body s) :=
            (Takes.undefined hrule hdepth hget hpolicy :
              setting.Takes template ⟨s, depth⟩ _).step_eq
          rw [hstep] at hyield
          exact Or.inr ⟨rfl, rfl, hyield⟩

/-- With a value, or where none is required, it yields what the text with the value yields. -/
theorem yield_of_substituted (hrule : (classify s).rule = .reference)
    (hdepth : depth < setting.options.depthLimit)
    (hdefined : setting.options.undefined = .empty ∨
      (setting.vars.get? (classify s).body).isSome = true) (template : Text) :
    ∃ events, setting.yield template s depth =
      (setting.yield template
        ((classify s).fill (wrap ((setting.vars.get? (classify s).body).getD [])))
        (depth + 1)).behind events := by
  rcases yield_of_reference hrule hdepth template with ⟨told, -, hyield⟩ | ⟨hstrict, hnone, -⟩
  · exact ⟨told, hyield⟩
  · rw [hstrict, hnone] at hdefined
    exact absurd hdefined (by simp)

/-! ## All substitutions -/

/-- **A text that unfolds yields what comes out**, if there are substitutions enough for the names that
    are looked up, and nothing at all otherwise. -/
theorem yield_of_unfolds {t : Text} {names : List Text} (h : setting.vars.Unfolds s t names)
    (hdefined : setting.options.undefined = .empty ∨
      ∀ name ∈ names, (setting.vars.get? name).isSome = true)
    (hdepth : depth ≤ setting.options.depthLimit) (template : Text) :
    (setting.options.depthLimit < depth + names.length →
      (setting.yield template s depth).sentences = [] ∧
        (setting.yield template s depth).error =
          some (.depthExceeded template setting.options.depthLimit)) ∧
    (depth + names.length ≤ setting.options.depthLimit →
      (setting.yield template s depth).Exactly (setting.yield t t 0).sentences) := by
  -- on the names: each is one substitution on the way to what comes out
  induction names generalizing s depth with
  | nil =>
      obtain ⟨hplain, rfl⟩ := h.of_nil
      refine ⟨?_, ?_⟩
      · intro hlimit
        simp only [List.length_nil] at hlimit
        omega
      · intro _
        exact exactly_of_dollar_notMem setting hplain template depth
  | cons name names ih =>
      obtain ⟨before, after, hclassify, hnext⟩ := h.of_cons
      have hrule : (classify s).rule = .reference := by rw [hclassify]
      rw [List.length_cons]
      by_cases hlimit : setting.options.depthLimit ≤ depth
      · rw [yield_of_exhausted hrule hlimit]
        refine ⟨fun _ => ⟨rfl, rfl⟩, ?_⟩
        intro henough
        omega
      · have hbelow : depth < setting.options.depthLimit := Nat.lt_of_not_le hlimit
        have hname : setting.options.undefined = .empty ∨
            (setting.vars.get? (classify s).body).isSome = true := by
          rw [hclassify]
          exact hdefined.imp_right fun hall => hall name List.mem_cons_self
        have hnames : setting.options.undefined = .empty ∨
            ∀ x ∈ names, (setting.vars.get? x).isSome = true :=
          hdefined.imp_right fun hall x hx => hall x (List.mem_cons_of_mem _ hx)
        obtain ⟨events, hyield⟩ := yield_of_substituted hrule hbelow hname template
        rw [hclassify] at hyield
        obtain ⟨hshort, henough⟩ := ih hnext hnames hbelow
        rw [hyield]
        refine ⟨?_, ?_⟩
        · intro hlimit
          exact hshort (by omega)
        · intro hlimit
          obtain ⟨herror, hsentences⟩ := henough (by omega)
          exact ⟨herror, hsentences⟩

/-! ## Expansions -/

/-- **Variables are macros with an exact budget.** Where variables are acyclic and all dollar signs
    begin references, a template unfolds to one text in one number of substitutions. Within the limit,
    the template is expanded like that text; beyond it, the request fails without any sentence. -/
theorem perform_attempt_unfolds (setting : Setting) (template : Text) (output : Array Text)
    (hvalues : ∀ entry ∈ setting.vars.entries, DollarsRefer entry.2)
    (hacyclic : setting.vars.Acyclic) (htemplate : DollarsRefer template)
    (hdefined : setting.options.undefined = .empty ∨
      ∀ name, setting.vars.Refers template name → (setting.vars.get? name).isSome = true) :
    ∃ t names, setting.vars.Unfolds template t names ∧
      (∀ t' names', setting.vars.Unfolds template t' names' → t' = t ∧ names' = names) ∧
      (setting.options.depthLimit < names.length →
        (setting.perform .attempt template output).result =
            .error (.depthExceeded template setting.options.depthLimit) ∧
          (setting.perform .attempt template output).output = output) ∧
      (names.length ≤ setting.options.depthLimit →
        (setting.perform .attempt template output).result =
            (setting.perform .attempt t output).result ∧
          (setting.perform .attempt template output).output =
            (setting.perform .attempt t output).output) := by
  obtain ⟨t, names, hunfolds⟩ := Variables.exists_unfolds hvalues hacyclic htemplate
  have hnames : setting.options.undefined = .empty ∨
      ∀ name ∈ names, (setting.vars.get? name).isSome = true :=
    hdefined.imp_right fun hall name hname => hall name (hunfolds.refers_of_mem hname)
  obtain ⟨hshort, henough⟩ := yield_of_unfolds hunfolds hnames (Nat.zero_le _) template
  rw [Nat.zero_add] at hshort henough
  refine ⟨t, names, hunfolds, fun t' names' h' => hunfolds.det h', ?_, ?_⟩
  · intro hlimit
    obtain ⟨hsentences, herror⟩ := hshort hlimit
    rw [result_attempt, output_attempt, Yield.result, herror, hsentences]
    exact ⟨rfl, Array.append_empty⟩
  · intro hlimit
    obtain ⟨herror, hsentences⟩ := henough hlimit
    have hresult := exactly_of_dollar_notMem setting hunfolds.dollar_notMem t 0
    simp only [result_attempt, output_attempt, Yield.result, herror, hsentences, hresult.no_error]
    exact ⟨trivial, trivial⟩

/-- Two variables, one of which mentions the other. -/
def nestedValues : Variables :=
  .ofPairs [("a".toList, "x|$B".toList), ("b".toList, "z".toList)]

/-- Three names are looked up, although values are nested no deeper than two. -/
theorem unfolds_nestedValues : nestedValues.Unfolds "$A y $b".toList "(x|(z)) y (z)".toList
    ["A".toList, "B".toList, "b".toList] := by
  have hB : nestedValues.Unfolds ((nestedValues.get? "B".toList).getD []) "z".toList [] := by
    have hget : (nestedValues.get? "B".toList).getD [] = "z".toList := by decide +kernel
    rw [hget]
    exact .plain (by decide)
  have hb : nestedValues.Unfolds " y $b".toList " y (z)".toList ["b".toList] := by
    have hget : nestedValues.get? "b".toList = nestedValues.get? "B".toList := by decide +kernel
    rw [← hget] at hB
    have hat : ReferenceAt " y $b".toList " y ".toList "b".toList [] :=
      @referenceAt_of_readReference? " y ".toList "b".toList _ _ (by decide +kernel)
    exact .reference hat (by decide) hB (.plain (by decide))
  have hA : nestedValues.Unfolds ((nestedValues.get? "A".toList).getD []) "x|(z)".toList
      ["B".toList] := by
    have hget : (nestedValues.get? "A".toList).getD [] = "x|$B".toList := by decide +kernel
    rw [hget]
    have hat : ReferenceAt "x|$B".toList "x|".toList "B".toList [] :=
      @referenceAt_of_readReference? "x|".toList "B".toList _ _ (by decide +kernel)
    exact .reference hat (by decide) hB (.plain (by decide))
  have hat : ReferenceAt "$A y $b".toList [] "A".toList " y $b".toList :=
    @referenceAt_of_readReference? [] "A y $b".toList _ _ (by decide +kernel)
  exact .reference hat (by decide) hA hb

/-- With a limit of two substitutions the request fails, with three it goes through. -/
theorem perform_attempt_unfolds_nestedValues :
    (Setting.perform ⟨nestedValues, { depthLimit := 2 }⟩ .attempt "$A y $b".toList #[]).result =
        .error (.depthExceeded "$A y $b".toList 2) ∧
      (Setting.perform ⟨nestedValues, { depthLimit := 3 }⟩ .attempt "$A y $b".toList #[]).output =
        (Setting.perform ⟨nestedValues, { depthLimit := 3 }⟩ .attempt
          "(x|(z)) y (z)".toList #[]).output := by
  have hentries : nestedValues.entries =
      [("a".toList, "x|$B".toList), ("b".toList, "z".toList)] := by decide +kernel
  have hvalues : ∀ entry ∈ nestedValues.entries, DollarsRefer entry.2 := by
    rw [hentries]
    decide +kernel
  have hacyclic : nestedValues.Acyclic := by
    refine ⟨fun key => if key = "a".toList then 1 else 0, ?_⟩
    have hranks : ∀ entry ∈ nestedValues.entries, ∀ name ∈ mentioned entry.2,
        (if lower name = "a".toList then 1 else 0) < if entry.1 = "a".toList then 1 else 0 := by
      rw [hentries]
      decide +kernel
    intro entry hentry name hname
    exact hranks entry hentry name (mem_mentioned_iff.mpr hname)
  have htemplate : DollarsRefer "$A y $b".toList := by decide +kernel
  have hboth : ∀ limit,
      (limit < 3 → (Setting.perform ⟨nestedValues, { depthLimit := limit }⟩ .attempt
        "$A y $b".toList #[]).result = .error (.depthExceeded "$A y $b".toList limit)) ∧
      (3 ≤ limit → (Setting.perform ⟨nestedValues, { depthLimit := limit }⟩ .attempt
        "$A y $b".toList #[]).output =
          (Setting.perform ⟨nestedValues, { depthLimit := limit }⟩ .attempt
            "(x|(z)) y (z)".toList #[]).output) := by
    intro limit
    obtain ⟨t, names, -, hunique, hshort, henough⟩ :=
      perform_attempt_unfolds ⟨nestedValues, { depthLimit := limit }⟩ "$A y $b".toList #[]
        hvalues hacyclic htemplate (Or.inl rfl)
    obtain ⟨rfl, rfl⟩ := hunique _ _ unfolds_nestedValues
    exact ⟨fun hlimit => (hshort hlimit).1, fun hlimit => (henough hlimit).2⟩
  exact ⟨(hboth 2).1 (by decide), (hboth 3).2 (by decide)⟩

end Setting

end Phrasing
