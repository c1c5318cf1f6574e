import Phrasing.Proofs.Substitution

/-!
# `Proofs.Undefined` — what a variable without a value leaves behind

Where values are not required, a variable without one gives way to a pair of round brackets with
nothing between them. No construct takes in one bracket of the pair, since a group has a body; so the
pair stands in all texts that come of it, and the only sentences with such a pair are synonym lines,
behind their tilde. Where there is no tilde to make one, nothing is left of the branch.

## Contents
- **`Setting.Replaces`**: the constructs and what is put in their place.
  `replaces_or_isRun_of_mem_variants` takes a variant apart.
- **`ClearOfPair`**, `eq_of_append_pair`: a construct lies to the left of the pair or to its right.
- **`HasPair`**, `hereditary_hasPair`: the pair, and what stands before it, along the variants.
- **`Sealed`**, **`Setting.StaysSealed`**: texts with no tilde outside slots, which begin no synonym
  line, and texts that give way to no others.
- **`Setting.perform_attempt_undefined`**, and `exists_line_of_undefined`: a synonym line may have the
  pair in it.
-/

namespace Phrasing

open Text Grammar Nested

/-! ## Constructs and their replacements -/

/-- **What is put in the place of a construct**: a value for a reference, one of the alternatives for
    a group, or nothing for an optional group. The body of a group is not empty. -/
inductive Setting.Replaces (setting : Setting) : Text → Text → Prop
  | value {name : Text} : IsName name →
      Setting.Replaces setting ('$' :: name) (wrap ((setting.vars.get? name).getD []))
  | alternative (bracket : Bracket) {body part : Text} : IsRun true body → body ≠ [] →
      part ∈ pieces '|' body →
      Setting.Replaces setting (bracket.opening :: body ++ [bracket.closing]) part
  | omission {body : Text} : IsRun true body → body ≠ [] →
      Setting.Replaces setting ('[' :: body ++ [']']) []

namespace Setting

variable {setting : Setting}

/-- A variant of a text has one construct of the text replaced, or is a piece of a run. -/
theorem replaces_or_isRun_of_mem_variants {s v : Text} (hv : v ∈ setting.variants s) :
    (∃ before construct replacement after, s = before ++ construct ++ after ∧
      v = before ++ replacement ++ after ∧ setting.Replaces construct replacement) ∨
      (IsRun true s ∧ IsRun false v) := by
  obtain ⟨r, hr, rfl⟩ := List.mem_map.mp hv
  have hlocates := locates_classify s
  have hfits := (fits_classify s).1
  have hreplaced : setting.Replaces (classify s).construct r →
      ∃ before construct replacement after, s = before ++ construct ++ after ∧
        (classify s).fill r = before ++ replacement ++ after ∧
        setting.Replaces construct replacement :=
    fun h => ⟨(classify s).before, (classify s).construct, r, (classify s).after,
      (text_classify s).symm, rfl, h⟩
  unfold Classification.construct at hreplaced
  unfold replacements at hr
  unfold Locates at hlocates
  cases hrule : (classify s).rule with
  | reference =>
      rw [hrule] at hr hlocates hreplaced
      rw [List.mem_singleton.mp hr] at hreplaced ⊢
      exact Or.inl (hreplaced (.value hlocates.2.1))
  | round =>
      rw [hrule] at hr hlocates hreplaced
      exact Or.inl (hreplaced (.alternative .round hlocates.2.2 hlocates.2.1 hr))
  | square =>
      rw [hrule] at hr hlocates hreplaced
      rcases List.mem_append.mp hr with hr | hr
      · exact Or.inl (hreplaced (.alternative .square hlocates.2.2 hlocates.2.1 hr))
      · rw [List.mem_singleton.mp hr] at hreplaced ⊢
        exact Or.inl (hreplaced (.omission hlocates.2.2 hlocates.2.1))
  | bare =>
      rw [hrule] at hr hlocates hfits
      obtain ⟨hbefore, hbody, hafter⟩ := hlocates
      rw [Classification.alternatives, hbody] at hr
      rw [Classification.fill, hbefore, hafter, List.nil_append, List.append_nil]
      exact Or.inr ⟨hfits.1, isRun_of_mem_pieces hfits.1 hr⟩
  | vanilla => rw [hrule] at hr; exact absurd hr List.not_mem_nil
  | synonym => rw [hrule] at hr; exact absurd hr List.not_mem_nil
  | unrecognized => rw [hrule] at hr; exact absurd hr List.not_mem_nil

/-- A variant of a text with a round bracket has one construct of the text replaced. -/
theorem replaces_of_mem_variants {s v : Text} (hv : v ∈ setting.variants s) (hs : '(' ∈ s) :
    ∃ before construct replacement after, s = before ++ construct ++ after ∧
      v = before ++ replacement ++ after ∧ setting.Replaces construct replacement := by
  rcases replaces_or_isRun_of_mem_variants hv with hreplaced | ⟨hrun, -⟩
  · exact hreplaced
  -- a run has no round bracket
  · exact absurd hs (notMem_of_isRun hrun (by decide) (by decide))

end Setting

/-- Only a variable brings dollar signs in. -/
theorem Setting.Replaces.dollar_mem {setting : Setting} {m r : Text} (h : setting.Replaces m r)
    (hr : '$' ∈ r) : '$' ∈ m := by
  cases h with
  | value _ => exact List.mem_cons_self
  | alternative _ hrun _ hpart =>
      exact absurd hr (notMem_of_isRun (isRun_of_mem_pieces hrun hpart) (by decide) (by decide))
  | omission _ _ => exact absurd hr List.not_mem_nil

/-! ## The pair keeps out of constructs -/

/-- **Clear of the pair.** The text does not begin with a closing bracket, and has something other
    than a closing bracket behind each opening one. -/
structure ClearOfPair (m : Text) : Prop where
  ne_nil : m ≠ []
  start : ∀ rest, m ≠ ')' :: rest
  inside : ∀ front rest, m = front ++ '(' :: rest → ∃ c cs, rest = c :: cs ∧ c ≠ ')'

/-- Text without round brackets is clear of the pair. -/
theorem clearOfPair_of_notMem {m : Text} (hne : m ≠ []) (hopening : '(' ∉ m) (hclosing : ')' ∉ m) :
    ClearOfPair m where
  ne_nil := hne
  start := by
    rintro rest rfl
    exact hclosing List.mem_cons_self
  inside := by
    rintro front rest rfl
    exact absurd (List.mem_append_right front List.mem_cons_self) hopening

/-- A group with a body is clear of the pair. -/
theorem clearOfPair_group (bracket : Bracket) {body : Text} (hrun : IsRun true body)
    (hne : body ≠ []) : ClearOfPair (bracket.opening :: body ++ [bracket.closing]) := by
  have hopening : '(' ∉ body := notMem_of_isRun hrun (by decide) (by decide)
  have hclosing : ')' ∉ body := notMem_of_isRun hrun (by decide) (by decide)
  cases bracket with
  | square =>
      exact clearOfPair_of_notMem (List.cons_ne_nil _ _)
        (by simp [Bracket.opening, Bracket.closing, hopening])
        (by simp [Bracket.opening, Bracket.closing, hclosing])
  | round =>
      obtain ⟨c, cs, rfl⟩ := List.exists_cons_of_ne_nil hne
      refine ⟨by simp, by simp [Bracket.opening], ?_⟩
      intro front rest h
      cases front with
      | nil =>
          refine ⟨c, cs ++ [')'], (List.cons.inj h).2.symm, ?_⟩
          rintro rfl
          exact hclosing List.mem_cons_self
      | cons d front =>
          -- the only opening bracket is the first character
          have htail : c :: cs ++ [')'] = front ++ '(' :: rest := (List.cons.inj h).2
          have hmem : '(' ∈ c :: cs ++ [')'] := htail ▸ List.mem_append_right front List.mem_cons_self
          rcases List.mem_append.mp hmem with hmem | hmem
          · exact absurd hmem hopening
          · exact absurd hmem (by decide)

theorem Setting.Replaces.clearOfPair {setting : Setting} {m r : Text}
    (h : setting.Replaces m r) : ClearOfPair m := by
  cases h with
  | value hname =>
      exact clearOfPair_of_notMem (List.cons_ne_nil _ _)
        (notMem_reference hname (by decide) (by decide))
        (notMem_reference hname (by decide) (by decide))
  | alternative bracket hrun hne _ => exact clearOfPair_group bracket hrun hne
  | omission hrun hne => exact clearOfPair_group .square hrun hne

/-- **Left or right of the pair.** Text that is clear of the pair lies on one side of it. -/
theorem eq_of_append_pair {x m y before after : Text} (hm : ClearOfPair m)
    (h : x ++ m ++ y = before ++ wrap [] ++ after) :
    (∃ k, before = x ++ m ++ k ∧ y = k ++ wrap [] ++ after) ∨
      ∃ k, x = before ++ wrap [] ++ k ∧ after = k ++ m ++ y := by
  have hstart : ∀ rest, m ++ y ≠ ')' :: rest := by
    obtain ⟨c, cs, rfl⟩ := List.exists_cons_of_ne_nil hm.ne_nil
    intro rest heq
    rw [List.cons_append, List.cons.injEq] at heq
    exact hm.start cs (by rw [heq.1])
  -- between the two brackets of the pair nothing of `m` can begin
  have hcut : x ++ (m ++ y) = (before ++ ['(']) ++ ')' :: after := by simpa [wrap] using h
  rcases List.append_eq_append_iff.mp hcut with ⟨k, hbefore, hk⟩ | ⟨k, hx, hk⟩
  · rcases List.eq_nil_or_concat k with rfl | ⟨front, c, rfl⟩
    · exact absurd hk (hstart after)
    · rw [List.concat_eq_append, ← List.append_assoc] at hbefore
      obtain ⟨rfl, hc⟩ := List.append_inj' hbefore rfl
      obtain rfl : '(' = c := List.cons.inj hc |>.1
      refine Or.inl ?_
      rw [List.concat_eq_append, List.append_assoc] at hk
      rcases List.append_eq_append_iff.mp hk with ⟨k, hfront, hy⟩ | ⟨k, hmk, hy⟩
      · exact ⟨k, by rw [hfront, List.append_assoc], by simpa [wrap] using hy⟩
      · cases k with
        | nil => exact ⟨[], by simp [hmk], by simpa [wrap] using hy.symm⟩
        | cons d k =>
            obtain ⟨rfl, hrest⟩ := List.cons.inj hy
            obtain ⟨c, cs, rfl, hc⟩ := hm.inside front k hmk
            exact absurd (List.cons.inj hrest).1.symm hc
  · cases k with
    | nil => exact absurd hk.symm (hstart after)
    | cons c k =>
        rw [List.cons_append, List.cons.injEq] at hk
        refine Or.inr ⟨k, ?_, by rw [hk.2, List.append_assoc]⟩
        rw [hx, ← hk.1]
        simp [wrap]

/-! ## The pair along the variants -/

/-- **The pair in a text**, behind text with a given property. -/
def HasPair (P : Text → Prop) (s : Text) : Prop :=
  ∃ before after, P before ∧ s = before ++ wrap [] ++ after

/-- **The pair stays**, if replacing a construct keeps the property of the text before it. -/
theorem Setting.hereditary_hasPair {setting : Setting} {P : Text → Prop}
    (hP : ∀ before construct replacement after, setting.Replaces construct replacement →
      P (before ++ construct ++ after) → P (before ++ replacement ++ after)) :
    setting.Hereditary (HasPair P) := by
  rintro s ⟨before, after, hbefore, hs⟩ v hv
  have hopening : '(' ∈ s := by
    rw [hs]
    simp [wrap]
  obtain ⟨x, m, r, y, htext, rfl, hreplaces⟩ := replaces_of_mem_variants hv hopening
  rw [hs] at htext
  rcases eq_of_append_pair hreplaces.clearOfPair htext.symm with ⟨k, rfl, rfl⟩ | ⟨k, rfl, rfl⟩
  · exact ⟨x ++ r ++ k, after, hP x m r k hreplaces hbefore, by simp⟩
  · exact ⟨before, k ++ r ++ y, hbefore, by simp⟩

/-- In a synonym line, the tilde stands before the pair, and nothing before the tilde is bracketed. -/
theorem exists_tilde_of_pair {before after : Text}
    (h : IsSynonymLine (before ++ wrap [] ++ after)) :
    ∃ head rest, before = head ++ '~' :: rest ∧ '~' ∉ head ∧ '<' ∉ head := by
  obtain ⟨name, gap, skipped, line, htext, htilde, -, hname, hgap, -, -⟩ := h
  have hnone : ∀ c, isSynonymChar c = false → isBlank c = false → c ∉ name ++ gap :=
    fun c hchar hblank => notMem_before_tilde hname hgap hchar hblank
  have hcut : before ++ '(' :: ')' :: after = (name ++ gap) ++ '~' :: (skipped ++ line) := by
    simpa [wrap] using htext
  rcases List.append_eq_append_iff.mp hcut with ⟨k, hhead, hk⟩ | ⟨k, hbefore, hk⟩
  · cases k with
    | nil => exact absurd (List.cons.inj hk).1 (by decide)
    | cons c k =>
        rw [List.cons_append, List.cons.injEq] at hk
        refine absurd ?_ (hnone '(' (by decide) (by decide))
        rw [hhead, hk.1]
        exact List.mem_append_right before List.mem_cons_self
  · cases k with
    | nil => exact absurd (List.cons.inj hk).1 (by decide)
    | cons c k =>
        rw [List.cons_append, List.cons.injEq] at hk
        exact ⟨name ++ gap, k, by rw [hbefore, hk.1], htilde, hnone '<' (by decide) (by decide)⟩

/-! ## Tildes in slots -/

/-- **No tilde outside slots.** The text is made of slots and of characters other than tildes. -/
inductive Sealed : Text → Prop
  | nil : Sealed []
  | char {c : Char} {rest : Text} : c ≠ '~' → Sealed rest → Sealed (c :: rest)
  | slot {t rest : Text} : IsSlot t → Sealed rest → Sealed (t ++ rest)

namespace Sealed

theorem append {s t : Text} (hs : Sealed s) (ht : Sealed t) : Sealed (s ++ t) := by
  induction hs with
  | nil => exact ht
  | char hc _ ih => exact .char hc ih
  | slot hslot _ ih =>
      rw [List.append_assoc]
      exact .slot hslot ih

/-- A run has its tildes in its slots. -/
theorem of_isRun {bars : Bool} {s : Text} (h : IsRun bars s) : Sealed s := by
  induction h with
  | nil => exact .nil
  | cons hfirst _ ih =>
      cases hfirst with
      | @plain c hplain =>
          refine .char ?_ ih
          rintro rfl
          exact absurd ((isPlain_iff '~').mpr hplain) (by decide)
      | bar _ => exact .char (by decide) ih
      | slot hslot => exact .slot hslot ih

/-- No slot reaches over a character that slots do not have. -/
theorem of_append_cons {x y : Text} {d : Char} (hd : isUnitChar d = false)
    (h : Sealed (x ++ d :: y)) : Sealed x ∧ Sealed y := by
  generalize hs : x ++ d :: y = s at h
  induction h generalizing x with
  | nil => exact absurd hs (by simp)
  | @char c rest hc hrest ih =>
      cases x with
      | nil => exact ⟨.nil, (List.cons.inj hs).2 ▸ hrest⟩
      | cons e x =>
          rw [List.cons_append, List.cons.injEq] at hs
          obtain ⟨hx, hy⟩ := ih hs.2
          exact ⟨.char (hs.1 ▸ hc) hx, hy⟩
  | @slot t rest hslot _ ih =>
      rcases List.append_eq_append_iff.mp hs with ⟨k, ht, hk⟩ | ⟨k, hx, hk⟩
      · cases k with
        | nil =>
            rw [List.append_nil] at ht
            have hfront : Sealed (t ++ []) := .slot hslot .nil
            rw [List.append_nil, ht] at hfront
            exact ⟨hfront, (ih (x := []) hk).2⟩
        | cons e k =>
            have hmem : d ∈ t := by
              rw [ht, (List.cons.inj hk).1]
              exact List.mem_append_right x List.mem_cons_self
            exact absurd hmem (notMem_of_isUnit (.slot hslot) hd)
      · obtain ⟨hfront, hy⟩ := ih hk.symm
        exact ⟨hx ▸ .slot hslot hfront, hy⟩

/-- Text that opens no slot can be taken off the front. -/
theorem of_append {front s : Text} (hfront : '<' ∉ front) (h : Sealed (front ++ s)) : Sealed s := by
  induction front with
  | nil => exact h
  | cons c cs ih =>
      rw [List.mem_cons, not_or] at hfront
      refine ih hfront.2 ?_
      generalize ht : c :: cs ++ s = t at h
      cases h with
      | nil => exact absurd ht (by simp)
      | char _ hrest =>
          rw [List.cons_append, List.cons.injEq] at ht
          exact ht.2 ▸ hrest
      | slot hslot _ =>
          obtain ⟨ds, rfl⟩ := hslot.exists_cons
          exact absurd (List.cons.inj ht).1.symm hfront.1

/-- Every tilde has the bracket of its slot before it. -/
theorem tildesInside {s : Text} (h : Sealed s) : TildesInside s := by
  induction h with
  | nil =>
      intro before rest h
      exact absurd h (by simp)
  | @char c rest hc _ ih => exact tildesInside_append (tildesInside_singleton hc) ih
  | slot hslot _ ih => exact tildesInside_append (tildesInside_of_isSlot hslot) ih

/-- **Replacing a construct** brings no tilde out of its slot, and none in if the values have none. -/
theorem replace {setting : Setting} {before construct replacement after : Text}
    (h : setting.Replaces construct replacement)
    (hvalues : '$' ∈ construct → ∀ entry ∈ setting.vars.entries, Sealed entry.2)
    (hs : Sealed (before ++ construct ++ after)) : Sealed (before ++ replacement ++ after) := by
  rw [List.append_assoc] at hs
  have hgroup : ∀ (bracket : Bracket) {body part : Text}, IsRun false part →
      Sealed (before ++ (bracket.opening :: body ++ [bracket.closing] ++ after)) →
      Sealed (before ++ part ++ after) := by
    intro bracket body part hpart hs
    have hopening : isUnitChar bracket.opening = false := by cases bracket <;> decide
    have hclosing : isUnitChar bracket.closing = false := by cases bracket <;> decide
    have htext : bracket.opening :: body ++ [bracket.closing] ++ after =
        bracket.opening :: (body ++ bracket.closing :: after) := by simp
    rw [htext] at hs
    obtain ⟨hbefore, hrest⟩ := of_append_cons hopening hs
    exact (hbefore.append (of_isRun hpart)).append (of_append_cons hclosing hrest).2
  cases h with
  | @value name hname =>
      obtain ⟨hbefore, hrest⟩ := of_append_cons (by decide) hs
      have hopen : '<' ∉ name := notMem_name hname (by decide)
      have hvalue : Sealed ((setting.vars.get? name).getD []) :=
        Variables.getD_get?_of_entries .nil (hvalues List.mem_cons_self) name
      have hwrap : Sealed (wrap ((setting.vars.get? name).getD [])) :=
        .char (by decide) (hvalue.append (.char (by decide) .nil))
      exact (hbefore.append hwrap).append (of_append hopen hrest)
  | alternative bracket hrun _ hpart => exact hgroup bracket (isRun_of_mem_pieces hrun hpart) hs
  | omission _ _ => exact hgroup .square .nil hs

end Sealed

/-- **Sealed for good**: there is no tilde outside slots, and no variable that could bring one in. -/
structure Setting.StaysSealed (setting : Setting) (s : Text) : Prop where
  sealed : Sealed s
  values : '$' ∈ s → ∀ entry ∈ setting.vars.entries, Sealed entry.2

/-- What is sealed for good stays so when a construct is replaced. -/
theorem Setting.StaysSealed.replace {setting : Setting}
    {before construct replacement after : Text} (h : setting.Replaces construct replacement)
    (hs : setting.StaysSealed (before ++ construct ++ after)) :
    setting.StaysSealed (before ++ replacement ++ after) := by
  refine ⟨hs.sealed.replace h fun hdollar => hs.values (by simp [hdollar]), ?_⟩
  intro hdollar
  apply hs.values
  rcases List.mem_append.mp hdollar with hdollar | hdollar
  · rcases List.mem_append.mp hdollar with hdollar | hdollar
    · simp [hdollar]
    · simp [h.dollar_mem hdollar]
  · simp [hdollar]

/-- So do its variants. -/
theorem Setting.hereditary_staysSealed (setting : Setting) :
    setting.Hereditary setting.StaysSealed := by
  intro s hs v hv
  rcases replaces_or_isRun_of_mem_variants hv with
    ⟨before, construct, replacement, after, rfl, rfl, hreplaces⟩ | ⟨-, hrun⟩
  · exact hs.replace hreplaces
  · refine ⟨.of_isRun hrun, fun hdollar => ?_⟩
    exact absurd hdollar (notMem_of_isRun hrun (by decide) (by decide))

/-! ## Expansions -/

namespace Setting

/-- A sentence with the pair is a synonym line, and a tilde stands before the pair. -/
theorem exists_tilde_of_emit {before after : Text}
    (h : (classify (before ++ wrap [] ++ after)).rule.disposition = .emit) :
    (classify (before ++ wrap [] ++ after)).rule = .synonym ∧
      ∃ head rest, before = head ++ '~' :: rest ∧ '~' ∉ head ∧ '<' ∉ head := by
  rcases literal_or_synonym_of_emit h with ⟨hrun, -⟩ | ⟨hsynonym, hline⟩
  -- literal text has no brackets
  · refine absurd ?_ (notMem_of_isRun hrun (d := '(') (by decide) (by decide))
    simp [wrap]
  · exact ⟨hsynonym, exists_tilde_of_pair hline⟩

/-- What a text with a variable without a value yields has the pair in it, behind what was replaced in
    the text before the variable. -/
theorem hasPair_of_mem_sentences {setting : Setting} {s w : Text} {P : Text → Prop}
    (hpolicy : setting.options.undefined = .empty) (hrule : (classify s).rule = .reference)
    (hget : setting.vars.get? (classify s).body = none)
    (hP : ∀ before construct replacement after, setting.Replaces construct replacement →
      P (before ++ construct ++ after) → P (before ++ replacement ++ after))
    (hbefore : P (classify s).before) (hw : w ∈ (setting.yield s s 0).sentences) :
    HasPair P w ∧ (classify w).rule.disposition = .emit := by
  by_cases hlimit : setting.options.depthLimit ≤ 0
  · rw [yield_of_exhausted hrule hlimit] at hw
    exact absurd hw List.not_mem_nil
  · obtain ⟨events, hyield⟩ :=
      yield_of_substituted hrule (Nat.lt_of_not_le hlimit) (Or.inl hpolicy) s
    rw [hyield, hget] at hw
    have hfill : HasPair P ((classify s).fill (wrap [])) :=
      ⟨(classify s).before, (classify s).after, hbefore, rfl⟩
    exact (hereditary_hasPair hP).of_mem_sentences hfill _ hw

/-- **A variable without a value leaves at most synonym lines.** Where values are not required, every
    sentence that comes of a text which mentions such a variable first is a synonym line with an empty
    pair of brackets behind its tilde. If no tilde stands outside slots before the variable, nor in a
    value that could come to stand there, there is no sentence at all. -/
theorem perform_attempt_undefined (setting : Setting) (s : Text) (output : Array Text)
    (hpolicy : setting.options.undefined = .empty) (hrule : (classify s).rule = .reference)
    (hget : setting.vars.get? (classify s).body = none) :
    ∃ produced : List Text,
      (setting.perform .attempt s output).output = output ++ produced.toArray ∧
      (∀ w ∈ produced, (classify w).rule = .synonym ∧
        ∃ head line, w = head ++ '~' :: line ∧ '~' ∉ head ∧ wrap [] <:+: line) ∧
      (setting.StaysSealed (classify s).before → produced = []) := by
  refine ⟨_, output_attempt setting s output, ?_, ?_⟩
  · intro w hw
    obtain ⟨⟨before, after, -, rfl⟩, hemit⟩ := hasPair_of_mem_sentences hpolicy hrule hget
      (P := fun _ => True) (fun _ _ _ _ _ h => h) trivial hw
    obtain ⟨hsynonym, head, rest, rfl, htilde, -⟩ := exists_tilde_of_emit hemit
    exact ⟨hsynonym, head, rest ++ wrap [] ++ after, by simp, htilde, rest, after, rfl⟩
  · intro hsealed
    apply List.eq_nil_iff_forall_not_mem.mpr
    intro w hw
    obtain ⟨⟨before, after, hbefore, rfl⟩, hemit⟩ := hasPair_of_mem_sentences hpolicy hrule hget
      (fun _ _ _ _ hreplaces hs => StaysSealed.replace hreplaces hs) hsealed hw
    -- the tilde before the pair would stand in a slot, but no slot is opened before it
    obtain ⟨-, head, rest, rfl, -, hopen⟩ := exists_tilde_of_emit hemit
    exact hopen (hbefore.sealed.tildesInside head rest rfl)

/-- No variables, values not required, and one substitution allowed. -/
def withoutValues : Setting := ⟨.empty, { depthLimit := 1 }⟩

/-- Two synonym lines with an empty pair of brackets in them where a choice and a tilde stand before
    the variable, and nothing where the tilde is in a slot. -/
theorem perform_attempt_undefined_tilde :
    (withoutValues.perform .attempt "(cat|dog) ~ $v".toList #[]).output =
        #["dog ~ ()".toList, "cat ~ ()".toList] ∧
      (∀ w ∈ ["dog ~ ()".toList, "cat ~ ()".toList], (classify w).rule = .synonym) ∧
      (withoutValues.perform .attempt "<size~big> $v [x]".toList #[]).output = #[] := by
  obtain ⟨lines, houtput, hlines, -⟩ :=
    perform_attempt_undefined withoutValues "(cat|dog) ~ $v".toList #[] rfl (by decide +kernel)
      (Variables.find?_empty _)
  have hboth : (withoutValues.perform .attempt "(cat|dog) ~ $v".toList #[]).output =
      #["dog ~ ()".toList, "cat ~ ()".toList] := by decide +kernel
  have hproduced : lines = ["dog ~ ()".toList, "cat ~ ()".toList] := by
    rw [hboth, Array.empty_append] at houtput
    exact (congrArg Array.toList houtput).symm
  obtain ⟨dropped, hdropped, -, hsilent⟩ :=
    perform_attempt_undefined withoutValues "<size~big> $v [x]".toList #[] rfl (by decide +kernel)
      (Variables.find?_empty _)
  have hread : Slot.read? "<size~big>".toList = some (⟨"size".toList, some "big".toList⟩, []) := by
    decide +kernel
  have hslot : IsSlot "<size~big>".toList := isSlot_render_of_read? hread
  have hbefore : (classify "<size~big> $v [x]".toList).before = "<size~big>".toList ++ " ".toList := by
    decide +kernel
  have hsealed : Sealed (classify "<size~big> $v [x]".toList).before := by
    rw [hbefore]
    exact .slot hslot (.char (by decide) .nil)
  refine ⟨hboth, ?_, ?_⟩
  · intro w hw
    rw [← hproduced] at hw
    exact (hlines w hw).1
  · have hnone : dropped = [] :=
      hsilent ⟨hsealed, fun _ entry hentry => absurd hentry List.not_mem_nil⟩
    rw [hdropped, hnone]
    exact Array.empty_append

/-- Such a variable does not always leave nothing: in a synonym line the empty pair of brackets is
    text like any other. -/
theorem exists_line_of_undefined : ¬ ∀ (setting : Setting) (s : Text),
    setting.options.undefined = .empty → (classify s).rule = .reference →
      setting.vars.get? (classify s).body = none →
      (setting.perform .attempt s #[]).output = #[] := by
  intro h
  have hsilent : (withoutValues.perform .attempt "cat ~ $nobody".toList #[]).output = #[] :=
    h withoutValues "cat ~ $nobody".toList rfl (by decide +kernel) (Variables.find?_empty _)
  have hline : (withoutValues.perform .attempt "cat ~ $nobody".toList #[]).output =
      #["cat ~ ()".toList] := by decide +kernel
  rw [hline] at hsilent
  exact absurd hsilent (by decide)

end Setting

end Phrasing
