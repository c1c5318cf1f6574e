import Phrasing.Proofs.Sentences
import Phrasing.Proofs.References

/-!
# `Proofs.LetterCase` — names in another letter case

Variables are found in whatever letter case they are written. So a template whose references are written
in another letter case expands to the same sentences, with a table whose names are, too: what is written
differently is gone when it gives way to a value, and no rule looks at it before.

## Contents
- **`SameButCase`**: texts that differ in the case of ASCII letters; `lower_congr`: they are one name.
- **`Variables.ofPairs_congr`**: tables of such names are equal.
- **`Respelled`**: texts whose references differ in letter case. `Respelled.classify_cases`: they are
  equal, or the same reference comes first in both.
- **`Step.Alike`**, `alike_step`: what becomes of two such texts, in one step.
- **`Yield.Alike`**, `alike_yield`: what they yield.
- **`Setting.perform_attempt_respelled`**.
-/

namespace Phrasing

open Text Grammar

/-! ## Letters -/

/-- The capital ASCII letters. -/
def capitals : List Char := (List.range 26).map fun i => Char.ofNat (65 + i)

/-- All other characters are as they are in lower case. -/
theorem toLower_eq_or_mem_capitals (c : Char) : c.toLower = c ∨ c ∈ capitals := by
  unfold Char.toLower
  split
  · rename_i hcapital
    have hcode : 65 ≤ c.toNat ∧ c.toNat ≤ 90 := by
      simpa [UInt32.le_iff_toNat_le] using hcapital
    refine Or.inr (List.mem_map.mpr ⟨c.toNat - 65, List.mem_range.mpr (by omega), ?_⟩)
    rw [Nat.add_sub_cancel' hcode.1, Char.ofNat_toNat]
  · exact Or.inl rfl

/-- What does not tell a capital from its small letter, does not tell letter case at all. -/
theorem toLower_congr {α : Type} {f : Char → α}
    (h : capitals.map (fun c => f c.toLower) = capitals.map f) (c : Char) : f c.toLower = f c := by
  rcases toLower_eq_or_mem_capitals c with hc | hc
  · rw [hc]
  · exact List.map_inj_left.mp h c hc

theorem isNameStart_toLower (c : Char) : isNameStart c.toLower = isNameStart c :=
  toLower_congr (by decide +kernel) c

theorem isNameRest_toLower (c : Char) : isNameRest c.toLower = isNameRest c :=
  toLower_congr (by decide +kernel) c

/-! ## Names -/

/-- **The same but for letter case**, of ASCII letters. -/
def SameButCase (s t : Text) : Prop := s.map Char.toLower = t.map Char.toLower

instance (s t : Text) : Decidable (SameButCase s t) := inferInstanceAs (Decidable (_ = _))

namespace Text

theorem lowerChar_toLower (c : Char) : lowerChar c.toLower = lowerChar c :=
  toLower_congr (by decide +kernel) c

theorem toLower_eq_capitalSigma_iff (c : Char) : c.toLower = capitalSigma ↔ c = capitalSigma := by
  have h := toLower_congr (f := fun c => decide (c = capitalSigma)) (by decide +kernel) c
  simpa using h

/-- Letters of either case are passed over alike in the search for a cased letter. -/
theorem meetsCased_map_toLower (s : Text) : meetsCased (s.map Char.toLower) = meetsCased s := by
  have hignorable : ∀ c : Char, inRanges caseIgnorableRanges c.toLower.toNat =
      inRanges caseIgnorableRanges c.toNat :=
    toLower_congr (f := fun c => inRanges caseIgnorableRanges c.toNat) (by decide +kernel)
  have hcased : ∀ c : Char, inRanges casedRanges c.toLower.toNat = inRanges casedRanges c.toNat :=
    toLower_congr (f := fun c => inRanges casedRanges c.toNat) (by decide +kernel)
  unfold meetsCased
  have hskip : (fun c : Char => inRanges caseIgnorableRanges c.toNat) ∘ Char.toLower =
      fun c => inRanges caseIgnorableRanges c.toNat := funext hignorable
  rw [List.dropWhile_map, hskip]
  cases s.dropWhile fun c => inRanges caseIgnorableRanges c.toNat with
  | nil => rfl
  | cons c cs => exact hcased c

theorem lowerAfter_map_toLower (before s : Text) :
    lowerAfter (before.map Char.toLower) (s.map Char.toLower) = lowerAfter before s := by
  induction s generalizing before with
  | nil => rfl
  | cons c cs ih =>
      have hrest := ih (c :: before)
      rw [List.map_cons] at hrest
      simp only [List.map_cons, lowerAfter, hrest, toLower_eq_capitalSigma_iff, lowerChar_toLower,
        lowerSigma, meetsCased_map_toLower]

/-- **Texts that differ in the case of ASCII letters are one name.** -/
theorem lower_congr {s t : Text} (h : SameButCase s t) : lower s = lower t := by
  have hs := lowerAfter_map_toLower [] s
  have ht := lowerAfter_map_toLower [] t
  rw [h] at hs
  exact hs.symm.trans ht

end Text

namespace Variables

theorem get?_congr (vars : Variables) {name other : Text} (h : SameButCase name other) :
    vars.get? name = vars.get? other := by
  rw [get?, get?, lower_congr h]

/-- **The same table** is made of the same values under such names. -/
theorem ofPairs_congr {pairs pairs' : List (Text × Text)}
    (h : List.Forall₂ (fun p q => SameButCase p.1 q.1 ∧ p.2 = q.2) pairs pairs') :
    ofPairs pairs = ofPairs pairs' := by
  unfold ofPairs
  generalize empty = table
  induction h generalizing table with
  | nil => rfl
  | cons hfirst _ ih =>
      obtain ⟨hname, hvalue⟩ := hfirst
      rw [List.foldl_cons, List.foldl_cons, insert, insert, lower_congr hname, hvalue]
      exact ih _

end Variables

/-- A name in another letter case is a name. -/
theorem SameButCase.isName {name other : Text} (h : SameButCase name other) (hname : IsName name) :
    IsName other := by
  cases hname with
  | @mk c cs hc hcs =>
      cases other with
      | nil => exact absurd h (by simp [SameButCase])
      | cons d ds =>
          obtain ⟨hfirst, hrest⟩ := List.cons.inj h
          refine .mk ?_ fun e he => ?_
          · rw [← isNameStart_iff, ← isNameStart_toLower, ← hfirst, isNameStart_toLower,
              isNameStart_iff]
            exact hc
          · have hmem : e.toLower ∈ cs.map Char.toLower := by
              rw [show cs.map Char.toLower = ds.map Char.toLower from hrest]
              exact List.mem_map_of_mem he
            obtain ⟨e', he', heq⟩ := List.mem_map.mp hmem
            rw [← isNameRest_iff, ← isNameRest_toLower, ← heq, isNameRest_toLower, isNameRest_iff]
            exact hcs e' he'

/-! ## Texts whose references are respelled -/

/-- **The same but for letter case in references**, each of which is as long as it can be. -/
inductive Respelled : Text → Text → Prop
  | nil : Respelled [] []
  | same (c : Char) {s t : Text} : Respelled s t → Respelled (c :: s) (c :: t)
  | reference {name other after after' : Text} : IsName name → SameButCase name other →
      (∀ c ∈ after.head?, ¬ IsNameRest c) → Respelled after after' →
      Respelled ('$' :: name ++ after) ('$' :: other ++ after')

namespace Respelled

variable {s t : Text}

theorem refl (s : Text) : Respelled s s := by
  induction s with
  | nil => exact .nil
  | cons c cs ih => exact .same c ih

/-- The same text in front. -/
theorem append_left (h : Respelled s t) (front : Text) : Respelled (front ++ s) (front ++ t) := by
  induction front with
  | nil => exact h
  | cons c cs ih => exact .same c ih

/-- They begin alike. -/
theorem head?_eq (h : Respelled s t) : s.head? = t.head? := by
  cases h <;> rfl

/-- Up to a dollar sign they are equal. -/
theorem span {p : Char → Bool} (hp : p '$' = false) (h : Respelled s t) :
    s.takeWhile p = t.takeWhile p ∧ Respelled (s.dropWhile p) (t.dropWhile p) := by
  induction h with
  | nil => exact ⟨rfl, .nil⟩
  | @same c s t hrest ih =>
      by_cases hc : p c = true
      · simp only [List.takeWhile_cons_of_pos hc, List.dropWhile_cons_of_pos hc]
        exact ⟨by rw [ih.1], ih.2⟩
      · simp only [List.takeWhile_cons_of_neg hc, List.dropWhile_cons_of_neg hc]
        exact ⟨trivial, .same c hrest⟩
  | reference hname hother hstops hafter _ =>
      simp only [List.cons_append, List.takeWhile_cons, List.dropWhile_cons, hp]
      exact ⟨rfl, .reference hname hother hstops hafter⟩

/-- The same name is read from both, or none. -/
theorem readName?_cases (h : Respelled s t) :
    (readName? s = none ∧ readName? t = none) ∨ ∃ name after after',
      readName? s = some (name, after) ∧ readName? t = some (name, after') ∧
        Respelled after after' := by
  cases h with
  | nil => exact Or.inl ⟨rfl, rfl⟩
  | @same c s t hrest =>
      obtain ⟨htake, hdrop⟩ := hrest.span (p := isNameRest) (by decide)
      by_cases hc : isNameStart c = true
      · refine Or.inr ⟨c :: s.takeWhile isNameRest, _, _, ?_, ?_, hdrop⟩
        · rw [readName?, if_pos hc]
        · rw [readName?, if_pos hc, htake]
      · exact Or.inl ⟨by rw [readName?, if_neg hc], by rw [readName?, if_neg hc]⟩
  | reference _ _ _ _ => exact Or.inl ⟨rfl, rfl⟩

/-- **The first reference** is at the same place in both, if there is one; otherwise they are equal. -/
theorem findFirst_cases (h : Respelled s t) :
    (s = t ∧ findFirst readReference? s = none) ∨ ∃ before name other after after',
      findFirst readReference? s = some ⟨before, name, after⟩ ∧
      findFirst readReference? t = some ⟨before, other, after'⟩ ∧
      SameButCase name other ∧ Respelled after after' := by
  induction h with
  | nil => exact Or.inl ⟨rfl, rfl⟩
  | @same c s t hrest ih =>
      have hread : (readReference? (c :: s) = none ∧ readReference? (c :: t) = none) ∨
          ∃ name after after', readReference? (c :: s) = some (name, after) ∧
            readReference? (c :: t) = some (name, after') ∧ Respelled after after' := by
        by_cases hc : c = '$'
        · subst hc
          exact hrest.readName?_cases
        · exact Or.inl ⟨readReference?_of_ne hc s, readReference?_of_ne hc t⟩
      rcases hread with ⟨hs, ht⟩ | ⟨name, after, after', hs, ht, hafter⟩
      · simp only [findFirst, hs, ht]
        rcases ih with ⟨rfl, hnone⟩ | ⟨before, name, other, after, after', hs, ht, hother, hafter⟩
        · exact Or.inl ⟨rfl, by rw [hnone]; rfl⟩
        · exact Or.inr ⟨c :: before, name, other, after, after', by rw [hs]; rfl, by rw [ht]; rfl,
            hother, hafter⟩
      · simp only [findFirst, hs, ht]
        exact Or.inr ⟨[], name, name, after, after', rfl, rfl, rfl, hafter⟩
  | @reference name other after after' hname hother hstops hafter _ =>
      have hs : readReference? ('$' :: name ++ after) = some (name, after) :=
        readName?_eq_some_iff.mpr ⟨rfl, hname, hstops⟩
      have ht : readReference? ('$' :: other ++ after') = some (other, after') := by
        refine readName?_eq_some_iff.mpr ⟨rfl, hother.isName hname, ?_⟩
        rw [← hafter.head?_eq]
        exact hstops
      rw [List.cons_append] at hs ht
      simp only [List.cons_append, findFirst, hs, ht]
      exact Or.inr ⟨[], name, other, after, after', rfl, rfl, hother, hafter⟩

/-- **Their classifications**: both mention the same variable first, or they are equal and mention
    none. -/
theorem classify_cases (h : Respelled s t) :
    (s = t ∧ (classify s).rule ≠ .reference) ∨ ∃ before name other after after',
      classify s = ⟨⟨before, name, after⟩, .reference⟩ ∧
      classify t = ⟨⟨before, other, after'⟩, .reference⟩ ∧
      SameButCase name other ∧ Respelled after after' := by
  rcases h.findFirst_cases with ⟨rfl, hnone⟩ | ⟨before, name, other, after, after', hs, ht, hrest⟩
  · refine Or.inl ⟨rfl, fun hrule => ?_⟩
    have hfits := (fits_classify s).1
    rw [hrule] at hfits
    exact (findFirst_reference_eq_none_iff s).mp hnone hfits
  · exact Or.inr ⟨before, name, other, after, after', classify_of_findFirst hs,
      classify_of_findFirst ht, hrest⟩

end Respelled

/-! ## One step -/

/-- **Errors of the same kind**, about texts and names that differ in letter case. -/
inductive ExpansionError.Alike : ExpansionError → ExpansionError → Prop
  | depthExceeded {template other : Text} (limit : Nat) : Respelled template other →
      Alike (.depthExceeded template limit) (.depthExceeded other limit)
  | undefinedVariable {name other fragment fragment' : Text} : SameButCase name other →
      Respelled fragment fragment' →
      Alike (.undefinedVariable name fragment) (.undefinedVariable other fragment')

/-- **Steps on two texts that come to the same**: the texts are one sentence, or both are dropped, or
    they give way to variants whose references are respelled, or both are stopped. -/
inductive Step.Alike (s t : Text) : Step → Step → Prop
  | sentence (rule : Rule) : s = t → Alike s t (.sentence rule) (.sentence rule)
  | dropped : Alike s t .dropped .dropped
  | varied (rule : Rule) (missing missing' : Option Text) {variants variants' : List Text}
      (depth : Nat) : List.Forall₂ Respelled variants variants' →
      Alike s t (.varied rule missing variants depth) (.varied rule missing' variants' depth)
  | stopped {error error' : ExpansionError} : error.Alike error' →
      Alike s t (.stopped error) (.stopped error')

namespace Setting

variable (setting : Setting) {template other : Text}

/-- **A step does not tell letter case in references.** -/
theorem alike_step (htemplate : Respelled template other) {s t : Text} (h : Respelled s t)
    (depth : Nat) :
    Step.Alike s t (setting.step template ⟨s, depth⟩) (setting.step other ⟨t, depth⟩) := by
  suffices hstep : ∃ step, setting.Takes other ⟨t, depth⟩ step ∧
      Step.Alike s t (setting.step template ⟨s, depth⟩) step by
    obtain ⟨step, htakes, halike⟩ := hstep
    rwa [htakes.step_eq]
  have htakes := takes_step setting template ⟨s, depth⟩
  generalize setting.step template ⟨s, depth⟩ = step at htakes
  rcases h.classify_cases with ⟨rfl, hrule⟩ |
    ⟨before, name, name', after, after', hs, ht, hname, hafter⟩
  -- one text without a variable
  · cases htakes with
    | vanilla h => exact ⟨_, .vanilla h, .sentence .vanilla rfl⟩
    | synonym h => exact ⟨_, .synonym h, .sentence .synonym rfl⟩
    | dropped h => exact ⟨_, .dropped h, .dropped⟩
    | chosen h =>
        have hvariants := List.forall₂_same.mpr fun v (_ : v ∈ (classify s).choices) =>
          Respelled.refl v
        exact ⟨_, .chosen h, .varied _ none none depth hvariants⟩
    | exhausted h _ => exact absurd h hrule
    | substituted h _ _ => exact absurd h hrule
    | emptied h _ _ _ => exact absurd h hrule
    | undefined h _ _ _ => exact absurd h hrule
  -- two texts with one variable
  · have hs' : (classify s).rule = .reference := by rw [hs]
    have ht' : (classify t).rule = .reference := by rw [ht]
    have hbody : SameButCase (classify s).body (classify t).body := by
      rw [hs, ht]
      exact hname
    have hget := setting.vars.get?_congr hbody
    have hfill : ∀ value, List.Forall₂ Respelled [(classify s).fill (wrap value)]
        [(classify t).fill (wrap value)] := by
      intro value
      rw [hs, ht]
      exact .cons (hafter.append_left (before ++ wrap value)) .nil
    cases htakes with
    | exhausted _ hlimit => exact ⟨_, .exhausted ht' hlimit, .stopped (.depthExceeded _ htemplate)⟩
    | substituted _ hdepth hvalue =>
        exact ⟨_, .substituted ht' hdepth (hget.symm.trans hvalue), .varied _ _ _ _ (hfill _)⟩
    | emptied _ hdepth hnone hempty =>
        exact ⟨_, .emptied ht' hdepth (hget.symm.trans hnone) hempty, .varied _ _ _ _ (hfill [])⟩
    | undefined _ hdepth hnone hstrict =>
        exact ⟨_, .undefined ht' hdepth (hget.symm.trans hnone) hstrict,
          .stopped (.undefinedVariable hbody h)⟩
    | vanilla h => exact absurd (hs'.symm.trans h) (by simp)
    | synonym h => exact absurd (hs'.symm.trans h) (by simp)
    | dropped h => exact absurd (hs'.symm.trans h) (by simp)
    | chosen h =>
        rw [hs'] at h
        exact absurd h (by simp [Rule.IsChoice])

end Setting

/-! ## Whole expansions -/

/-- **The same sentences**, and errors of the same kind or none. -/
structure Yield.Alike (y y' : Yield) : Prop where
  sentences : y.sentences = y'.sentences
  error : Option.Rel ExpansionError.Alike y.error y'.error

namespace Yield.Alike

theorem andThen {first first' second second' : Yield} (hfirst : first.Alike first')
    (hsecond : second.Alike second') : (first.andThen second).Alike (first'.andThen second') := by
  obtain ⟨sentences, events, error⟩ := first
  obtain ⟨sentences', events', error'⟩ := first'
  obtain ⟨rfl, herror⟩ := hfirst
  cases herror with
  | some hfailed => exact ⟨rfl, .some hfailed⟩
  | none => exact ⟨congrArg (sentences ++ ·) hsecond.sentences, hsecond.error⟩

theorem inTurn {ys ys' : List Yield} (h : List.Forall₂ Yield.Alike ys ys') :
    (Yield.inTurn ys).Alike (Yield.inTurn ys') := by
  induction h with
  | nil => exact ⟨rfl, .none⟩
  | cons hfirst _ ih => exact hfirst.andThen ih

/-- Alike, one by one, if all that is made of one list is alike. -/
theorem map {α : Type} {R : α → α → Prop} {xs ys : List α} (h : List.Forall₂ R xs ys)
    {f g : α → Yield} (hf : ∀ x ∈ xs, ∀ y, R x y → (f x).Alike (g y)) :
    List.Forall₂ Yield.Alike (xs.map f) (ys.map g) := by
  induction h with
  | nil => exact .nil
  | @cons x y xs ys hxy _ ih =>
      rw [List.forall_mem_cons] at hf
      exact .cons (hf.1 y hxy) (ih hf.2)

/-- They have the same number of sentences, or errors of the same kind. -/
theorem result {y y' : Yield} (h : y.Alike y') :
    (y.result = .ok y.sentences.length ∧ y'.result = .ok y.sentences.length) ∨
      ∃ error error' : ExpansionError, y.result = .error error ∧ y'.result = .error error' ∧
        error.Alike error' := by
  obtain ⟨sentences, events, error⟩ := y
  obtain ⟨sentences', events', error'⟩ := y'
  obtain ⟨rfl, herror⟩ := h
  cases herror with
  | none => exact Or.inl ⟨rfl, rfl⟩
  | some hfailed => exact Or.inr ⟨_, _, rfl, rfl, hfailed⟩

end Yield.Alike

namespace Setting

variable (setting : Setting) {template other : Text}

/-- **Texts whose references are respelled yield the same sentences**, and the same kind of error. -/
theorem alike_yield (htemplate : Respelled template other) (p : Pending) :
    ∀ t, Respelled p.text t →
      (setting.yield template p.text p.depth).Alike (setting.yield other t p.depth) := by
  induction p using pending_induction setting template with
  | h p ih =>
      intro t ht
      have hstep := setting.alike_step htemplate ht p.depth
      rw [yield_eq_of_step setting template p, yield_eq_of_step setting other ⟨t, p.depth⟩]
      generalize hfirst : setting.step template p = first at hstep
      generalize setting.step other ⟨t, p.depth⟩ = second at hstep
      cases hstep with
      | sentence rule heq => exact ⟨by rw [heq], .none⟩
      | dropped => exact ⟨rfl, .none⟩
      | stopped hfailed => exact ⟨rfl, .some hfailed⟩
      | @varied rule missing missing' variants variants' depth hvariants =>
          have hyields : List.Forall₂ Yield.Alike
              (variants.reverse.map fun v => setting.yield template v depth)
              (variants'.reverse.map fun v => setting.yield other v depth) :=
            Yield.Alike.map (List.rel_reverse hvariants) fun v hv =>
              ih rule missing variants depth hfirst v (List.mem_reverse.mp hv)
          have hturn := Yield.Alike.inTurn hyields
          exact ⟨hturn.sentences, hturn.error⟩

/-- **Letter case does not matter in names.** For templates whose references are respelled, and tables of
    the same values under respelled names, expansions add the same sentences, and both succeed with the
    same number of them or both fail with the same kind of error. -/
theorem perform_attempt_respelled {template other : Text} (htemplate : Respelled template other)
    {pairs pairs' : List (Text × Text)}
    (hpairs : List.Forall₂ (fun p q => SameButCase p.1 q.1 ∧ p.2 = q.2) pairs pairs')
    (options : Options) (output : Array Text) :
    ∃ produced : List Text,
      (perform ⟨.ofPairs pairs, options⟩ .attempt template output).output =
        output ++ produced.toArray ∧
      (perform ⟨.ofPairs pairs', options⟩ .attempt other output).output =
        output ++ produced.toArray ∧
      (((perform ⟨.ofPairs pairs, options⟩ .attempt template output).result =
            .ok produced.length ∧
          (perform ⟨.ofPairs pairs', options⟩ .attempt other output).result =
            .ok produced.length) ∨
        ∃ error error' : ExpansionError,
          (perform ⟨.ofPairs pairs, options⟩ .attempt template output).result = .error error ∧
          (perform ⟨.ofPairs pairs', options⟩ .attempt other output).result = .error error' ∧
          error.Alike error') := by
  have halike := alike_yield ⟨.ofPairs pairs, options⟩ htemplate ⟨template, 0⟩ other htemplate
  rw [← Variables.ofPairs_congr hpairs]
  simp only [output_attempt, result_attempt]
  exact ⟨_, rfl, by rw [halike.sentences], halike.result⟩

/-- Three names, the last of them twice, and one substitution. -/
def lettered : List (Text × Text) :=
  [("XΣ".toList, "y".toList), ("V".toList, "|".toList), ("v".toList, [])]

/-- The same names in another letter case. -/
def relettered : List (Text × Text) :=
  [("xΣ".toList, "y".toList), ("v".toList, "|".toList), ("V".toList, [])]

/-- A variable with an empty value, a sentence with a dollar sign behind the tilde, and one variable more
    than there are substitutions for. -/
theorem perform_attempt_respelled_midway :
    (perform ⟨.ofPairs lettered, { depthLimit := 1 }⟩ .attempt "n~$(a|)$v".toList #[]).output =
        #["n~$()".toList] ∧
      (perform ⟨.ofPairs relettered, { depthLimit := 1 }⟩ .attempt "n~$(a|)$V".toList #[]).output =
        #["n~$()".toList] ∧
      ∃ error : ExpansionError,
        (perform ⟨.ofPairs relettered, { depthLimit := 1 }⟩ .attempt "n~$(a|)$V".toList #[]).result =
          .error error ∧
        ExpansionError.Alike (.depthExceeded "n~$(a|)$v".toList 1) error := by
  have hname : IsName "v".toList :=
    .mk ((isNameStart_iff 'v').mp (by decide)) fun _ h => absurd h List.not_mem_nil
  have hsame : SameButCase "v".toList "V".toList := by decide
  have htemplate : Respelled "n~$(a|)$v".toList "n~$(a|)$V".toList :=
    Respelled.append_left (.reference hname hsame (by simp) .nil) "n~$(a|)".toList
  have hpairs : List.Forall₂ (fun p q => SameButCase p.1 q.1 ∧ p.2 = q.2) lettered relettered :=
    .cons ⟨by decide, rfl⟩ (.cons ⟨by decide, rfl⟩ (.cons ⟨by decide, rfl⟩ .nil))
  have houtput : (perform ⟨.ofPairs lettered, { depthLimit := 1 }⟩ .attempt
      "n~$(a|)$v".toList #[]).output = #["n~$()".toList] := by decide +kernel
  have hfailed : (perform ⟨.ofPairs lettered, { depthLimit := 1 }⟩ .attempt
      "n~$(a|)$v".toList #[]).result = .error (.depthExceeded "n~$(a|)$v".toList 1) := by
    decide +kernel
  obtain ⟨produced, hproduced, hother, ⟨hok, -⟩ | ⟨error, error', herror, herror', halike⟩⟩ :=
    perform_attempt_respelled htemplate hpairs { depthLimit := 1 } #[]
  · exact absurd (hfailed.symm.trans hok) (by simp)
  · refine ⟨houtput, hother.trans (hproduced.symm.trans houtput), error', herror', ?_⟩
    rw [hfailed, Except.error.injEq] at herror
    rwa [herror]

end Setting

end Phrasing
