import Phrasing.Expansion.Worklist

/-!
# `Proofs.Step` — everything that a step can do

A step depends on the classification of a text, on the number of substitutions behind it and on the
value of one variable. `Takes` lists the outcomes with their conditions; `takes_step` says that there
are no others. Proofs about runs go through the list and do not open `step`.

## Contents
- **`Rule.IsChoice`**: the rules that put one variant for each alternative.
- **`Setting.Takes`**, **`Setting.takes_step`**: the outcomes of a step.
- **`Setting.Takes.step_eq`**: the conditions of an outcome decide the step.
-/

namespace Phrasing

/-- The rules for choices: a round group, a square group, a choice without brackets. -/
def Rule.IsChoice (rule : Rule) : Prop := rule = .round ∨ rule = .square ∨ rule = .bare

namespace Setting

variable {setting : Setting} {template : Text} {pending : Pending}

/-- **The outcomes of a step** on a pending text, in the expansion of a template. -/
inductive Takes (setting : Setting) (template : Text) (pending : Pending) : Step → Prop
  /-- Literal text and slots are a sentence. -/
  | vanilla : (classify pending.text).rule = .vanilla →
      Takes setting template pending (.sentence .vanilla)
  /-- A synonym line is a sentence. -/
  | synonym : (classify pending.text).rule = .synonym →
      Takes setting template pending (.sentence .synonym)
  /-- What fits no rule is dropped. -/
  | dropped : (classify pending.text).rule = .unrecognized →
      Takes setting template pending .dropped
  /-- A variable with no substitution left stops the expansion, whatever its value. -/
  | exhausted : (classify pending.text).rule = .reference →
      setting.options.depthLimit ≤ pending.depth →
      Takes setting template pending (.stopped (.depthExceeded template setting.options.depthLimit))
  /-- A variable gives way to its value. -/
  | substituted {value : Text} : (classify pending.text).rule = .reference →
      pending.depth < setting.options.depthLimit →
      setting.vars.get? (classify pending.text).body = some value →
      Takes setting template pending (.varied .reference none
        [(classify pending.text).fill (wrap value)] (pending.depth + 1))
  /-- A variable without a value gives way to an empty one. -/
  | emptied : (classify pending.text).rule = .reference →
      pending.depth < setting.options.depthLimit →
      setting.vars.get? (classify pending.text).body = none → setting.options.undefined = .empty →
      Takes setting template pending (.varied .reference (some (classify pending.text).body)
        [(classify pending.text).fill (wrap [])] (pending.depth + 1))
  /-- A variable without a value stops the expansion where values are required. -/
  | undefined : (classify pending.text).rule = .reference →
      pending.depth < setting.options.depthLimit →
      setting.vars.get? (classify pending.text).body = none → setting.options.undefined = .strict →
      Takes setting template pending
        (.stopped (.undefinedVariable (classify pending.text).body pending.text))
  /-- A choice gives way to its alternatives. -/
  | chosen : (classify pending.text).rule.IsChoice →
      Takes setting template pending (.varied (classify pending.text).rule none
        (classify pending.text).choices pending.depth)

/-- The step on a text with a variable is one of four. -/
theorem takes_substitute (hrule : (classify pending.text).rule = .reference) :
    Takes setting template pending
      (setting.substitute template (classify pending.text) pending.depth) := by
  unfold substitute
  split
  · rename_i hlimit
    exact .exhausted hrule hlimit
  · rename_i hlimit
    have hdepth : pending.depth < setting.options.depthLimit := Nat.lt_of_not_le hlimit
    split
    · rename_i value hget
      exact .substituted hrule hdepth hget
    · rename_i hget
      split
      · rename_i hempty
        exact .emptied hrule hdepth hget hempty
      · rename_i hstrict
        rw [text_classify]
        exact .undefined hrule hdepth hget hstrict

/-- **A step is one of the outcomes.** -/
theorem takes_step (setting : Setting) (template : Text) (pending : Pending) :
    Takes setting template pending (setting.step template pending) := by
  unfold step react
  split
  · rename_i hrule
    exact .vanilla hrule
  · rename_i hrule
    exact .synonym hrule
  · rename_i hrule
    exact .dropped hrule
  · rename_i hrule
    exact takes_substitute hrule
  · rename_i hvanilla hsynonym hunrecognized hreference
    refine .chosen ?_
    cases hrule : (classify pending.text).rule with
    | vanilla => exact absurd hrule hvanilla
    | reference => exact absurd hrule hreference
    | round => exact Or.inl rfl
    | square => exact Or.inr (Or.inl rfl)
    | bare => exact Or.inr (Or.inr rfl)
    | synonym => exact absurd hrule hsynonym
    | unrecognized => exact absurd hrule hunrecognized

/-- **The conditions of an outcome decide the step**: no two outcomes share them. -/
theorem Takes.step_eq {step : Step} (h : setting.Takes template pending step) :
    setting.step template pending = step := by
  unfold Setting.step react
  cases h with
  | vanilla hrule => simp only [hrule]
  | synonym hrule => simp only [hrule]
  | dropped hrule => simp only [hrule]
  | exhausted hrule hlimit => simp only [hrule, substitute, if_pos hlimit]
  | substituted hrule hdepth hget =>
      simp only [hrule, substitute, if_neg (Nat.not_le_of_lt hdepth), hget]
  | emptied hrule hdepth hget hempty =>
      simp only [hrule, substitute, if_neg (Nat.not_le_of_lt hdepth), hget, hempty]
  | undefined hrule hdepth hget hstrict =>
      simp only [hrule, substitute, if_neg (Nat.not_le_of_lt hdepth), hget, hstrict, text_classify]
  | chosen hrule => rcases hrule with hrule | hrule | hrule <;> simp only [hrule]

end Setting

end Phrasing
