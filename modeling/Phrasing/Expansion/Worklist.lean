import Phrasing.Expansion.Event
import Phrasing.Expansion.Options
import Phrasing.Expansion.Weight
import Phrasing.Template.Classification
import Phrasing.Variables

/-!
# `Phrasing.Expansion.Worklist` — the expansion of a template

An expansion works on a stack of texts. The text on top is classified: a sentence goes to the
output, a text with a choice or a variable gives way to its variants, anything else is dropped.
Variants are pushed in order, so the last of them is taken up first.

## Contents
- **`Setting.step`**: what becomes of one text, and `Step.events`, what is reported about it.
- **`Setting.drain`**: works off a stack. It ends because every step lightens the stack
  (`load_variants_lt`).
- **`Setting.expand`**: the expansion of a template, in addition to sentences produced before.
-/

namespace Phrasing

/-- Everything that an expansion depends on, apart from the template. -/
structure Setting where
  vars : Variables
  options : Options := {}
deriving Repr, DecidableEq

/-- A text on the stack, and how many substitutions led to it. -/
structure Pending where
  text : Text
  depth : Nat
deriving Repr, DecidableEq

/-- What becomes of one text. -/
inductive Step
  /-- It is a sentence. -/
  | sentence (rule : Rule)
  /-- It is dropped. -/
  | dropped
  /-- It gives way to variants, each led to by `depth` substitutions; `missing` is the name of a
      variable whose value was taken as empty. -/
  | varied (rule : Rule) (missing : Option Text) (variants : List Text) (depth : Nat)
  /-- It stops the expansion. -/
  | stopped (error : ExpansionError)
deriving Repr, DecidableEq

/-- What is reported about a step on a text. -/
def Step.events (text : Text) : Step → List Event
  | sentence rule => [.emitted rule text]
  | dropped => [.unrecognized text]
  | varied rule (some name) variants _ =>
      [.undefinedVariable name text, .varied rule text variants.length]
  | varied rule none variants _ => [.varied rule text variants.length]
  | stopped (.depthExceeded template limit) => [.limitReached limit template]
  | stopped (.undefinedVariable _ _) => []

/-- A value in round brackets, which keep its bars apart from the text around it. -/
def wrap (value : Text) : Text := '(' :: value ++ [')']

/-- A finished expansion: the sentences after those produced before, what was reported, and the
    error that stopped it, if any. -/
structure Run where
  output : Array Text
  events : Array Event
  error : Option ExpansionError
deriving Repr, DecidableEq

namespace Setting

/-- The step on a text that mentions a variable. -/
def substitute (setting : Setting) (template : Text) (c : Classification) (depth : Nat) : Step :=
  if setting.options.depthLimit ≤ depth then
    .stopped (.depthExceeded template setting.options.depthLimit)
  else
    match setting.vars.get? c.body with
    | some value => .varied .reference none [c.fill (wrap value)] (depth + 1)
    | none =>
        match setting.options.undefined with
        | .empty => .varied .reference (some c.body) [c.fill (wrap [])] (depth + 1)
        | .strict => .stopped (.undefinedVariable c.body c.text)

/-- The step on a classified text that so many substitutions led to. -/
def react (setting : Setting) (template : Text) (c : Classification) (depth : Nat) : Step :=
  match c.rule with
  | .vanilla => .sentence .vanilla
  | .synonym => .sentence .synonym
  | .unrecognized => .dropped
  | .reference => setting.substitute template c depth
  | rule => .varied rule none c.choices depth

/-- The step on a text, in the expansion of a template. -/
def step (setting : Setting) (template : Text) (pending : Pending) : Step :=
  setting.react template (classify pending.text) pending.depth

/-- The variants of a text, as they are stacked: the last one on top. -/
def stack (variants : List Text) (depth : Nat) : List Pending :=
  (variants.map fun text => ⟨text, depth⟩).reverse

/-! ## The work on a stack -/

/-- By how much a substitution may lengthen a text. -/
def growth (setting : Setting) : Nat := setting.vars.longest + 2

/-- Work that a text on the stack stands for. -/
def loadOf (setting : Setting) (pending : Pending) : Nat :=
  weight setting.growth (setting.options.depthLimit - pending.depth) pending.text.length

/-- Work that a stack stands for. -/
def load (setting : Setting) (stack : List Pending) : Nat := total setting.loadOf stack

theorem load_cons (setting : Setting) (pending : Pending) (rest : List Pending) :
    setting.load (pending :: rest) = setting.loadOf pending + setting.load rest := by
  simp [load]

theorem load_append (setting : Setting) (upper lower : List Pending) :
    setting.load (upper ++ lower) = setting.load upper + setting.load lower := by
  simp [load]

theorem load_stack (setting : Setting) (variants : List Text) (depth : Nat) :
    setting.load (stack variants depth) =
      total (weight setting.growth (setting.options.depthLimit - depth))
        (variants.map List.length) := by
  simp [load, stack, loadOf]

/-- Filling in a value lengthens a text by no more than the growth. -/
theorem length_fill_wrap_le {s value : Text} {setting : Setting}
    (h : value.length ≤ setting.vars.longest) :
    ((classify s).fill (wrap value)).length ≤ s.length + setting.growth := by
  have htext := congrArg List.length (text_classify s)
  simp only [Classification.text, List.length_append] at htext
  simp only [Classification.fill, wrap, growth, List.cons_append, List.length_cons,
    List.length_append, List.length_nil]
  omega

/-- The choices of a text are lighter than the text. -/
theorem load_choices_lt (setting : Setting) (pending : Pending) :
    setting.load (stack (classify pending.text).choices pending.depth) <
      setting.loadOf pending := by
  rw [load_stack]
  refine total_weight_lt _ _ ?_ ?_
  · intro m hm
    obtain ⟨v, hv, rfl⟩ := List.mem_map.mp hm
    exact length_lt_of_mem_choices hv
  · rw [List.length_map]
    exact length_choices_le pending.text

/-- A text with a value filled in is lighter than the text. -/
theorem load_substitution_lt {setting : Setting} {pending : Pending} {value : Text}
    (hdepth : ¬ setting.options.depthLimit ≤ pending.depth)
    (hvalue : value.length ≤ setting.vars.longest) :
    setting.load (stack [(classify pending.text).fill (wrap value)] (pending.depth + 1)) <
      setting.loadOf pending := by
  obtain ⟨left, hleft⟩ : ∃ left, setting.options.depthLimit - pending.depth = left + 1 :=
    ⟨setting.options.depthLimit - pending.depth - 1, by omega⟩
  have hnext : setting.options.depthLimit - (pending.depth + 1) = left := by omega
  rw [load_stack, hnext, loadOf, hleft]
  simpa using weight_growth_lt (length_fill_wrap_le hvalue)

/-- The variants of a text are lighter than the text. -/
theorem load_variants_lt {setting : Setting} {template : Text} {pending : Pending} {rule : Rule}
    {missing : Option Text} {variants : List Text} {depth : Nat}
    (h : setting.step template pending = .varied rule missing variants depth) :
    setting.load (stack variants depth) < setting.loadOf pending := by
  unfold step react at h
  split at h
  · exact absurd h (by simp)
  · exact absurd h (by simp)
  · exact absurd h (by simp)
  · unfold substitute at h
    split at h
    · exact absurd h (by simp)
    · rename_i hdepth
      split at h
      · rename_i value hget
        simp only [Step.varied.injEq] at h
        obtain ⟨_, _, rfl, rfl⟩ := h
        exact load_substitution_lt hdepth (Variables.length_le_longest hget)
      · split at h
        · simp only [Step.varied.injEq] at h
          obtain ⟨_, _, rfl, rfl⟩ := h
          exact load_substitution_lt hdepth (Nat.zero_le _)
        · exact absurd h (by simp)
  · simp only [Step.varied.injEq] at h
    obtain ⟨_, _, rfl, rfl⟩ := h
    exact load_choices_lt setting pending

/-- Works off a stack, adding to the sentences and events so far. -/
def drain (setting : Setting) (template : Text) (pending : List Pending) (output : Array Text)
    (events : Array Event) : Run :=
  match pending with
  | [] => ⟨output, events, none⟩
  | top :: rest =>
      match _ : setting.step template top with
      | .sentence rule =>
          setting.drain template rest (output.push top.text)
            (events ++ (Step.sentence rule).events top.text)
      | .dropped =>
          setting.drain template rest output (events ++ Step.dropped.events top.text)
      | .varied rule missing variants depth =>
          setting.drain template (stack variants depth ++ rest) output
            (events ++ (Step.varied rule missing variants depth).events top.text)
      | .stopped error => ⟨output, events ++ (Step.stopped error).events top.text, some error⟩
termination_by setting.load pending
decreasing_by
  · rw [load_cons]
    have hpos := weight_pos setting.growth (setting.options.depthLimit - top.depth) top.text.length
    simp only [loadOf]
    omega
  · rw [load_cons]
    have hpos := weight_pos setting.growth (setting.options.depthLimit - top.depth) top.text.length
    simp only [loadOf]
    omega
  · rw [load_cons, load_append]
    rename_i hstep
    have hlt := load_variants_lt hstep
    omega

/-- The expansion of a template. Its sentences come behind those already in `output`. -/
def expand (setting : Setting) (template : Text) (output : Array Text) : Run :=
  setting.drain template [⟨template, 0⟩] output #[]

end Setting

end Phrasing
