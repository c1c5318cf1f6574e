import Mathlib.Data.Set.Defs
import Phrasing.Proofs.Substitution

/-!
# `Proofs.Cycles` — variables whose values lead back to them

The first reference of a text is resolved before anything else is done, and the others are not touched by
that: they stand behind it, and brackets keep a value apart from them. So a text that mentions one of
some variables, all of whose values mention one of them, goes on to do so. Nothing comes of it but
substitutions, up to the limit.

## Contents
- **`Variables.Cyclic`**: variables whose values mention one of them.
- **`MentionsAny`**, **`Cyclic.fill`**: the invariant, and the progress that it makes.
- **`Yield.Exhausts`**: substitutions up to the limit, and nothing else; `yield_of_cyclic`.
- **`Setting.perform_attempt_cyclic`**.
-/

namespace Phrasing

open Text Grammar

/-! ## References stay -/

namespace Grammar

variable {s value name : Text}

/-- What is mentioned behind the construct is mentioned with anything in its place. -/
theorem Mentions.fill (h : Mentions (classify s).after name) (replacement : Text) :
    Mentions ((classify s).fill replacement) name :=
  h.append_left _

/-- What a value mentions is mentioned with the value, in brackets, in the place of the construct. -/
theorem Mentions.fill_wrap (h : Mentions value name) (s : Text) :
    Mentions ((classify s).fill (wrap value)) name := by
  obtain ⟨before, after, hat⟩ := h
  -- no name goes on in the closing bracket
  have hstops : ∀ c ∈ (')' :: (classify s).after).head?, ¬ IsNameRest c := by
    intro c hc
    rw [← Option.some.inj hc, ← isNameRest_iff]
    decide
  have hmentions : Mentions (value ++ ')' :: (classify s).after) name :=
    ⟨_, _, hat.append_right hstops⟩
  have hfill : (classify s).fill (wrap value) =
      ((classify s).before ++ ['(']) ++ (value ++ ')' :: (classify s).after) := by
    simp [Classification.fill, wrap]
  rw [hfill]
  exact hmentions.append_left _

/-- **A text mentions one of some variables**, given by their lower-case names. -/
def MentionsAny (s : Text) (names : Set Text) : Prop := ∃ name, Mentions s name ∧ lower name ∈ names

end Grammar

/-! ## Cyclic variables -/

namespace Variables

variable {vars : Variables} {names : Set Text}

/-- A name and its lower-case form have the same value. -/
theorem get?_lower (vars : Variables) (name : Text) : vars.get? (lower name) = vars.get? name := by
  rw [get?, get?, lower_lower]

/-- **Cyclic variables**, given by their lower-case names: each has a value, and that mentions one of
    them. -/
def Cyclic (vars : Variables) (names : Set Text) : Prop :=
  ∀ key ∈ names, ∃ value, vars.get? key = some value ∧ MentionsAny value names

/-- **Cyclic variables stay.** If a text mentions one of them, so does the text with the value of the
    first variable in its place. -/
theorem Cyclic.fill (h : vars.Cyclic names) {s : Text} (hs : MentionsAny s names) :
    MentionsAny ((classify s).fill (wrap ((vars.get? (classify s).body).getD []))) names := by
  obtain ⟨name, hmentions, hname⟩ := hs
  have hmem : name ∈ mentioned s := mem_mentioned_iff.mpr hmentions
  rw [(mentioned_classify hmentions).2] at hmem
  rcases List.mem_cons.mp hmem with hfirst | hbehind
  -- the first variable is one of them, and its value mentions one
  · obtain ⟨value, hget, other, hother, hcyclic⟩ := h (lower name) hname
    rw [get?_lower] at hget
    refine ⟨other, ?_, hcyclic⟩
    rw [← hfirst, hget]
    exact hother.fill_wrap s
  -- one of them is mentioned behind the first variable
  · exact ⟨name, (mem_mentioned_iff.mp hbehind).fill _, hname⟩

end Variables

/-! ## Nothing but substitutions -/

/-- Whether an event tells of a variable without a value. -/
def Event.isUndefinedVariable : Event → Bool
  | undefinedVariable _ _ => true
  | _ => false

/-- **A yield that comes to nothing but the limit.** So many texts give way to the value of a variable,
    with or without a word on a missing value, and then the limit is reached. -/
structure Yield.Exhausts (y : Yield) (template : Text) (limit count : Nat) : Prop where
  error : y.error = some (.depthExceeded template limit)
  events : ∃ (told : List Event) (fragments : List Text),
    y.events = told ++ [.limitReached limit template] ∧
    told.filter (fun event => !event.isUndefinedVariable) =
      fragments.map (.varied .reference · 1) ∧
    fragments.length = count

/-- One more substitution before the others. -/
theorem Yield.Exhausts.behind {y : Yield} {template s : Text} {limit count : Nat}
    (h : y.Exhausts template limit count) {told : List Event}
    (htold : told.filter (fun event => !event.isUndefinedVariable) = [.varied .reference s 1]) :
    (y.behind told).Exhausts template limit (count + 1) where
  error := h.error
  events := by
    obtain ⟨later, fragments, hevents, hlater, hcount⟩ := h.events
    refine ⟨told ++ later, s :: fragments, ?_, ?_, ?_⟩
    · rw [Yield.behind, hevents, List.append_assoc]
    · rw [List.filter_append, htold, hlater]
      rfl
    · rw [List.length_cons, hcount]

namespace Setting

variable {setting : Setting} {names : Set Text} {s : Text} {depth : Nat}

/-- **What a text with a cyclic variable yields**: no sentence, and all the substitutions that are left;
    unless a value is required and there is none. -/
theorem yield_of_cyclic (hcyclic : setting.vars.Cyclic names) (hs : MentionsAny s names)
    (template : Text) {left : Nat} (hleft : depth + left = setting.options.depthLimit) :
    (setting.yield template s depth).sentences = [] ∧
      ((setting.yield template s depth).Exhausts template setting.options.depthLimit left ∨
        setting.options.undefined = .strict ∧ ∃ name fragment,
          (setting.yield template s depth).error = some (.undefinedVariable name fragment)) := by
  -- on the substitutions that are left: each leads to a text that mentions such a variable, too
  induction left generalizing s depth with
  | zero =>
      obtain ⟨name, hmentions, -⟩ := hs
      have hrule := (mentioned_classify hmentions).1
      have hlimit : setting.options.depthLimit ≤ depth := by omega
      rw [yield_of_exhausted hrule hlimit]
      exact ⟨rfl, Or.inl ⟨rfl, [], [], rfl, rfl, rfl⟩⟩
  | succ left ih =>
      have hnext := hcyclic.fill hs
      obtain ⟨name, hmentions, -⟩ := hs
      have hrule := (mentioned_classify hmentions).1
      have hdepth : depth < setting.options.depthLimit := by omega
      rcases yield_of_reference hrule hdepth template with
        ⟨told, htold, hyield⟩ | ⟨hstrict, -, hyield⟩
      · have hbehind : depth + 1 + left = setting.options.depthLimit := by omega
        obtain ⟨hsentences, hend⟩ := ih hnext hbehind
        have hfilter : told.filter (fun event => !event.isUndefinedVariable) =
            [.varied .reference s 1] := by
          rcases htold with rfl | rfl <;> rfl
        rw [hyield]
        refine ⟨hsentences, ?_⟩
        rcases hend with hexhausts | hundefined
        · exact Or.inl (hexhausts.behind hfilter)
        · exact Or.inr hundefined
      · rw [hyield]
        exact ⟨rfl, Or.inr ⟨hstrict, _, _, rfl⟩⟩

/-- **A cyclic variable always shows as the error at the limit**, and never as a sentence. Where values
    may be missing, the events are as many substitutions as the limit allows, and the limit; where they
    are required, a variable without a value may come first. -/
theorem perform_attempt_cyclic (setting : Setting) (template : Text) (output : Array Text)
    (names : Set Text) (hcyclic : setting.vars.Cyclic names)
    (htemplate : MentionsAny template names) :
    (setting.perform .attempt template output).output = output ∧
      (setting.options.undefined = .empty →
        (setting.perform .attempt template output).result =
            .error (.depthExceeded template setting.options.depthLimit) ∧
          ∃ (told : List Event) (fragments : List Text),
            (setting.perform .attempt template output).events =
              told ++ [.limitReached setting.options.depthLimit template] ∧
            told.filter (fun event => !event.isUndefinedVariable) =
              fragments.map (.varied .reference · 1) ∧
            fragments.length = setting.options.depthLimit) ∧
      (setting.options.undefined = .strict →
        (setting.perform .attempt template output).result =
            .error (.depthExceeded template setting.options.depthLimit) ∨
          ∃ name fragment, (setting.perform .attempt template output).result =
            .error (.undefinedVariable name fragment)) := by
  obtain ⟨hsentences, hend⟩ := yield_of_cyclic hcyclic htemplate template (Nat.zero_add _)
  rw [output_attempt, hsentences, result_attempt, events_attempt, Yield.result]
  refine ⟨Array.append_empty, ?_, ?_⟩
  · intro hempty
    rcases hend with hexhausts | ⟨hstrict, -⟩
    · rw [hexhausts.error]
      exact ⟨rfl, hexhausts.events⟩
    · rw [hempty] at hstrict
      exact absurd hstrict (by simp)
  · intro _
    rcases hend with hexhausts | ⟨-, name, fragment, herror⟩
    · rw [hexhausts.error]
      exact Or.inl rfl
    · rw [herror]
      exact Or.inr ⟨name, fragment, rfl⟩

/-- Two variables that mention each other, values not required, and two substitutions allowed. -/
def mutualReference : Setting :=
  ⟨.ofPairs [("a".toList, "x|$B".toList), ("b".toList, "[$A] y".toList)], { depthLimit := 2 }⟩

/-- A variable without a value takes the first of two substitutions, and the cyclic one behind it the
    second. The sentence from before is kept. -/
theorem perform_attempt_cyclic_mutualReference :
    mutualReference.vars.Cyclic {"a".toList, "b".toList} ∧
      MentionsAny "$nobody (z|$a)".toList {"a".toList, "b".toList} ∧
      (mutualReference.perform .attempt "$nobody (z|$a)".toList #["w".toList]).output =
        #["w".toList] ∧
      (mutualReference.perform .attempt "$nobody (z|$a)".toList #["w".toList]).result =
        .error (.depthExceeded "$nobody (z|$a)".toList 2) ∧
      (mutualReference.perform .attempt "$nobody (z|$a)".toList #["w".toList]).events =
        [.undefinedVariable "nobody".toList "$nobody (z|$a)".toList,
          .varied .reference "$nobody (z|$a)".toList 1, .varied .reference "() (z|$a)".toList 1,
          .limitReached 2 "$nobody (z|$a)".toList] := by
  have ha : MentionsAny "x|$B".toList {"a".toList, "b".toList} :=
    ⟨"B".toList, mem_mentioned_iff.mp (by decide +kernel), Or.inr (by decide +kernel)⟩
  have hb : MentionsAny "[$A] y".toList {"a".toList, "b".toList} :=
    ⟨"A".toList, mem_mentioned_iff.mp (by decide +kernel), Or.inl (by decide +kernel)⟩
  have hcyclic : mutualReference.vars.Cyclic {"a".toList, "b".toList} := by
    rintro key (rfl | rfl)
    · exact ⟨"x|$B".toList, by decide +kernel, ha⟩
    · exact ⟨"[$A] y".toList, by decide +kernel, hb⟩
  have htemplate : MentionsAny "$nobody (z|$a)".toList {"a".toList, "b".toList} :=
    ⟨"a".toList, mem_mentioned_iff.mp (by decide +kernel), Or.inl (by decide +kernel)⟩
  obtain ⟨houtput, hempty, -⟩ := perform_attempt_cyclic mutualReference "$nobody (z|$a)".toList
    #["w".toList] _ hcyclic htemplate
  exact ⟨hcyclic, htemplate, houtput, (hempty rfl).1, by decide +kernel⟩

end Setting

end Phrasing
