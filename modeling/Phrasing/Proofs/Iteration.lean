import Phrasing.Proofs.Recursion
import Phrasing.Text.Splice

/-!
# `Proofs.Iteration` — the iterations of an expansion

An expansion takes one pending text after another. Here each pending text also carries the texts that
gave way to it, which the expansion itself does not look at. An invariant of the pending texts is
then shown for one iteration and holds in every state that a run reaches.

## Contents
- **`Branch`**, **`Loop`**: a pending text with its ancestors, and a state of the loop.
- **`Setting.iterate`**: one iteration. `drain_eq_of_iterate` says that iterations are what `drain`
  does, whatever the ancestors are.
- **`Setting.Reaches`**: so many iterations, with `reaches_invariant` for what they preserve.
- **`Setting.variants`**, **`Setting.Sound`**: what a text gives way to, and the invariant: the
  ancestors lead from the template to the text, and its depth counts their variables.
- **`Setting.expand_ends`**: every expansion ends, within the limit and with one of three outcomes.
-/

namespace Phrasing

/-! ## States -/

/-- A pending text and the texts that gave way to it, the last of them first. -/
structure Branch extends Pending where
  ancestors : List Text
deriving Repr, DecidableEq

/-- A state of the loop: the stack, and the sentences and events so far. -/
structure Loop where
  stack : List Branch
  output : Array Text
  events : Array Event
deriving Repr, DecidableEq

/-- What an iteration leads to. -/
inductive Iteration
  /-- The expansion has ended. -/
  | ended (run : Run)
  /-- The expansion goes on. -/
  | goesOn (next : Loop)
deriving Repr, DecidableEq

namespace Branch

/-- The variants of a text as they are stacked, each with the text as its nearest ancestor. -/
def children (branch : Branch) (variants : List Text) (depth : Nat) : List Branch :=
  (variants.map fun text => ⟨⟨text, depth⟩, branch.text :: branch.ancestors⟩).reverse

/-- How many of the ancestors gave way to the value of a variable. -/
def substitutions (branch : Branch) : Nat :=
  branch.ancestors.countP fun s => (classify s).rule = .reference

theorem map_toPending_children (branch : Branch) (variants : List Text) (depth : Nat) :
    (branch.children variants depth).map Branch.toPending = Setting.stack variants depth := by
  simp [children, Setting.stack, Function.comp_def]

end Branch

namespace Loop

/-- The stack as the expansion sees it, without ancestors. -/
def pending (loop : Loop) : List Pending := loop.stack.map Branch.toPending

/-- The state that the expansion of a template begins in. -/
def start (template : Text) (output : Array Text) : Loop := ⟨[⟨⟨template, 0⟩, []⟩], output, #[]⟩

end Loop

namespace Setting

/-! ## Iterations -/

/-- One iteration of the expansion of a template. -/
def iterate (setting : Setting) (template : Text) (loop : Loop) : Iteration :=
  match loop.stack with
  | [] => .ended ⟨loop.output, loop.events, none⟩
  | top :: rest =>
      match setting.step template top.toPending with
      | .sentence rule =>
          .goesOn ⟨rest, loop.output.push top.text,
            loop.events ++ (Step.sentence rule).events top.text⟩
      | .dropped => .goesOn ⟨rest, loop.output, loop.events ++ Step.dropped.events top.text⟩
      | .varied rule missing variants depth =>
          .goesOn ⟨top.children variants depth ++ rest, loop.output,
            loop.events ++ (Step.varied rule missing variants depth).events top.text⟩
      | .stopped error =>
          .ended ⟨loop.output, loop.events ++ (Step.stopped error).events top.text, some error⟩

/-- **Iterations are what the expansion does.** -/
theorem drain_eq_of_iterate (setting : Setting) (template : Text) (loop : Loop) :
    setting.drain template loop.pending loop.output loop.events =
      match setting.iterate template loop with
      | .ended run => run
      | .goesOn next => setting.drain template next.pending next.output next.events := by
  obtain ⟨stack, output, events⟩ := loop
  cases stack with
  | nil => rw [Loop.pending, List.map_nil, drain]; rfl
  | cons top rest =>
      simp only [Loop.pending, List.map_cons, iterate]
      rw [drain]
      split <;> rename_i hstep <;> rw [hstep]
      simp [Branch.map_toPending_children]

/-- A state that so many iterations lead to. -/
inductive Reaches (setting : Setting) (template : Text) (first : Loop) : Nat → Loop → Prop
  | refl : Reaches setting template first 0 first
  | next {n : Nat} {loop next : Loop} : Reaches setting template first n loop →
      setting.iterate template loop = .goesOn next → Reaches setting template first (n + 1) next

variable {setting : Setting} {template : Text}

/-- Working off the stack goes on from every state that is reached. -/
theorem Reaches.drain_eq {first last : Loop} {n : Nat} (h : setting.Reaches template first n last) :
    setting.drain template last.pending last.output last.events =
      setting.drain template first.pending first.output first.events := by
  induction h with
  | refl => rfl
  | @next n loop next _ hnext ih =>
      have hdrain := drain_eq_of_iterate setting template loop
      rw [hnext] at hdrain
      exact hdrain.symm.trans ih

/-- What one iteration preserves holds in every state that is reached. -/
theorem reaches_invariant {P : Loop → Prop}
    (hstep : ∀ {loop next : Loop}, P loop → setting.iterate template loop = .goesOn next → P next)
    {first last : Loop} {n : Nat} (h : setting.Reaches template first n last) (hfirst : P first) :
    P last := by
  induction h with
  | refl => exact hfirst
  | next _ hnext ih => exact hstep ih hnext

/-- An iteration either takes the top of the stack away or puts its variants in its place. -/
theorem iterate_cases {loop next : Loop} (h : setting.iterate template loop = .goesOn next) :
    ∃ top rest, loop.stack = top :: rest ∧
      (next.stack = rest ∨ ∃ rule missing variants depth,
        setting.step template top.toPending = .varied rule missing variants depth ∧
        next.stack = top.children variants depth ++ rest) := by
  unfold iterate at h
  split at h
  · exact absurd h (by simp)
  · rename_i top rest hstack
    refine ⟨top, rest, hstack, ?_⟩
    split at h
    · rw [Iteration.goesOn.injEq] at h
      subst h
      exact Or.inl rfl
    · rw [Iteration.goesOn.injEq] at h
      subst h
      exact Or.inl rfl
    · rename_i rule missing variants depth hstep
      rw [Iteration.goesOn.injEq] at h
      subst h
      exact Or.inr ⟨rule, missing, variants, depth, hstep, rfl⟩
    · exact absurd h (by simp)

/-! ## The end of a run -/

/-- A run ends where nothing is left on the stack, or where the step on the top stops it. -/
theorem ended_cases {loop : Loop} {run : Run} (h : setting.iterate template loop = .ended run) :
    (loop.stack = [] ∧ run = ⟨loop.output, loop.events, none⟩) ∨
      ∃ top rest error, loop.stack = top :: rest ∧
        setting.step template top.toPending = .stopped error ∧
        run = ⟨loop.output, loop.events ++ (Step.stopped error).events top.text, some error⟩ := by
  unfold iterate at h
  split at h
  · rename_i hstack
    rw [Iteration.ended.injEq] at h
    exact Or.inl ⟨hstack, h.symm⟩
  · rename_i top rest hstack
    split at h
    · exact absurd h (by simp)
    · exact absurd h (by simp)
    · exact absurd h (by simp)
    · rename_i error hstep
      rw [Iteration.ended.injEq] at h
      exact Or.inr ⟨top, rest, error, hstack, hstep, h.symm⟩

/-- Every iteration lightens the stack. -/
theorem load_iterate_lt {loop next : Loop} (h : setting.iterate template loop = .goesOn next) :
    setting.load next.pending < setting.load loop.pending := by
  obtain ⟨top, rest, hstack, hnext⟩ := iterate_cases h
  rw [Loop.pending, Loop.pending, hstack, List.map_cons, load_cons]
  have hpos : 0 < setting.loadOf top.toPending := weight_pos _ _ _
  rcases hnext with hnext | ⟨rule, missing, variants, depth, hstep, hnext⟩
  -- the top is gone
  · rw [hnext]
    omega
  -- its variants stand in its place, lighter than it was together
  · rw [hnext, List.map_append, Branch.map_toPending_children, load_append]
    have hlt := load_variants_lt hstep
    omega

/-- There are no more iterations than the first stack is heavy. -/
theorem load_le_of_reaches {first last : Loop} {n : Nat}
    (h : setting.Reaches template first n last) :
    n + setting.load last.pending ≤ setting.load first.pending := by
  induction h with
  | refl => exact Nat.le_of_eq (Nat.zero_add _)
  | next _ hnext ih =>
      have hlt := load_iterate_lt hnext
      omega

theorem Reaches.head {first second last : Loop} {n : Nat}
    (hfirst : setting.iterate template first = .goesOn second)
    (h : setting.Reaches template second n last) : setting.Reaches template first (n + 1) last := by
  induction h with
  | refl => exact .next .refl hfirst
  | next _ hnext ih => exact .next ih hnext

/-- From every state, iterations lead to the end, and to the run that `drain` gives. -/
theorem exists_ended (setting : Setting) (template : Text) (loop : Loop) :
    ∃ n last, setting.Reaches template loop n last ∧ setting.iterate template last =
      .ended (setting.drain template loop.pending loop.output loop.events) := by
  -- on the load of the stack, which every iteration lightens
  induction hload : setting.load loop.pending using Nat.strongRecOn generalizing loop with
  | ind load ih =>
      have hdrain := drain_eq_of_iterate setting template loop
      cases hiterate : setting.iterate template loop with
      | ended run =>
          rw [hiterate] at hdrain
          exact ⟨0, loop, .refl, by rw [hiterate, hdrain]⟩
      | goesOn next =>
          rw [hiterate] at hdrain
          obtain ⟨n, last, hreaches, hlast⟩ :=
            ih _ (hload ▸ load_iterate_lt hiterate) next rfl
          exact ⟨n + 1, last, .head hiterate hreaches, by rw [hlast, hdrain]⟩

/-- An expansion comes to a state from which an iteration ends it. -/
theorem exists_ended_expand (setting : Setting) (template : Text) (output : Array Text) :
    ∃ n last, setting.Reaches template (.start template output) n last ∧
      setting.iterate template last = .ended (setting.expand template output) :=
  exists_ended setting template (.start template output)

/-! ## Variants -/

/-- What stands in the place of a construct, one text for each variant. -/
def replacements (setting : Setting) (s : Text) : List Text :=
  match (classify s).rule with
  | .reference => [wrap ((setting.vars.get? (classify s).body).getD [])]
  | .round => (classify s).alternatives
  | .bare => (classify s).alternatives
  | .square => (classify s).alternatives ++ [[]]
  | _ => []

/-- What a text gives way to, as long as nothing stops the expansion. -/
def variants (setting : Setting) (s : Text) : List Text :=
  (setting.replacements s).map (classify s).fill

/-- The byte range of a construct can always be replaced. -/
theorem splice_classify (s replacement : Text) :
    Text.splice s (classify s).start (classify s).stop replacement =
      .ok ((classify s).fill replacement) := by
  have hsplice := Text.splice_middle (classify s).before (classify s).construct
    (classify s).after replacement
  have htext := text_classify s
  rw [Classification.text] at htext
  rwa [htext] at hsplice

/-- **No replacement fails.** Replacing the bytes of a construct gives all variants. -/
theorem mapM_splice_replacements (setting : Setting) (s : Text) :
    (setting.replacements s).mapM (Text.splice s (classify s).start (classify s).stop) =
      .ok (setting.variants s) := by
  rw [variants]
  induction setting.replacements s with
  | nil => rfl
  | cons first rest ih => rw [List.mapM_cons, splice_classify, ih]; rfl

theorem variants_of_isChoice {s : Text} (h : (classify s).rule.IsChoice) :
    setting.variants s = (classify s).choices := by
  rcases h with h | h | h <;>
    simp [variants, replacements, Classification.choices, h]

/-- A step on a text gives way to the variants of the text. It takes a substitution more, within the
    limit, exactly if the text mentions a variable. -/
theorem variants_of_step {pending : Pending} {rule : Rule} {missing : Option Text}
    {variants : List Text} {depth : Nat}
    (h : setting.step template pending = .varied rule missing variants depth) :
    variants = setting.variants pending.text ∧
      ((classify pending.text).rule = .reference ∧ depth = pending.depth + 1 ∧
          pending.depth < setting.options.depthLimit ∨
        (classify pending.text).rule ≠ .reference ∧ depth = pending.depth) := by
  have htakes := takes_step setting template pending
  rw [h] at htakes
  cases htakes with
  | substituted hrule hdepth hget =>
      exact ⟨by simp [Setting.variants, replacements, hrule, hget], Or.inl ⟨hrule, rfl, hdepth⟩⟩
  | emptied hrule hdepth hget hempty =>
      exact ⟨by simp [Setting.variants, replacements, hrule, hget], Or.inl ⟨hrule, rfl, hdepth⟩⟩
  | chosen hrule =>
      refine ⟨(variants_of_isChoice hrule).symm, Or.inr ⟨?_, rfl⟩⟩
      rcases hrule with hrule | hrule | hrule <;> simp [hrule]

/-! ## The invariant -/

/-- The ancestors lead from the template to the text, each giving way to the next. -/
inductive Lineage (setting : Setting) (template : Text) : List Text → Text → Prop
  | template : Lineage setting template [] template
  | variant {ancestors : List Text} {s v : Text} : Lineage setting template ancestors s →
      v ∈ setting.variants s → Lineage setting template (s :: ancestors) v

/-- **The invariant of pending texts.** A text descends from the template, and its depth counts the
    variables on the way and is within the limit. -/
structure Sound (setting : Setting) (template : Text) (branch : Branch) : Prop where
  lineage : setting.Lineage template branch.ancestors branch.text
  depth_eq : branch.depth = branch.substitutions
  depth_le : branch.depth ≤ setting.options.depthLimit

/-- The template itself is a sound branch. -/
theorem sound_template (setting : Setting) (template : Text) :
    setting.Sound template ⟨⟨template, 0⟩, []⟩ :=
  ⟨.template, rfl, Nat.zero_le _⟩

/-- A step on a sound branch leads to sound branches. -/
theorem sound_of_mem_children {top branch : Branch} {rule : Rule} {missing : Option Text}
    {variants : List Text} {depth : Nat} (htop : setting.Sound template top)
    (h : setting.step template top.toPending = .varied rule missing variants depth)
    (hbranch : branch ∈ top.children variants depth) : setting.Sound template branch := by
  obtain ⟨hvariants, hdepth⟩ := variants_of_step h
  obtain ⟨v, hv, rfl⟩ := List.mem_map.mp (List.mem_reverse.mp hbranch)
  rw [hvariants] at hv
  have hcount := htop.depth_eq
  have hlimit := htop.depth_le
  refine ⟨.variant htop.lineage hv, ?_, ?_⟩
  · rcases hdepth with ⟨hrule, hdepth, -⟩ | ⟨hrule, hdepth⟩
    · simp only [Branch.substitutions, List.countP_cons, hrule, decide_true, if_true]
      rw [hdepth, hcount, Branch.substitutions]
    · simp only [Branch.substitutions, List.countP_cons, hrule, decide_false]
      rw [hdepth, hcount, Branch.substitutions]
      rfl
  · rcases hdepth with ⟨-, hdepth, hlt⟩ | ⟨-, hdepth⟩
    · show depth ≤ setting.options.depthLimit
      omega
    · show depth ≤ setting.options.depthLimit
      omega

/-- An iteration keeps all pending texts sound. -/
theorem sound_iterate {loop next : Loop} (hloop : ∀ branch ∈ loop.stack, setting.Sound template branch)
    (h : setting.iterate template loop = .goesOn next) :
    ∀ branch ∈ next.stack, setting.Sound template branch := by
  obtain ⟨top, rest, hstack, hnext⟩ := iterate_cases h
  rw [hstack] at hloop
  intro branch hbranch
  rcases hnext with hnext | ⟨rule, missing, variants, depth, hstep, hnext⟩
  · rw [hnext] at hbranch
    exact hloop branch (List.mem_cons_of_mem _ hbranch)
  · rw [hnext] at hbranch
    rcases List.mem_append.mp hbranch with hbranch | hbranch
    · exact sound_of_mem_children (hloop top List.mem_cons_self) hstep hbranch
    · exact hloop branch (List.mem_cons_of_mem _ hbranch)

/-- All pending texts of a run are sound. -/
theorem sound_of_reaches {output : Array Text} {n : Nat} {loop : Loop}
    (h : setting.Reaches template (.start template output) n loop) :
    ∀ branch ∈ loop.stack, setting.Sound template branch := by
  refine reaches_invariant (fun hloop hnext => sound_iterate hloop hnext) h ?_
  intro branch hbranch
  rw [List.mem_singleton.mp hbranch]
  exact sound_template setting template

/-! ## The outcome -/

/-- **The outcomes of an expansion**: success, the limit of the template, or, where values are
    required, a variable without one. -/
def Permits (setting : Setting) (template : Text) : Except ExpansionError Nat → Prop
  | .ok _ => True
  | .error (.depthExceeded stopped limit) =>
      stopped = template ∧ limit = setting.options.depthLimit
  | .error (.undefinedVariable _ _) => setting.options.undefined = .strict

/-- A step stops for no other reason than the permitted ones. -/
theorem permits_of_step {pending : Pending} {error : ExpansionError}
    (h : setting.step template pending = .stopped error) :
    setting.Permits template (.error error) := by
  have htakes := takes_step setting template pending
  rw [h] at htakes
  cases htakes with
  | exhausted hrule hlimit => exact ⟨rfl, rfl⟩
  | undefined hrule hdepth hget hstrict => exact hstrict

/-- The error of a run, if any, is a permitted one. -/
theorem permits_of_ended {loop : Loop} {run : Run}
    (h : setting.iterate template loop = .ended run) :
    ∀ error ∈ run.error, setting.Permits template (.error error) := by
  intro error herror
  rcases ended_cases h with ⟨_, rfl⟩ | ⟨top, rest, stopped, _, hstep, rfl⟩
  · exact absurd herror (by simp)
  · rw [Option.mem_def, Option.some.injEq] at herror
    exact herror ▸ permits_of_step hstep

/-- **Every expansion ends.** Iterations lead from the template to the run of the expansion, and there
    are no more of them than the template is heavy. In every state on the way each pending text is
    sound, a step on it stays within the limit, and its variants come of replacing the bytes of its
    construct, which never fails. No sentence is lost, and the outcome is a permitted one. -/
theorem expand_ends (setting : Setting) (template : Text) (output : Array Text) :
    (∃ n last, setting.Reaches template (.start template output) n last ∧
      setting.iterate template last = .ended (setting.expand template output)) ∧
    (∀ n loop, setting.Reaches template (.start template output) n loop →
      n ≤ setting.load [⟨template, 0⟩] ∧
      ∀ branch ∈ loop.stack, setting.Sound template branch ∧
        ∀ rule missing variants depth,
          setting.step template branch.toPending = .varied rule missing variants depth →
            depth ≤ setting.options.depthLimit ∧
            (setting.replacements branch.text).mapM (Text.splice branch.text
              (classify branch.text).start (classify branch.text).stop) = .ok variants) ∧
    output.size ≤ (setting.expand template output).output.size ∧
    setting.Permits template (setting.perform .attempt template output).result := by
  obtain ⟨n, last, hreaches, hended⟩ := exists_ended setting template (.start template output)
  refine ⟨⟨n, last, hreaches, hended⟩, ?_, ?_, ?_⟩
  · intro m loop hloop
    refine ⟨Nat.le_of_add_right_le (load_le_of_reaches hloop), ?_⟩
    intro branch hbranch
    have hsound := sound_of_reaches hloop branch hbranch
    refine ⟨hsound, ?_⟩
    intro rule missing variants depth hstep
    obtain ⟨hvariants, hdepth⟩ := variants_of_step hstep
    have hlimit := hsound.depth_le
    refine ⟨by omega, ?_⟩
    rw [hvariants]
    exact mapM_splice_replacements setting branch.text
  · rw [expand_eq_yield, Array.size_append]
    exact Nat.le_add_right _ _
  · have hpermits := permits_of_ended hended
    show setting.Permits template ((setting.expand template output).result output.size)
    unfold Run.result
    split
    · rename_i error herror
      exact hpermits error herror
    · trivial

/-- A variable whose value mentions the variable. -/
def selfReference : Setting := ⟨.ofPairs [("v".toList, "$v".toList)], {}⟩

/-- With a variable in its own value, the expansion still ends, within the limit and with a permitted
    outcome. -/
theorem expand_ends_selfReference :
    (∃ n last, selfReference.Reaches "$v".toList (.start "$v".toList #[]) n last ∧
      selfReference.iterate "$v".toList last = .ended (selfReference.expand "$v".toList #[])) ∧
    selfReference.Sound "$v".toList ⟨⟨"$v".toList, 0⟩, []⟩ ∧
    selfReference.Permits "$v".toList
      (selfReference.perform .attempt "$v".toList #[]).result := by
  obtain ⟨hended, hsound, -, hpermits⟩ := expand_ends selfReference "$v".toList #[]
  refine ⟨hended, ?_, hpermits⟩
  exact ((hsound 0 _ .refl).2 _ (List.mem_singleton_self _)).1

end Setting

end Phrasing
