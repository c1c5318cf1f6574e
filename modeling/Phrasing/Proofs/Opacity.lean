import Phrasing.Proofs.Frames

/-!
# `Proofs.Opacity` — expansions do not see what slots say

Templates that differ in one slot expand in lockstep. The run is told once for all slots: a script
says at each iteration which frame is on top of the stack, how many substitutions led to it, which
rule it falls under and what becomes of it. The run on the template with a given slot is the script
with that slot in the gaps.

## Contents
- **`Halt`**, **`Act`**: errors and steps with frames for their texts. `Setting.exists_act` says that
  the step on a frame is the same act for all slots.
- **`Turn`**, **`Script`**, **`Setting.Follows`**: an iteration, a run from beginning to end, and a
  loop that goes through it.
- **`Setting.exists_script`**: what the frames on a stack lead to, by induction along the run.
- **`Setting.perform_attempt_opaque`**.
-/

namespace Phrasing

open Text Grammar Phrasing.Frame

/-! ## Steps on frames -/

/-- An error, with frames for its texts. -/
inductive Halt
  | depthExceeded (template : Frame) (limit : Nat)
  | undefinedVariable (name : Text) (fragment : Frame)

/-- The error with a slot put in the gaps. -/
def Halt.fill (slot : Text) : Halt → ExpansionError
  | depthExceeded template limit => .depthExceeded (Frame.fill slot template) limit
  | undefinedVariable name fragment => .undefinedVariable name (Frame.fill slot fragment)

/-- A pending frame, and how many substitutions led to it. -/
structure Thread where
  frame : Frame
  depth : Nat

/-- The pending text with a slot put in the gaps. -/
def Thread.fill (slot : Text) (thread : Thread) : Pending :=
  ⟨Frame.fill slot thread.frame, thread.depth⟩

/-- A step, with frames for its texts. -/
inductive Act
  | sentence (rule : Rule)
  | dropped
  | varied (rule : Rule) (missing : Option Text) (variants : List Frame) (depth : Nat)
  | stopped (halt : Halt)

namespace Act

/-- The step with a slot put in the gaps. -/
def fill (slot : Text) : Act → Step
  | sentence rule => .sentence rule
  | dropped => .dropped
  | varied rule missing variants depth =>
      .varied rule missing (variants.map (Frame.fill slot)) depth
  | stopped halt => .stopped (halt.fill slot)

/-- What the frame gives way to, as it is stacked. -/
def children : Act → List Thread
  | varied _ _ variants depth => (variants.map fun frame => ⟨frame, depth⟩).reverse
  | _ => []

/-- The sentence that the frame is, if it is one. -/
def sentences (frame : Frame) : Act → List Frame
  | sentence _ => [frame]
  | _ => []

/-- The error that stops the expansion at the frame, if there is one. -/
def halt? : Act → Option Halt
  | stopped halt => some halt
  | _ => none

theorem eq_of_mem_sentences {act : Act} {frame other : Frame} (h : other ∈ act.sentences frame) :
    other = frame := by
  cases act with
  | sentence _ => exact List.mem_singleton.mp h
  | dropped => exact absurd h List.not_mem_nil
  | varied _ _ _ _ => exact absurd h List.not_mem_nil
  | stopped _ => exact absurd h List.not_mem_nil

end Act

namespace Setting

/-- **The act of a frame.** The step on it is the act for every slot, and its variants have no more
    gaps than it has. -/
structure Acts (setting : Setting) (template : Frame) (thread : Thread) (act : Act) : Prop where
  gaps_le : ∀ child ∈ act.children, gaps child.frame ≤ gaps thread.frame
  step_eq : ∀ slot, IsSlot slot →
    setting.step (Frame.fill slot template) (thread.fill slot) = act.fill slot

section ExistsAct

variable {setting : Setting} {thread : Thread} {variants : List Frame}

/-- Variants that have few gaps have them on the stack, too. -/
theorem gaps_le_of_mem_children (hgaps : ∀ variant ∈ variants, gaps variant ≤ gaps thread.frame)
    {rule : Rule} {missing : Option Text} {depth : Nat} :
    ∀ child ∈ (Act.varied rule missing variants depth).children,
      gaps child.frame ≤ gaps thread.frame := by
  intro child hchild
  obtain ⟨variant, hvariant, rfl⟩ := List.mem_map.mp (List.mem_reverse.mp hchild)
  exact hgaps variant hvariant

/-- A frame that mentions a variable mentions the same one for all slots. -/
theorem exists_act_of_reference (template : Frame) {site : Site}
    (hclassify : ∀ slot, IsSlot slot →
      classify (Frame.fill slot thread.frame) = ⟨site.fill slot, .reference⟩)
    (hgaps : ∀ variant ∈ variants, gaps variant ≤ gaps thread.frame)
    (hvariants : ∀ slot, IsSlot slot →
      setting.variants (Frame.fill slot thread.frame) = variants.map (Frame.fill slot)) :
    ∃ act, setting.Acts template thread act := by
  obtain ⟨name, hname⟩ := exists_name hclassify
  have hstep : ∀ slot, IsSlot slot →
      setting.step (Frame.fill slot template) (thread.fill slot) =
        setting.substitute (Frame.fill slot template) ⟨site.fill slot, .reference⟩
          thread.depth := by
    intro slot hslot
    rw [step, Thread.fill, hclassify slot hslot, react]
  have hbody : ∀ slot, (site.fill slot).body = name := by
    intro slot
    rw [Site.fill, hname, fill_ofText]
  have hfilled : ∀ slot, IsSlot slot →
      [Classification.fill ⟨site.fill slot, .reference⟩
        (wrap ((setting.vars.get? name).getD []))] = variants.map (Frame.fill slot) := by
    intro slot hslot
    rw [← hvariants slot hslot, Setting.variants, replacements, hclassify slot hslot]
    simp only [hbody slot]
    rfl
  by_cases hlimit : setting.options.depthLimit ≤ thread.depth
  · refine ⟨.stopped (.depthExceeded template setting.options.depthLimit), by simp [Act.children], ?_⟩
    intro slot hslot
    rw [hstep slot hslot, substitute, if_pos hlimit]
    rfl
  · cases hget : setting.vars.get? name with
    | some value =>
        refine ⟨.varied .reference none variants (thread.depth + 1),
          gaps_le_of_mem_children hgaps, ?_⟩
        intro slot hslot
        simp only [hstep slot hslot, substitute, if_neg hlimit, hbody slot, hget, Act.fill,
          ← hfilled slot hslot, Option.getD_some]
    | none =>
        cases hpolicy : setting.options.undefined with
        | empty =>
            refine ⟨.varied .reference (some name) variants (thread.depth + 1),
              gaps_le_of_mem_children hgaps, ?_⟩
            intro slot hslot
            simp only [hstep slot hslot, substitute, if_neg hlimit, hbody slot, hget, hpolicy,
              Act.fill, ← hfilled slot hslot, Option.getD_none]
        | strict =>
            refine ⟨.stopped (.undefinedVariable name thread.frame), by simp [Act.children], ?_⟩
            intro slot hslot
            have htext := text_classify (Frame.fill slot thread.frame)
            rw [hclassify slot hslot] at htext
            simp only [hstep slot hslot, substitute, if_neg hlimit, hbody slot, hget, hpolicy, htext]
            rfl

/-- **One step, for all slots**: every frame has a rule and an act. -/
theorem exists_act (setting : Setting) (template : Frame) (thread : Thread) :
    ∃ (rule : Rule) (act : Act), setting.Acts template thread act ∧
      ∀ slot, IsSlot slot → (classify (Frame.fill slot thread.frame)).rule = rule := by
  obtain ⟨site, rule, -, hclassify⟩ := exists_classify thread.frame
  obtain ⟨variants, hgaps, hvariants⟩ := exists_variants setting thread.frame
  have hrule : ∀ slot, IsSlot slot → (classify (Frame.fill slot thread.frame)).rule = rule := by
    intro slot hslot
    rw [hclassify slot hslot]
  -- rules for the whole text do not look further, and choices have the variants that were found
  have hwhole : ∀ act : Act, act.children = [] →
      (∀ slot c, c.rule = rule →
        setting.react (Frame.fill slot template) c thread.depth = act.fill slot) →
      setting.Acts template thread act := by
    intro act hchildren hreact
    refine ⟨by simp [hchildren], ?_⟩
    intro slot hslot
    exact hreact slot _ (hrule slot hslot)
  have hchoice : rule.IsChoice →
      setting.Acts template thread (.varied rule none variants thread.depth) := by
    intro hchoice
    refine ⟨gaps_le_of_mem_children hgaps, ?_⟩
    intro slot hslot
    have hthis : (classify (thread.fill slot).text).rule.IsChoice :=
      (hrule slot hslot).symm ▸ hchoice
    rw [(Takes.chosen hthis).step_eq, ← variants_of_isChoice hthis, Thread.fill, hrule slot hslot,
      hvariants slot hslot]
    rfl
  cases hcases : rule with
  | vanilla =>
      refine ⟨_, .sentence .vanilla, hwhole _ rfl ?_, hcases ▸ hrule⟩
      intro slot c hc
      rw [react, hc, hcases]
      rfl
  | synonym =>
      refine ⟨_, .sentence .synonym, hwhole _ rfl ?_, hcases ▸ hrule⟩
      intro slot c hc
      rw [react, hc, hcases]
      rfl
  | unrecognized =>
      refine ⟨_, .dropped, hwhole _ rfl ?_, hcases ▸ hrule⟩
      intro slot c hc
      rw [react, hc, hcases]
      rfl
  | reference =>
      subst hcases
      obtain ⟨act, hact⟩ := exists_act_of_reference template hclassify hgaps hvariants
      exact ⟨_, act, hact, hrule⟩
  | round => exact ⟨_, _, hchoice (Or.inl hcases), hcases ▸ hrule⟩
  | square => exact ⟨_, _, hchoice (Or.inr (Or.inl hcases)), hcases ▸ hrule⟩
  | bare => exact ⟨_, _, hchoice (Or.inr (Or.inr hcases)), hcases ▸ hrule⟩

end ExistsAct

/-! ## Iterations on frames -/

/-- **One iteration, for all slots.** It stops where the act of the top frame does. Otherwise it puts
    what the frame gives way to in its place, and the frame to the sentences if it is one. -/
theorem iterate_of_acts {setting : Setting} {template : Frame} {thread : Thread} {act : Act}
    (hact : setting.Acts template thread act) {rest : List Thread} {slot : Text}
    (hslot : IsSlot slot) {loop : Loop}
    (hpending : loop.pending = (thread :: rest).map (Thread.fill slot)) :
    match act.halt? with
    | some halt => ∃ run, setting.iterate (Frame.fill slot template) loop = .ended run ∧
        run.output = loop.output ∧ run.error = some (halt.fill slot)
    | none => ∃ next, setting.iterate (Frame.fill slot template) loop = .goesOn next ∧
        next.pending = (act.children ++ rest).map (Thread.fill slot) ∧
        next.output =
          loop.output ++ ((act.sentences thread.frame).map (Frame.fill slot)).toArray := by
  obtain ⟨stack, output, events⟩ := loop
  rw [Loop.pending, List.map_cons] at hpending
  obtain ⟨top, branches, rfl, htop, hbranches⟩ := List.map_eq_cons_iff.mp hpending
  have hstep : setting.step (Frame.fill slot template) top.toPending = act.fill slot := by
    rw [htop, hact.step_eq slot hslot]
  cases act with
  | sentence rule =>
      refine ⟨⟨branches, output.push top.text, _⟩, by simp only [iterate, hstep, Act.fill]; rfl,
        hbranches, ?_⟩
      simp [Act.sentences, htop, Thread.fill]
  | dropped =>
      refine ⟨⟨branches, output, _⟩, by simp only [iterate, hstep, Act.fill]; rfl, hbranches, ?_⟩
      simp [Act.sentences]
  | varied rule missing variants depth =>
      refine ⟨⟨top.children (variants.map (Frame.fill slot)) depth ++ branches, output, _⟩,
        by simp only [iterate, hstep, Act.fill]; rfl, ?_, by simp [Act.sentences]⟩
      rw [Loop.pending, List.map_append, Branch.map_toPending_children, hbranches, List.map_append]
      simp [stack, Act.children, Function.comp_def, Thread.fill]
  | stopped halt =>
      exact ⟨⟨output, _, some (halt.fill slot)⟩, by simp only [iterate, hstep, Act.fill]; rfl, rfl,
        rfl⟩

/-- What a frame gives way to is lighter than the frame, with one slot in the gaps of both. -/
theorem load_lt_of_acts {setting : Setting} {template : Frame} {thread : Thread} {act : Act}
    (hact : setting.Acts template thread act) (hhalt : act.halt? = none) (rest : List Thread) :
    setting.load ((act.children ++ rest).map (Thread.fill sample)) <
      setting.load ((thread :: rest).map (Thread.fill sample)) := by
  let loop : Loop :=
    ⟨((thread :: rest).map (Thread.fill sample)).map fun pending => ⟨pending, []⟩, #[], #[]⟩
  have hpending : loop.pending = (thread :: rest).map (Thread.fill sample) := by
    simp [loop, Loop.pending, Function.comp_def]
  have hgoes := iterate_of_acts hact isSlot_sample hpending
  rw [hhalt] at hgoes
  obtain ⟨next, hiterate, hchildren, -⟩ := hgoes
  rw [← hpending, ← hchildren]
  exact load_iterate_lt hiterate

end Setting

/-! ## Scripts -/

/-- **An iteration, for all slots**: the frame on top of the stack, the rule that it falls under and
    the act. -/
structure Turn extends Thread where
  rule : Rule
  act : Act

/-- **A run, for all slots**: its iterations, its sentences and the error that ends it, if any. -/
structure Script where
  turns : List Turn
  sentences : List Frame
  ending : Option Halt

/-- The frames of a script have no more gaps than so many. -/
structure Script.Within (bound : Nat) (script : Script) : Prop where
  turns : ∀ turn ∈ script.turns, gaps turn.frame ≤ bound
  sentences : ∀ frame ∈ script.sentences, gaps frame ≤ bound

/-- The outcome with a slot put in the gaps. -/
def Script.result (slot : Text) (script : Script) : Except ExpansionError Nat :=
  match script.ending with
  | some halt => .error (halt.fill slot)
  | none => .ok script.sentences.length

namespace Setting

/-- Whether a loop is at a turn: the frame is on top of the stack with the slot in its gaps, it falls
    under the rule, and the step on it is the act. -/
structure IsAt (setting : Setting) (template : Frame) (slot : Text) (turn : Turn) (loop : Loop) :
    Prop where
  top : loop.pending.head? = some (turn.fill slot)
  rule : (classify (Frame.fill slot turn.frame)).rule = turn.rule
  step : setting.step (Frame.fill slot template) (turn.fill slot) = turn.act.fill slot

/-- **A loop goes through turns**, one at each iteration, up to the end of its run. -/
inductive Follows (setting : Setting) (template : Frame) (slot : Text) :
    List Turn → Loop → Run → Prop
  | ended {loop : Loop} {run : Run} : loop.pending = [] →
      setting.iterate (Frame.fill slot template) loop = .ended run →
      Follows setting template slot [] loop run
  | stopped {turn : Turn} {loop : Loop} {run : Run} : setting.IsAt template slot turn loop →
      setting.iterate (Frame.fill slot template) loop = .ended run →
      Follows setting template slot [turn] loop run
  | goesOn {turn : Turn} {turns : List Turn} {loop next : Loop} {run : Run} :
      setting.IsAt template slot turn loop →
      setting.iterate (Frame.fill slot template) loop = .goesOn next →
      Follows setting template slot turns next run →
      Follows setting template slot (turn :: turns) loop run

/-- The run at the end is that of the expansion. -/
theorem Follows.run_eq {setting : Setting} {template : Frame} {slot : Text} {turns : List Turn}
    {loop : Loop} {run : Run} (h : setting.Follows template slot turns loop run) :
    setting.drain (Frame.fill slot template) loop.pending loop.output loop.events = run := by
  induction h with
  | ended _ hiterate => rw [drain_eq_of_iterate, hiterate]
  | stopped _ hiterate => rw [drain_eq_of_iterate, hiterate]
  | goesOn _ hiterate _ ih => rw [drain_eq_of_iterate, hiterate]; exact ih

/-- **A stack of frames has one script**, which the runs for all slots follow. -/
theorem exists_script (setting : Setting) (template : Frame) {bound : Nat} (threads : List Thread)
    (hbound : ∀ thread ∈ threads, gaps thread.frame ≤ bound) :
    ∃ script : Script, script.Within bound ∧ ∀ (slot : Text) (loop : Loop), IsSlot slot →
      loop.pending = threads.map (Thread.fill slot) →
      ∃ run, setting.Follows template slot script.turns loop run ∧
        run.output = loop.output ++ (script.sentences.map (Frame.fill slot)).toArray ∧
        run.error = script.ending.map (Halt.fill slot) := by
  -- on the load of the stack for one slot: every iteration lightens it
  induction hload : setting.load (threads.map (Thread.fill sample)) using Nat.strongRecOn
      generalizing threads with
  | ind load ih =>
      cases threads with
      | nil =>
          refine ⟨⟨[], [], none⟩, ⟨by simp, by simp⟩, ?_⟩
          rintro slot ⟨stack, output, events⟩ hslot hpending
          obtain rfl := List.map_eq_nil_iff.mp hpending
          exact ⟨⟨output, events, none⟩, .ended rfl rfl, by simp, rfl⟩
      | cons thread rest =>
          obtain ⟨rule, act, hact, hrule⟩ := setting.exists_act template thread
          obtain ⟨hthread, hrest⟩ := List.forall_mem_cons.mp hbound
          have hat : ∀ (slot : Text) (loop : Loop), IsSlot slot →
              loop.pending = (thread :: rest).map (Thread.fill slot) →
              setting.IsAt template slot ⟨thread, rule, act⟩ loop := by
            intro slot loop hslot hpending
            exact ⟨by rw [hpending]; rfl, hrule slot hslot, hact.step_eq slot hslot⟩
          cases hhalt : act.halt? with
          | some halt =>
              refine ⟨⟨[⟨thread, rule, act⟩], [], some halt⟩, ⟨by simpa using hthread, by simp⟩, ?_⟩
              intro slot loop hslot hpending
              have hstop := iterate_of_acts hact hslot hpending
              rw [hhalt] at hstop
              obtain ⟨run, hrun, houtput, herror⟩ := hstop
              exact ⟨run, .stopped (hat slot loop hslot hpending) hrun, by simp [houtput], herror⟩
          | none =>
              have hnext : ∀ child ∈ act.children ++ rest, gaps child.frame ≤ bound := by
                intro child hchild
                rcases List.mem_append.mp hchild with hchild | hchild
                · exact Nat.le_trans (hact.gaps_le child hchild) hthread
                · exact hrest child hchild
              obtain ⟨script, hwithin, hfollows⟩ :=
                ih _ (hload ▸ load_lt_of_acts hact hhalt rest) _ hnext rfl
              refine ⟨⟨⟨thread, rule, act⟩ :: script.turns,
                act.sentences thread.frame ++ script.sentences, script.ending⟩, ⟨?_, ?_⟩, ?_⟩
              · exact List.forall_mem_cons.mpr ⟨hthread, hwithin.turns⟩
              · intro frame hframe
                rcases List.mem_append.mp hframe with hframe | hframe
                · rw [Act.eq_of_mem_sentences hframe]
                  exact hthread
                · exact hwithin.sentences frame hframe
              · intro slot loop hslot hpending
                have hgoes := iterate_of_acts hact hslot hpending
                rw [hhalt] at hgoes
                obtain ⟨next, hiterate, hchildren, houtput⟩ := hgoes
                obtain ⟨run, hrun, hrunOutput, herror⟩ := hfollows slot next hslot hchildren
                refine ⟨run, .goesOn (hat slot loop hslot hpending) hiterate hrun, ?_, herror⟩
                rw [hrunOutput, houtput]
                simp

/-! ## Expansions -/

/-- **Slots are opaque.** Around one slot, every slot gives the same run: there is a script of frames,
    each with the slot in one place or nowhere, that the expansion goes through at each iteration, and
    its sentences and its outcome are those of the script with the slot in the gaps. -/
theorem perform_attempt_opaque (setting : Setting) (front back : Text) (output : Array Text) :
    ∃ script : Script, (∀ turn ∈ script.turns, Tracked turn.frame) ∧
      (∀ frame ∈ script.sentences, Tracked frame) ∧
      ∀ slot, IsSlot slot →
        setting.Follows (around front back) slot script.turns
          (.start (front ++ slot ++ back) output)
          (setting.expand (front ++ slot ++ back) output) ∧
        (setting.perform .attempt (front ++ slot ++ back) output).output =
          output ++ (script.sentences.map (Frame.fill slot)).toArray ∧
        (setting.perform .attempt (front ++ slot ++ back) output).result = script.result slot := by
  obtain ⟨script, hwithin, hfollows⟩ :=
    @exists_script setting (around front back) 1 [⟨around front back, 0⟩] (by simp)
  refine ⟨script, fun turn hturn => tracked_of_gaps_le (hwithin.turns turn hturn),
    fun frame hframe => tracked_of_gaps_le (hwithin.sentences frame hframe), ?_⟩
  intro slot hslot
  have hstart : (Loop.start (front ++ slot ++ back) output).pending =
      [(⟨around front back, 0⟩ : Thread)].map (Thread.fill slot) := by
    simp [Loop.start, Loop.pending, Thread.fill]
  obtain ⟨run, hrun, houtput, herror⟩ := hfollows slot _ hslot hstart
  have hexpand : setting.expand (front ++ slot ++ back) output = run := by
    rw [← hrun.run_eq, fill_around]
    rfl
  rw [hexpand]
  refine ⟨hrun, ?_, ?_⟩
  · show (setting.expand (front ++ slot ++ back) output).output = _
    rw [hexpand, houtput]
    rfl
  · show (setting.expand (front ++ slot ++ back) output).result output.size = _
    rw [hexpand, Run.result, herror, Script.result, houtput]
    cases script.ending with
    | some halt => rfl
    | none => simp [Loop.start]

/-- A slot in a group, with and without a sample: the same two sentences, the first with the slot. -/
theorem perform_attempt_opaque_twoSlots :
    ∃ script : Script, (∀ frame ∈ script.sentences, Tracked frame) ∧
      script.sentences.map (Frame.fill "<x>".toList) = ["<x> b".toList, "a".toList] ∧
      script.sentences.map (Frame.fill "<y~1 z>".toList) = ["<y~1 z> b".toList, "a".toList] := by
  let plain : Setting := ⟨.empty, { depthLimit := 0 }⟩
  obtain ⟨script, -, htracked, hopaque⟩ :=
    perform_attempt_opaque plain "(a|".toList " b)".toList #[]
  have hread : Slot.read? "<x>".toList = some (⟨"x".toList, none⟩, []) := by decide +kernel
  have hread' : Slot.read? "<y~1 z>".toList =
      some (⟨"y".toList, some "1 z".toList⟩, []) := by decide +kernel
  have hx : (plain.perform .attempt "(a|<x> b)".toList #[]).output =
      #["<x> b".toList, "a".toList] := by decide +kernel
  have hy : (plain.perform .attempt "(a|<y~1 z> b)".toList #[]).output =
      #["<y~1 z> b".toList, "a".toList] := by decide +kernel
  obtain ⟨-, houtput, -⟩ := hopaque "<x>".toList (isSlot_render_of_read? hread)
  obtain ⟨-, houtput', -⟩ := hopaque "<y~1 z>".toList (isSlot_render_of_read? hread')
  refine ⟨script, htracked, ?_, ?_⟩
  · rw [Array.empty_append] at houtput
    exact congrArg Array.toList (houtput.symm.trans hx)
  · rw [Array.empty_append] at houtput'
    exact congrArg Array.toList (houtput'.symm.trans hy)

end Setting

end Phrasing
