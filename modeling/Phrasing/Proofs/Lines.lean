import Phrasing.Command
import Phrasing.Proofs.Undefined

/-!
# `Proofs.Lines` — sentences on lines of their own

The command for a template writes one sentence a line. Its sentences can be told apart again if none of
them has a line feed. Literal text has none, and neither has a synonym line, except that the white space
around its tilde may be a line feed; so a sentence can take two lines or more, but it is cut at its tilde
and nowhere else.

## Contents
- **`count_lines_iff`**, **`pieces_lines_iff`**: lines can be counted and come back, exactly if they
  have no line feed of their own.
- **`FeedAtTilde`**: a line feed in the white space around the tilde; `feed_mem_iff_of_emit`: there is
  no other in a sentence.
- **`Setting.WithoutFeed`**, `Setting.WithoutFeed.feed_notMem`: templates that bring none in.
- **`TemplateCommand.run_lines`**, and `exists_sentence_with_feed`: a sentence may take two lines.
-/

namespace Phrasing

open Text Grammar

/-! ## Lines and line feeds -/

namespace Text

/-- A line makes one line feed, besides its own. -/
theorem count_lines_cons (line : Text) (rest : List Text) :
    (lines (line :: rest)).count '\n' = line.count '\n' + 1 + (lines rest).count '\n' := by
  have hlines : lines (line :: rest) = line ++ '\n' :: lines rest := by simp [lines]
  rw [hlines, List.count_append, List.count_cons_self]
  omega

theorem length_le_count_lines (texts : List Text) : texts.length ≤ (lines texts).count '\n' := by
  induction texts with
  | nil => exact Nat.zero_le _
  | cons line rest ih =>
      rw [count_lines_cons, List.length_cons]
      omega

/-- **As many line feeds as lines**, exactly if no line has one of its own. -/
theorem count_lines_iff {texts : List Text} :
    (lines texts).count '\n' = texts.length ↔ ∀ line ∈ texts, '\n' ∉ line := by
  induction texts with
  | nil => exact ⟨fun _ _ h => absurd h List.not_mem_nil, fun _ => rfl⟩
  | cons line rest ih =>
      have hle := length_le_count_lines rest
      rw [List.forall_mem_cons, ← ih, ← List.count_eq_zero, count_lines_cons, List.length_cons]
      omega

/-- **Lines come back from what they make**, exactly if no line has a line feed of its own. -/
theorem pieces_lines_iff {texts : List Text} :
    pieces '\n' (lines texts) = texts ++ [[]] ↔ ∀ line ∈ texts, '\n' ∉ line := by
  refine ⟨fun h => ?_, pieces_lines⟩
  have hlength := congrArg List.length h
  rw [length_pieces, List.length_append, List.length_singleton] at hlength
  exact count_lines_iff.mp (Nat.add_right_cancel hlength)

end Text

/-! ## Line feeds in sentences -/

/-- **A line feed next to the tilde**: in the white space before it or behind it. What stands before and
    behind that has none. -/
def FeedAtTilde (s : Text) : Prop :=
  ∃ name gap skipped line, s = name ++ gap ++ '~' :: (skipped ++ line) ∧ '~' ∉ name ++ gap ∧
    (∀ c ∈ gap ++ skipped, isBlank c = true) ∧ '\n' ∉ name ∧ '\n' ∉ line ∧ '\n' ∈ gap ++ skipped

theorem FeedAtTilde.feed_mem {s : Text} (h : FeedAtTilde s) : '\n' ∈ s := by
  obtain ⟨name, gap, skipped, line, rfl, -, -, -, -, hfeed⟩ := h
  rcases List.mem_append.mp hfeed with hfeed | hfeed <;> simp [hfeed]

/-- **A line feed in a sentence** stands next to its tilde. -/
theorem feed_mem_iff_of_emit {s : Text} (h : (classify s).rule.disposition = .emit) :
    '\n' ∈ s ↔ FeedAtTilde s := by
  refine ⟨fun hfeed => ?_, FeedAtTilde.feed_mem⟩
  rcases literal_or_synonym_of_emit h with ⟨hrun, -⟩ | ⟨-, hline⟩
  -- literal text has none
  · exact absurd hfeed (notMem_of_isRun hrun (by decide) (by decide))
  · obtain ⟨name, gap, skipped, line, rfl, htilde, -, hname, hgap, hskipped, hline⟩ := hline
    have hfeedName : '\n' ∉ name := notMem_synonymName hname (by decide)
    refine ⟨name, gap, skipped, line, rfl, htilde, ?_, hfeedName, hline, ?_⟩
    · exact List.forall_mem_append.mpr ⟨hgap, hskipped⟩
    · simpa [hfeedName, hline] using hfeed

/-- A sentence whose tildes are all in slots is no synonym line, and so has no line feed. -/
theorem feed_notMem_of_sealed {s : Text} (h : (classify s).rule.disposition = .emit)
    (hs : Sealed s) : '\n' ∉ s := by
  rcases literal_or_synonym_of_emit h with ⟨hrun, -⟩ | ⟨-, hline⟩
  · exact notMem_of_isRun hrun (by decide) (by decide)
  · exact absurd hline (Nested.not_isSynonymLine_of_tildesInside hs.tildesInside)

namespace Setting

/-- **Templates that bring no line feed in**: there is none in the template and in the values, or no tilde
    outside slots. -/
def WithoutFeed (setting : Setting) (template : Text) : Prop :=
  ('\n' ∉ template ∧ ∀ entry ∈ setting.vars.entries, '\n' ∉ entry.2) ∨
    setting.StaysSealed template

variable {setting : Setting} {template : Text}

/-- No sentence of such a template has a line feed. -/
theorem WithoutFeed.feed_notMem (h : setting.WithoutFeed template) {s : Text}
    (hs : s ∈ (setting.yield template template 0).sentences) : '\n' ∉ s := by
  rcases h with ⟨htemplate, hvalues⟩ | hsealed
  · have hpassed : setting.Hereditary fun s => '\n' ∉ s :=
      hereditary_notMem hvalues (by decide) (by decide)
    exact (hpassed.of_mem_sentences htemplate 0 hs).1
  · obtain ⟨hstays, hemit⟩ := setting.hereditary_staysSealed.of_mem_sentences hsealed 0 hs
    exact feed_notMem_of_sealed hemit hstays.sealed

/-- Every sentence of a template falls under a rule for sentences. -/
theorem emit_of_mem_sentences {s : Text} (hs : s ∈ (setting.yield template template 0).sentences) :
    (classify s).rule.disposition = .emit :=
  (Hereditary.of_mem_sentences (P := fun _ => True) (fun _ _ _ _ => trivial) trivial 0 hs).2

end Setting

/-! ## The command for a template -/

namespace TemplateCommand

variable {command : TemplateCommand} {files : Files}

/-- A command that does not fail has gathered its variables and expanded its template. -/
theorem run_of_no_complaint (h : (command.run files).complaint = none) :
    ∃ vars, gatherVariables files command.assignments command.variablesPath = .ok vars ∧
      (Setting.yield ⟨vars, command.options⟩ command.template command.template 0).error = none ∧
      (command.run files).written = lines
        (Setting.yield ⟨vars, command.options⟩ command.template command.template 0).sentences := by
  unfold run at h ⊢
  cases hvars : gatherVariables files command.assignments command.variablesPath with
  | error complaint =>
      simp only [hvars] at h
      exact absurd h (by simp [Outcome.failed])
  | ok vars =>
      simp only [hvars, Setting.expand_eq_yield, Array.empty_append] at h ⊢
      refine ⟨vars, rfl, ?_⟩
      cases herror :
          (Setting.yield ⟨vars, command.options⟩ command.template command.template 0).error with
      | some error =>
          simp only [herror] at h
          exact absurd h (by simp [Outcome.failed])
      | none => exact ⟨rfl, rfl⟩

/-- **What a command writes.** It writes the sentences of its template, a line feed behind each. A
    sentence has a line feed of its own only next to its tilde. If none has, there are as many line feeds
    as sentences and the sentences come back from the lines, and only then. None has if the template and
    the values have no line feed, or no tilde outside slots. -/
theorem run_lines (command : TemplateCommand) (files : Files)
    (h : (command.run files).complaint = none) :
    ∃ vars sentences,
      gatherVariables files command.assignments command.variablesPath = .ok vars ∧
      (Setting.perform ⟨vars, command.options⟩ .attempt command.template #[]).result =
        .ok sentences.length ∧
      (Setting.perform ⟨vars, command.options⟩ .attempt command.template #[]).output =
        sentences.toArray ∧
      (command.run files).written = lines sentences ∧
      (∀ s ∈ sentences, '\n' ∈ s ↔ FeedAtTilde s) ∧
      ((command.run files).written.count '\n' = sentences.length ↔
        ∀ s ∈ sentences, ¬ FeedAtTilde s) ∧
      (pieces '\n' (command.run files).written = sentences ++ [[]] ↔
        ∀ s ∈ sentences, ¬ FeedAtTilde s) ∧
      (Setting.WithoutFeed ⟨vars, command.options⟩ command.template →
        ∀ s ∈ sentences, ¬ FeedAtTilde s) := by
  obtain ⟨vars, hvars, herror, hwritten⟩ := run_of_no_complaint h
  have hfeed : ∀ s ∈ (Setting.yield ⟨vars, command.options⟩ command.template
      command.template 0).sentences, '\n' ∈ s ↔ FeedAtTilde s :=
    fun s hs => feed_mem_iff_of_emit (Setting.emit_of_mem_sentences hs)
  have hnone : (∀ s ∈ (Setting.yield ⟨vars, command.options⟩ command.template
      command.template 0).sentences, '\n' ∉ s) ↔ ∀ s ∈ (Setting.yield ⟨vars, command.options⟩
        command.template command.template 0).sentences, ¬ FeedAtTilde s :=
    forall₂_congr fun s hs => not_congr (hfeed s hs)
  refine ⟨vars, _, hvars, ?_, ?_, hwritten, hfeed, ?_, ?_, ?_⟩
  · rw [Setting.result_attempt, Yield.result, herror]
  · rw [Setting.output_attempt, Array.empty_append]
  · rw [hwritten, ← hnone]
    exact count_lines_iff
  · rw [hwritten, ← hnone]
    exact pieces_lines_iff
  · intro hwithout
    exact hnone.mp fun s hs => hwithout.feed_notMem hs

/-- No files. -/
def noFiles : Files := fun _ => .error .notFound

/-- A value with a line feed in front of a tilde, and with brackets that close those around it. -/
def feedInValue : TemplateCommand :=
  { template := "$v".toList, assignments := ["v=a)\n~(b|c".toList], options := { depthLimit := 1 } }

/-- Its two sentences take four lines. -/
theorem run_lines_feedInValue :
    (feedInValue.run noFiles).complaint = none ∧
      (feedInValue.run noFiles).written = lines ["a\n~c".toList, "a\n~b".toList] ∧
      FeedAtTilde "a\n~c".toList ∧
      pieces '\n' (feedInValue.run noFiles).written ≠ ["a\n~c".toList, "a\n~b".toList] ++ [[]] := by
  have hcomplaint : (feedInValue.run noFiles).complaint = none := by decide +kernel
  have hwritten : (feedInValue.run noFiles).written = lines ["a\n~c".toList, "a\n~b".toList] := by
    decide +kernel
  have hvars' : gatherVariables noFiles feedInValue.assignments feedInValue.variablesPath =
      .ok (.ofPairs [("v".toList, "a)\n~(b|c".toList)]) := by decide +kernel
  have houtput' : (Setting.perform ⟨.ofPairs [("v".toList, "a)\n~(b|c".toList)],
      feedInValue.options⟩ .attempt feedInValue.template #[]).output =
      #["a\n~c".toList, "a\n~b".toList] := by decide +kernel
  obtain ⟨vars, sentences, hvars, -, houtput, -, hfeed, -, hpieces, -⟩ :=
    run_lines feedInValue noFiles hcomplaint
  obtain rfl := Except.ok.inj (hvars'.symm.trans hvars)
  obtain rfl : ["a\n~c".toList, "a\n~b".toList] = sentences :=
    congrArg Array.toList (houtput'.symm.trans houtput)
  have hfirst : FeedAtTilde "a\n~c".toList :=
    (hfeed _ List.mem_cons_self).mp (by decide)
  refine ⟨hcomplaint, hwritten, hfirst, fun hback => ?_⟩
  exact hpieces.mp hback _ List.mem_cons_self hfirst

/-- A template that is a sentence is written as it is. -/
theorem run_of_emit {template : Text} (h : (classify template).rule.disposition = .emit)
    (options : Options) :
    (({ template := template, options := options } : TemplateCommand).run noFiles).complaint = none ∧
      (({ template := template, options := options } : TemplateCommand).run noFiles).written =
        lines [template] ∧
      (Setting.perform ⟨.empty, options⟩ .attempt template #[]).result = .ok 1 := by
  have hyield := Setting.yield_of_emit ⟨.empty, options⟩ template h 0
  refine ⟨?_, ?_, by rw [Setting.result_attempt, hyield]; rfl⟩
  all_goals
    simp only [run, gatherVariables, fileVariables, Variables.assignAll, Setting.expand_eq_yield,
      hyield, Array.empty_append]

/-- A sentence does not always have a line of its own: white space around its tilde may be a line
    feed. -/
theorem exists_sentence_with_feed : ¬ ∀ (command : TemplateCommand) (files : Files) (vars : Variables)
    (count : Nat), (command.run files).complaint = none →
      gatherVariables files command.assignments command.variablesPath = .ok vars →
      (Setting.perform ⟨vars, command.options⟩ .attempt command.template #[]).result = .ok count →
      (command.run files).written.count '\n' = count := by
  intro h
  have hemit : (classify "cat\n~ x".toList).rule.disposition = .emit := by decide +kernel
  obtain ⟨hcomplaint, hwritten, hresult⟩ := run_of_emit hemit {}
  have hcount := h { template := "cat\n~ x".toList } noFiles .empty 1 hcomplaint rfl hresult
  rw [hwritten] at hcount
  exact absurd hcount (by decide)

end TemplateCommand

end Phrasing
