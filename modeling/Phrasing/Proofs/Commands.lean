import Mathlib.Algebra.Ring.Nat
import Phrasing.Command
import Phrasing.Proofs.Assignments
import Phrasing.Proofs.Corpora

/-!
# `Proofs.Commands` — commands write all of their result, or nothing

A command passes through stages, and each of them may fail: nothing is written before the last has
passed. The stages of the command for a corpus come in a fixed order, so of several faults the one of
the earliest stage is reported; what was told up to then is told completely.

## Contents
- **The first that fails.** `Variables.assignAll_eq_error_iff`, `Corpus.result_expand_eq_error_iff`
  and `Files.loadCorpus_eq_error_iff` say of each stage how it fails.
- **`CorpusCommand.Loads`**, **`CorpusCommand.Fails`**: a corpus loaded, and the failures in order.
- **`CorpusCommand.run_cases`**: how the command for a corpus ends. `complaint_eq_some_iff`: a
  complaint is the first failure.
- **Notices.** `filter_undefinedSlot`: the notices about undefined slots among all others.
- **`Command.run_allOrNothing`**.
-/

namespace Phrasing

open Text

/-! ## The first that fails -/

/-- The first element that fails is the same however the list is cut. -/
theorem eq_of_first {α : Type} {P : α → Prop} {xs ys later other : List α} {x y : α}
    (h : xs ++ x :: later = ys ++ y :: other) (hxs : ∀ a ∈ xs, P a) (hx : ¬ P x)
    (hys : ∀ a ∈ ys, P a) (hy : ¬ P y) : x = y := by
  rcases List.append_eq_append_iff.mp h with ⟨k, rfl, hk⟩ | ⟨k, rfl, hk⟩
  · cases k with
    | nil => exact (List.cons.inj hk).1
    | cons a k =>
        obtain ⟨rfl, -⟩ := List.cons.inj hk
        exact absurd (hys x (by simp)) hx
  · cases k with
    | nil => exact (List.cons.inj hk).1.symm
    | cons a k =>
        obtain ⟨rfl, -⟩ := List.cons.inj hk
        exact absurd (hxs y (by simp)) hy

/-- Assignments fail with the first that is none. -/
theorem Variables.assignAll_eq_error_iff {vars : Variables} {assignments : List Text}
    {failure : Failure} :
    vars.assignAll assignments = .error failure ↔
      ∃ earlier s later, assignments = earlier ++ s :: later ∧
        (∀ other ∈ earlier, IsAssignment other) ∧ ¬ IsAssignment s ∧
        failure = .invalidAssignment s := by
  rcases vars.assignAll_cases assignments with
    ⟨hall, table, htable⟩ | ⟨earlier, s, later, rfl, hearlier, hs, hrefused⟩
  · rw [htable]
    refine ⟨fun h => absurd h (by simp), ?_⟩
    rintro ⟨earlier, s, later, rfl, -, hs, -⟩
    exact absurd (hall s (by simp)) hs
  · rw [hrefused, Except.error.injEq]
    constructor
    · rintro rfl
      exact ⟨earlier, s, later, rfl, hearlier, hs, rfl⟩
    · rintro ⟨earlier', s', later', htext, hearlier', hs', rfl⟩
      rw [eq_of_first htext hearlier hs hearlier' hs']

/-- A corpus fails to expand with the first template that does. -/
theorem Corpus.result_expand_eq_error_iff {corpus : Corpus} {options : Options}
    {error : ExpansionError} :
    (corpus.expand options).result = .error error ↔
      ∃ earlier template later,
        corpus.intents.flatMap Intent.utterances = earlier ++ template :: later ∧
        (∀ other ∈ earlier, Setting.Succeeds ⟨corpus.vars, options⟩ other) ∧
        (Setting.alone ⟨corpus.vars, options⟩ template).result = .error error := by
  have hfails : ∀ {template : Text} {error : ExpansionError},
      (Setting.alone ⟨corpus.vars, options⟩ template).result = .error error →
      ¬ Setting.Succeeds ⟨corpus.vars, options⟩ template := by
    rintro template error herror ⟨count, hcount⟩
    rw [herror] at hcount
    exact absurd hcount (by simp)
  rw [expand, (tells_expandIntents _ _).result, Yield.orError]
  rcases Setting.templatesYield_cases ⟨corpus.vars, options⟩
    (corpus.intents.flatMap Intent.utterances) with
    ⟨hall, hyield⟩ | ⟨earlier, template, later, first, htemplates, hearlier, hfirst, -, hyield⟩
  · rw [hyield]
    refine ⟨fun h => absurd h (by simp), ?_⟩
    rintro ⟨earlier, template, later, htemplates, -, herror⟩
    exact absurd (hall template (by simp [htemplates])) (hfails herror)
  · simp only [hyield, Except.error.injEq]
    constructor
    · rintro rfl
      exact ⟨earlier, template, later, htemplates, hearlier, hfirst⟩
    · rintro ⟨earlier', template', later', htemplates', hearlier', herror⟩
      have hsame : template = template' :=
        eq_of_first (htemplates.symm.trans htemplates') hearlier (hfails hfirst) hearlier'
          (hfails herror)
      rw [hsame, herror, Except.error.injEq] at hfirst
      exact hfirst.symm

/-- An expanded corpus has as many intents as the corpus. -/
theorem Corpus.length_of_expand_eq_ok {corpus : Corpus} {options : Options}
    {expanded : List ExpandedIntent} (h : (corpus.expand options).result = .ok expanded) :
    expanded.length = corpus.intents.length := by
  rw [expand, (tells_expandIntents _ _).result, Yield.orError] at h
  split at h
  · exact absurd h (by simp)
  · rw [Except.ok.injEq] at h
    rw [← h, List.length_map]

/-! ## Loading -/

/-- **Why a corpus is not loaded**: the extension of its path is none of a corpus, whatever is there;
    or the file cannot be read; or what it holds is no corpus. -/
inductive Files.LoadFails (files : Files) (path : Text) : Failure → Prop
  | unsupported : (∀ extension ∈ Path.extension? path,
        extension ∉ ["yaml".toList, "yml".toList, "json".toList]) →
      Files.LoadFails files path (.unsupportedFormat path)
  | unreadable {format : Format} {fault : FileFault} : Format.ofCorpusPath? path = some format →
      files.read path = .error fault → Files.LoadFails files path (.unreadable fault)
  | malformed {format : Format} {source : Text} : Format.ofCorpusPath? path = some format →
      files.read path = .ok source →
      readDocument? format source >>= Decoder.run? decodeCorpus = none →
      Files.LoadFails files path (.malformed format)

theorem Format.ofCorpusPath?_eq_none_iff {path : Text} :
    Format.ofCorpusPath? path = none ↔ ∀ extension ∈ Path.extension? path,
      extension ∉ ["yaml".toList, "yml".toList, "json".toList] := by
  unfold Format.ofCorpusPath?
  cases Path.extension? path with
  | none => simp
  | some extension =>
      simp only [Option.mem_some, forall_eq', List.mem_cons, List.not_mem_nil, or_false, not_or]
      split
      · rename_i hyaml
        refine ⟨fun h => absurd h (by simp), ?_⟩
        rintro ⟨h, h', -⟩
        exact absurd hyaml (by simp only [h, h', or_self, not_false_eq_true])
      · rename_i hyaml
        rw [not_or] at hyaml
        split
        · rename_i hjson
          exact ⟨fun h => absurd h (by simp), fun h => absurd hjson h.2.2⟩
        · rename_i hjson
          exact ⟨fun _ => ⟨hyaml.1, hyaml.2, hjson⟩, fun _ => rfl⟩

theorem Files.loadCorpus_eq_error_iff {files : Files} {path : Text} {failure : Failure} :
    files.loadCorpus path = .error failure ↔ files.LoadFails path failure := by
  constructor
  · intro h
    unfold loadCorpus at h
    split at h
    · rename_i format hformat
      unfold load at h
      split at h
      · rename_i source hread
        unfold readCorpus readAs at h
        split at h
        · exact absurd h (by simp)
        · rename_i hnone
          rw [Except.error.injEq] at h
          exact h ▸ .malformed hformat hread hnone
      · rename_i fault hread
        rw [Except.error.injEq] at h
        exact h ▸ .unreadable hformat hread
    · rename_i hformat
      rw [Except.error.injEq] at h
      exact h ▸ .unsupported (Format.ofCorpusPath?_eq_none_iff.mp hformat)
  · intro h
    cases h with
    | unsupported hextension =>
        rw [loadCorpus, Format.ofCorpusPath?_eq_none_iff.mpr hextension]
    | unreadable hformat hread =>
        rw [loadCorpus, hformat]
        simp only [load, hread]
    | malformed hformat hread hnone =>
        rw [loadCorpus, hformat]
        simp only [load, hread, readCorpus, readAs, hnone]

/-! ## The stages of the command for a corpus -/

/-- How often slots are mentioned that are not defined. -/
def undefinedCount (expanded : List ExpandedIntent) : Nat :=
  (expanded.map fun intent => intent.undefinedSlots.length).sum

namespace CorpusCommand

/-- **The corpus of a command is loaded**: there is something at its path, all assignments are carried
    out, and the corpus of the file has their variables over its own. -/
structure Loads (command : CorpusCommand) (files : Files) (corpus : Corpus) : Prop where
  present : files.has command.input = true
  loaded : ∃ overrides written, Variables.empty.assignAll command.assignments = .ok overrides ∧
    files.loadCorpus command.input = .ok written ∧ corpus = written.withVariables overrides

/-- **The failures of a command, in order.** Each is there only if none before it is. -/
inductive Fails (command : CorpusCommand) (files : Files) : Complaint → Prop
  | missing : files.has command.input = false → Fails command files (.missingInput command.input)
  | assignment {earlier later : List Text} {s : Text} : files.has command.input = true →
      command.assignments = earlier ++ s :: later → (∀ other ∈ earlier, IsAssignment other) →
      ¬ IsAssignment s → Fails command files (.notAssigned (.invalidAssignment s))
  | load {failure : Failure} : files.has command.input = true →
      (∀ s ∈ command.assignments, IsAssignment s) → files.LoadFails command.input failure →
      Fails command files (.corpusNotLoaded command.input failure)
  | expansion {corpus : Corpus} {earlier later : List Text} {template : Text}
      {error : ExpansionError} : command.Loads files corpus →
      corpus.intents.flatMap Intent.utterances = earlier ++ template :: later →
      (∀ other ∈ earlier, Setting.Succeeds ⟨corpus.vars, command.options⟩ other) →
      (Setting.alone ⟨corpus.vars, command.options⟩ template).result = .error error →
      Fails command files (.corpusNotExpanded command.input error)
  | slots {corpus : Corpus} {expanded : List ExpandedIntent} : command.Loads files corpus →
      (corpus.expand command.options).result = .ok expanded → command.denyUndefinedSlots = true →
      0 < undefinedCount expanded → Fails command files (.undefinedSlots (undefinedCount expanded))

variable {command : CorpusCommand} {files : Files}

theorem length_undefinedSlotNotices (expanded : List ExpandedIntent) :
    (undefinedSlotNotices expanded).length = undefinedCount expanded := by
  simp [undefinedSlotNotices, undefinedCount, List.length_flatMap]

/-- A report fails only for undefined slots, and only if they are denied. -/
theorem report_cases (command : CorpusCommand) (notices : List Notice)
    (expanded : List ExpandedIntent) :
    (command.denyUndefinedSlots = true ∧ 0 < undefinedCount expanded ∧
      command.report notices expanded =
        .failed (notices ++ undefinedSlotNotices expanded)
          (.undefinedSlots (undefinedCount expanded))) ∨
    (¬ (command.denyUndefinedSlots = true ∧ 0 < undefinedCount expanded) ∧
      command.report notices expanded =
        ⟨command.layout.render expanded,
          notices ++ undefinedSlotNotices expanded ++
            [.corpusExpanded expanded.length (sentenceCount expanded)], none⟩) := by
  have hempty : (undefinedSlotNotices expanded).isEmpty = false ↔ 0 < undefinedCount expanded := by
    rw [← length_undefinedSlotNotices, List.isEmpty_eq_false_iff, List.length_pos_iff]
  unfold report
  by_cases h : command.denyUndefinedSlots = true ∧ 0 < undefinedCount expanded
  · refine Or.inl ⟨h.1, h.2, ?_⟩
    rw [← length_undefinedSlotNotices]
    simp [h.1, hempty.mpr h.2]
  · refine Or.inr ⟨h, if_neg ?_⟩
    rw [Bool.and_eq_true, Bool.not_eq_true', hempty]
    exact h

theorem run_of_missing (h : files.has command.input = false) :
    command.run files = .failed [] (.missingInput command.input) := by
  rw [run, h]
  rfl

theorem run_of_not_assigned (hpresent : files.has command.input = true) {failure : Failure}
    (h : Variables.empty.assignAll command.assignments = .error failure) :
    command.run files = .failed [] (.notAssigned failure) := by
  rw [run, if_pos hpresent, gatherVariables, fileVariables]
  simp only [h]

theorem run_of_not_loaded (hpresent : files.has command.input = true) {overrides : Variables}
    (hassigned : Variables.empty.assignAll command.assignments = .ok overrides) {failure : Failure}
    (h : files.loadCorpus command.input = .error failure) :
    command.run files = .failed [] (.corpusNotLoaded command.input failure) := by
  rw [run, if_pos hpresent, gatherVariables, fileVariables]
  simp only [hassigned, h]

/-- A corpus that was loaded and does not expand is the end of the command. -/
theorem run_of_failed {corpus : Corpus} {error : ExpansionError} (h : command.Loads files corpus)
    (hresult : (corpus.expand command.options).result = .error error) :
    ∃ loaded : Corpus, command.run files =
      .failed (loaded.loadedNotice command.input :: (corpus.expand command.options).notices)
        (.corpusNotExpanded command.input error) := by
  obtain ⟨hpresent, overrides, written, hassigned, hloaded, rfl⟩ := h
  refine ⟨written, ?_⟩
  rw [run, if_pos hpresent, gatherVariables, fileVariables]
  simp only [hassigned, hloaded, hresult]

/-- A corpus that was loaded and expands is reported. -/
theorem run_of_expanded {corpus : Corpus} {expanded : List ExpandedIntent}
    (h : command.Loads files corpus)
    (hresult : (corpus.expand command.options).result = .ok expanded) :
    ∃ loaded : Corpus, command.run files =
      command.report
        (loaded.loadedNotice command.input :: (corpus.expand command.options).notices) expanded := by
  obtain ⟨hpresent, overrides, written, hassigned, hloaded, rfl⟩ := h
  refine ⟨written, ?_⟩
  rw [run, if_pos hpresent, gatherVariables, fileVariables]
  simp only [hassigned, hloaded, hresult]

/-- A stage before the expansion fails, or the corpus is loaded. -/
theorem fails_or_loads (command : CorpusCommand) (files : Files) :
    (∃ complaint, command.Fails files complaint ∧ command.run files = .failed [] complaint) ∨
      ∃ corpus, command.Loads files corpus := by
  cases hpresent : files.has command.input with
  | false => exact Or.inl ⟨_, .missing hpresent, run_of_missing hpresent⟩
  | true =>
      rcases Variables.empty.assignAll_cases command.assignments with
        ⟨hall, overrides, hassigned⟩ | ⟨earlier, s, later, htext, hearlier, hs, hrefused⟩
      · cases hloaded : files.loadCorpus command.input with
        | error failure =>
            have hfails := Files.loadCorpus_eq_error_iff.mp hloaded
            exact Or.inl ⟨_, .load hpresent hall hfails, run_of_not_loaded hpresent hassigned hloaded⟩
        | ok written => exact Or.inr ⟨_, hpresent, overrides, written, hassigned, hloaded, rfl⟩
      · exact Or.inl ⟨_, .assignment hpresent htext hearlier hs, run_of_not_assigned hpresent hrefused⟩

/-- **How a command ends.** It fails with the first of its failures, and nothing is written; or its
    corpus is loaded and expanded, and then all of the report is written and told of last. -/
theorem run_cases (command : CorpusCommand) (files : Files) :
    (∃ complaint told, command.Fails files complaint ∧ command.run files = .failed told complaint) ∨
      ∃ corpus expanded told, command.Loads files corpus ∧
        (corpus.expand command.options).result = .ok expanded ∧
        command.run files = ⟨command.layout.render expanded,
          told ++ [.corpusExpanded expanded.length (sentenceCount expanded)], none⟩ := by
  rcases command.fails_or_loads files with ⟨complaint, hfails, hrun⟩ | ⟨corpus, hloads⟩
  · exact Or.inl ⟨complaint, [], hfails, hrun⟩
  · cases hresult : (corpus.expand command.options).result with
    | error error =>
        obtain ⟨loaded, hrun⟩ := run_of_failed hloads hresult
        obtain ⟨earlier, template, later, htemplates, hearlier, herror⟩ :=
          Corpus.result_expand_eq_error_iff.mp hresult
        exact Or.inl ⟨_, _, .expansion hloads htemplates hearlier herror, hrun⟩
    | ok expanded =>
        obtain ⟨loaded, hrun⟩ := run_of_expanded hloads hresult
        rcases command.report_cases _ expanded with ⟨hdeny, hcount, hreport⟩ | ⟨-, hreport⟩
        · exact Or.inl ⟨_, _, .slots hloads hresult hdeny hcount, hrun.trans hreport⟩
        · exact Or.inr ⟨corpus, expanded, _, hloads, hresult, hrun.trans hreport⟩

/-- **A complaint is the first failure.** -/
theorem complaint_eq_some_iff {complaint : Complaint} :
    (command.run files).complaint = some complaint ↔ command.Fails files complaint := by
  constructor
  · intro h
    rcases command.run_cases files with
      ⟨first, told, hfails, hrun⟩ | ⟨corpus, expanded, told, -, -, hrun⟩
    · rw [hrun, Outcome.failed, Option.some.injEq] at h
      exact h ▸ hfails
    · rw [hrun] at h
      exact absurd h (by simp)
  · intro h
    cases h with
    | missing hpresent => rw [run_of_missing hpresent, Outcome.failed]
    | @assignment earlier later s hpresent htext hearlier hs =>
        have hrefused : Variables.empty.assignAll command.assignments =
            .error (.invalidAssignment s) :=
          Variables.assignAll_eq_error_iff.mpr ⟨earlier, s, later, htext, hearlier, hs, rfl⟩
        rw [run_of_not_assigned hpresent hrefused, Outcome.failed]
    | load hpresent hall hfails =>
        rcases Variables.empty.assignAll_cases command.assignments with
          ⟨-, overrides, hassigned⟩ | ⟨earlier, s, later, htext, -, hs, -⟩
        · rw [run_of_not_loaded hpresent hassigned (Files.loadCorpus_eq_error_iff.mpr hfails),
            Outcome.failed]
        · exact absurd (hall s (by simp [htext])) hs
    | expansion hloads htemplates hearlier herror =>
        have hresult := Corpus.result_expand_eq_error_iff.mpr
          ⟨_, _, _, htemplates, hearlier, herror⟩
        obtain ⟨loaded, hrun⟩ := run_of_failed hloads hresult
        rw [hrun, Outcome.failed]
    | slots hloads hresult hdeny hcount =>
        obtain ⟨loaded, hrun⟩ := run_of_expanded hloads hresult
        rcases command.report_cases
          (loaded.loadedNotice command.input :: _) _ with ⟨-, -, hreport⟩ | ⟨hnot, -⟩
        · rw [hrun, hreport, Outcome.failed]
        · exact absurd ⟨hdeny, hcount⟩ hnot

/-! ## What is told and written -/

/-- The notices on the way to an expanded corpus are about its templates. -/
theorem message_ne_of_mem_expandTemplates {setting : Setting} {intent : Text} {output : Array Text}
    {templates : List Text} {notice : Notice}
    (h : notice ∈ (setting.expandTemplates intent output templates).notices) :
    notice.message ≠ "Undefined slot referenced" := by
  have hevents : ∀ {events : List Event}, notice ∈ events.map Notice.expansion →
      notice.message ≠ "Undefined slot referenced" := by
    intro events hmem
    obtain ⟨event, -, rfl⟩ := List.mem_map.mp hmem
    cases event <;> simp [Notice.message]
  induction templates generalizing output with
  | nil => exact absurd h List.not_mem_nil
  | cons template rest ih =>
      unfold Setting.expandTemplates at h
      simp only at h
      split at h
      · exact hevents h
      · rcases List.mem_append.mp h with h | h
        · exact hevents h
        · rcases List.mem_cons.mp h with rfl | h
          · simp [Notice.message]
          · exact ih h

theorem message_ne_of_mem_expandIntents {setting : Setting} {intents : List Intent}
    {notice : Notice} (h : notice ∈ (expandIntents setting intents).notices) :
    notice.message ≠ "Undefined slot referenced" := by
  have hintent : ∀ {intent : Intent}, notice ∈ (intent.expand setting).notices →
      notice.message ≠ "Undefined slot referenced" := by
    intro intent hmem
    unfold Intent.expand at hmem
    simp only at hmem
    split at hmem <;> exact message_ne_of_mem_expandTemplates hmem
  induction intents with
  | nil => exact absurd h List.not_mem_nil
  | cons intent rest ih =>
      unfold expandIntents at h
      simp only at h
      split at h
      · exact hintent h
      · rcases List.mem_append.mp h with h | h
        · exact hintent h
        · exact ih h

/-- **The notices about undefined slots** stand in one piece behind all others, but the last. -/
theorem filter_undefinedSlot {corpus : Corpus} {expanded : List ExpandedIntent}
    (h : command.Loads files corpus)
    (hexpanded : (corpus.expand command.options).result = .ok expanded) :
    (command.run files).notices.filter (·.message = "Undefined slot referenced") =
      undefinedSlotNotices expanded := by
  obtain ⟨loaded, hrun⟩ := run_of_expanded h hexpanded
  have hbefore : (loaded.loadedNotice command.input :: (corpus.expand command.options).notices).filter
      (·.message = "Undefined slot referenced") = [] := by
    rw [List.filter_eq_nil_iff]
    intro notice hnotice
    rw [decide_eq_true_eq]
    rcases List.mem_cons.mp hnotice with rfl | hnotice
    · simp [Corpus.loadedNotice, Notice.message]
    · exact message_ne_of_mem_expandIntents hnotice
  have hthese : (undefinedSlotNotices expanded).filter (·.message = "Undefined slot referenced") =
      undefinedSlotNotices expanded := by
    rw [List.filter_eq_self]
    intro notice hnotice
    obtain ⟨intent, -, hnotice⟩ := List.mem_flatMap.mp hnotice
    obtain ⟨found, -, rfl⟩ := List.mem_map.mp hnotice
    rfl
  rcases command.report_cases (loaded.loadedNotice command.input :: _) expanded with
    ⟨-, -, hreport⟩ | ⟨-, hreport⟩
  · rw [hrun, hreport, Outcome.failed, List.filter_append, hbefore, hthese, List.nil_append]
  · rw [hrun, hreport, List.filter_append, List.filter_append, hbefore, hthese, List.nil_append]
    exact List.append_nil _

end CorpusCommand

/-- Expanding a template writes nothing if it fails. -/
theorem TemplateCommand.written_of_complaint {command : TemplateCommand} {files : Files}
    (h : (command.run files).complaint ≠ none) : (command.run files).written = [] := by
  unfold run at h ⊢
  cases hvars : gatherVariables files command.assignments command.variablesPath with
  | error complaint => rfl
  | ok vars =>
      simp only [hvars] at h ⊢
      cases herror : (Setting.expand ⟨vars, command.options⟩ command.template #[]).error with
      | some error => rfl
      | none =>
          simp only [herror] at h
          exact absurd rfl h

/-- Expanding a corpus writes nothing if it fails. -/
theorem CorpusCommand.written_of_complaint {command : CorpusCommand} {files : Files}
    (h : (command.run files).complaint ≠ none) : (command.run files).written = [] := by
  rcases command.run_cases files with
    ⟨complaint, told, -, hrun⟩ | ⟨corpus, expanded, told, -, -, hrun⟩
  · rw [hrun, Outcome.failed]
  · rw [hrun] at h
    exact absurd rfl h

/-- **Commands write all of their result, or nothing.** A command that fails has written nothing. The
    command for a corpus fails exactly with the first of its failures in order; when the corpus was
    expanded, one notice is told for each undefined slot, intent by intent, whether it fails then or
    not; and when it does not fail, all of the report is written, and the last notice tells the number
    of intents and the number of their sentences. -/
theorem Command.run_allOrNothing (files : Files) :
    (∀ command : Command, (command.run files).complaint ≠ none →
      (command.run files).written = []) ∧
    ∀ command : CorpusCommand,
      (∀ complaint, (command.run files).complaint = some complaint ↔
        command.Fails files complaint) ∧
      (∀ corpus expanded, command.Loads files corpus →
        (corpus.expand command.options).result = .ok expanded →
        (command.run files).notices.filter (·.message = "Undefined slot referenced") =
          (expanded.flatMap fun intent => intent.undefinedSlots.map fun found =>
            .undefinedSlot intent.name found.slot.name found.sentence) ∧
        ((command.run files).notices.filter
          (·.message = "Undefined slot referenced")).length = undefinedCount expanded) ∧
      ((command.run files).complaint = none →
        ∃ corpus expanded told, command.Loads files corpus ∧
          (corpus.expand command.options).result = .ok expanded ∧
          (command.run files).written = command.layout.render expanded ∧
          (command.run files).notices = told ++ [.corpusExpanded corpus.intents.length
            (expanded.map fun intent => intent.sentences.length).sum]) := by
  refine ⟨?_, ?_⟩
  · intro command h
    cases command with
    | template command => exact command.written_of_complaint h
    | corpus command => exact command.written_of_complaint h
  · intro command
    refine ⟨fun complaint => CorpusCommand.complaint_eq_some_iff, ?_, ?_⟩
    · intro corpus expanded hloads hexpanded
      have hfilter := CorpusCommand.filter_undefinedSlot hloads hexpanded
      exact ⟨hfilter, by rw [hfilter, CorpusCommand.length_undefinedSlotNotices]⟩
    · intro h
      rcases command.run_cases files with
        ⟨complaint, told, -, hrun⟩ | ⟨corpus, expanded, told, hloads, hexpanded, hrun⟩
      · rw [hrun, Outcome.failed] at h
        exact absurd h (by simp)
      · have hintents : expanded.length = corpus.intents.length :=
          Corpus.length_of_expand_eq_ok hexpanded
        have hsentences : sentenceCount expanded =
            (expanded.map fun intent => intent.sentences.length).sum := by
          rw [sentenceCount, List.length_flatMap]
        rw [hintents, hsentences] at hrun
        exact ⟨corpus, expanded, told, hloads, hexpanded, by rw [hrun], by rw [hrun]⟩

/-- A corpus of one intent, whose only template is a slot that it does not define. -/
def loneSlot : Corpus := ⟨.empty, [⟨"a".toList, [], ["<x>".toList]⟩]⟩

/-- A file with this corpus, and nothing else. -/
def loneSlotFile : Files := fun path =>
  if path = "c.json".toList then
    .ok (.file "\x7b\"intents\":[\x7b\"name\":\"a\",\"utterances\":[\"<x>\"]\x7d]\x7d".toUTF8)
  else .error .notFound

/-- The command to expand it, with or without undefined slots. -/
def expandLoneSlot (deny : Bool) : CorpusCommand :=
  { input := "c.json".toList, options := { depthLimit := 0 }, denyUndefinedSlots := deny }

/-- The undefined slot is told of in any case; where it is denied, nothing is written, and where it
    is not, the last notice tells of one intent and its sentences. -/
theorem Command.run_allOrNothing_loneSlot :
    ((expandLoneSlot true).run loneSlotFile).written = [] ∧
      (expandLoneSlot true).Fails loneSlotFile (.undefinedSlots 1) ∧
      (∀ deny, ((expandLoneSlot deny).run loneSlotFile).notices.filter
          (·.message = "Undefined slot referenced") =
        [.undefinedSlot "a".toList "x".toList "<x>".toList]) ∧
      ∃ (corpus : Corpus) (expanded : List ExpandedIntent) (told : List Notice),
        (expandLoneSlot false).Loads loneSlotFile corpus ∧
        ((expandLoneSlot false).run loneSlotFile).notices = told ++ [.corpusExpanded
          corpus.intents.length (expanded.map fun intent => intent.sentences.length).sum] := by
  obtain ⟨hwritten, hcorpus⟩ := Command.run_allOrNothing loneSlotFile
  have hdenied : ((expandLoneSlot true).run loneSlotFile).complaint = some (.undefinedSlots 1) := by
    decide +kernel
  have hallowed : ((expandLoneSlot false).run loneSlotFile).complaint = none := by decide +kernel
  have hloaded : loneSlotFile.loadCorpus "c.json".toList = .ok loneSlot := by decide +kernel
  have hexpanded : (loneSlot.expand { depthLimit := 0 }).result =
      .ok [⟨"a".toList, ["<x>".toList], [⟨⟨"x".toList, none⟩, "<x>".toList⟩]⟩] := by decide +kernel
  have hpresent : loneSlotFile.has "c.json".toList = true := by decide +kernel
  have hloads : ∀ deny, (expandLoneSlot deny).Loads loneSlotFile loneSlot := by
    intro deny
    exact ⟨hpresent, .empty, loneSlot, rfl, hloaded, rfl⟩
  refine ⟨hwritten (.corpus (expandLoneSlot true)) ?_, ((hcorpus _).1 _).mp hdenied, ?_, ?_⟩
  · show ((expandLoneSlot true).run loneSlotFile).complaint ≠ none
    rw [hdenied]
    simp
  · intro deny
    exact ((hcorpus (expandLoneSlot deny)).2.1 loneSlot _ (hloads deny) hexpanded).1
  · obtain ⟨corpus, expanded, told, hcorpusLoads, -, -, hnotices⟩ :=
      (hcorpus (expandLoneSlot false)).2.2 hallowed
    exact ⟨corpus, expanded, told, hcorpusLoads, hnotices⟩

end Phrasing
