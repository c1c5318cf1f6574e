import Phrasing.Corpus.Report
import Phrasing.Proofs.Corpora

/-!
# `Proofs.Reports` — the text report of a corpus can be read back

A text report has no quotes and no escapes. It can be read nevertheless, since a sentence is never empty,
does not begin with a hash and has no line feed that was not in the corpus. So empty lines stand between
intents, lines with a hash are headings, and all other lines are sentences. The names of intents may be
anything without a line feed.

## Contents
- **`reportLines`**: the lines of a report; `textReport_eq_lines`.
- **`readReport`**: intents read from a report, and `readLines_reportLines`, which reads one line by
  line.
- **`IsSentenceLine`**, `isSentenceLine_of_emit`: what sentences look like in a report.
- **`Corpus.WithoutLineFeeds`**, `Corpus.isLegible_of_expand`: the corpora that can be read back.
- **`Corpus.textReport_decodable`**.
-/

namespace Phrasing

open Text Grammar

/-! ## Lines of a report -/

namespace ExpandedIntent

/-- The lines of an intent: a heading, and its sentences. -/
def reportLines (intent : ExpandedIntent) : List Text :=
  ('#' :: ' ' :: intent.name) :: intent.sentences

/-- What a report tells of an intent. -/
def reported (intent : ExpandedIntent) : Text × List Text := (intent.name, intent.sentences)

end ExpandedIntent

/-- **The lines of a report**: those of its intents, with an empty line between each and the next. -/
def reportLines : List ExpandedIntent → List Text
  | [] => []
  | intent :: rest => intent.reportLines ++ rest.flatMap fun next => [] :: next.reportLines

theorem textReport_eq_lines (intents : List ExpandedIntent) :
    textReport intents = lines (reportLines intents) := by
  cases intents with
  | nil => rfl
  | cons intent rest =>
      have hrest : (rest.flatMap fun next => '\n' :: next.textReport) =
          lines (rest.flatMap fun next => [] :: next.reportLines) := by
        unfold lines
        rw [List.flatMap_assoc]
        rfl
      rw [textReport, reportLines, hrest]
      unfold lines
      rw [List.flatMap_append]
      rfl

/-! ## Reading a report -/

/-- **Reads lines**: the sentences in front of the first heading, and the intents from there on. A line
    that begins with a hash is a heading, and the name is behind its first two characters. Empty lines
    are passed over. -/
def readLines : List Text → List Text × List (Text × List Text)
  | [] => ([], [])
  | line :: rest =>
      let later := readLines rest
      if line = [] then later
      else if line.head? = some '#' then ([], (line.drop 2, later.1) :: later.2)
      else (line :: later.1, later.2)

/-- **Reads a report**: the names of the intents and their sentences, in order. -/
def readReport (report : Text) : List (Text × List Text) := (readLines (pieces '\n' report)).2

/-- **A line that reads as a sentence.** -/
structure IsSentenceLine (line : Text) : Prop where
  feed_notMem : '\n' ∉ line
  ne_nil : line ≠ []
  head_ne_hash : line.head? ≠ some '#'

/-- **An intent that can be read back.** Any name without a line feed will do. -/
structure ExpandedIntent.IsLegible (intent : ExpandedIntent) : Prop where
  name : '\n' ∉ intent.name
  sentences : ∀ sentence ∈ intent.sentences, IsSentenceLine sentence

theorem readLines_empty (rest : List Text) : readLines ([] :: rest) = readLines rest := by
  rw [readLines]
  exact if_pos rfl

theorem readLines_heading (name : Text) (rest : List Text) :
    readLines (('#' :: ' ' :: name) :: rest) =
      ([], (name, (readLines rest).1) :: (readLines rest).2) := by
  rw [readLines]
  exact (if_neg (List.cons_ne_nil _ _)).trans (if_pos rfl)

theorem readLines_sentence {line : Text} (h : IsSentenceLine line) (rest : List Text) :
    readLines (line :: rest) = (line :: (readLines rest).1, (readLines rest).2) := by
  rw [readLines]
  exact (if_neg h.ne_nil).trans (if_neg h.head_ne_hash)

theorem readLines_sentences {sentences : List Text} (h : ∀ line ∈ sentences, IsSentenceLine line)
    (rest : List Text) :
    readLines (sentences ++ rest) = (sentences ++ (readLines rest).1, (readLines rest).2) := by
  induction sentences with
  | nil => rfl
  | cons line lines ih =>
      rw [List.forall_mem_cons] at h
      rw [List.cons_append, readLines_sentence h.1, ih h.2]
      rfl

/-- An intent is read from its lines, if there are no sentences left over behind them. -/
theorem readLines_intent {intent : ExpandedIntent} (h : intent.IsLegible) {rest : List Text}
    {intents : List (Text × List Text)} (hrest : readLines rest = ([], intents)) :
    readLines (intent.reportLines ++ rest) = ([], intent.reported :: intents) := by
  rw [ExpandedIntent.reportLines, List.cons_append, readLines_heading,
    readLines_sentences h.sentences, hrest, List.append_nil]
  rfl

/-- Later intents are read from their lines, and nothing is left over in front of them. -/
theorem readLines_later {intents : List ExpandedIntent} (h : ∀ intent ∈ intents, intent.IsLegible) :
    readLines ((intents.flatMap fun next => [] :: next.reportLines) ++ [[]]) =
      ([], intents.map ExpandedIntent.reported) := by
  induction intents with
  | nil => exact readLines_empty []
  | cons intent rest ih =>
      rw [List.forall_mem_cons] at h
      rw [List.flatMap_cons, List.cons_append, List.cons_append, readLines_empty, List.append_assoc]
      exact readLines_intent h.1 (ih h.2)

/-- **What is written is read.** -/
theorem readLines_reportLines {intents : List ExpandedIntent}
    (h : ∀ intent ∈ intents, intent.IsLegible) :
    readLines (reportLines intents ++ [[]]) = ([], intents.map ExpandedIntent.reported) := by
  cases intents with
  | nil => exact readLines_empty []
  | cons intent rest =>
      rw [List.forall_mem_cons] at h
      rw [reportLines, List.append_assoc]
      exact readLines_intent h.1 (readLines_later h.2)

/-- The lines of intents that can be read back have no line feeds. -/
theorem feed_notMem_reportLines {intents : List ExpandedIntent}
    (h : ∀ intent ∈ intents, intent.IsLegible) : ∀ line ∈ reportLines intents, '\n' ∉ line := by
  have hintent : ∀ intent ∈ intents, ∀ line ∈ intent.reportLines, '\n' ∉ line := by
    intro intent hmem line hline
    rcases List.mem_cons.mp hline with rfl | hline
    · have hname := (h intent hmem).name
      simpa using hname
    · exact ((h intent hmem).sentences line hline).feed_notMem
  cases intents with
  | nil => exact fun line hline => absurd hline List.not_mem_nil
  | cons intent rest =>
      rw [List.forall_mem_cons] at hintent
      intro line hline
      rcases List.mem_append.mp hline with hline | hline
      · exact hintent.1 line hline
      · obtain ⟨next, hnext, hline⟩ := List.mem_flatMap.mp hline
        rcases List.mem_cons.mp hline with rfl | hline
        · exact List.not_mem_nil
        · exact hintent.2 next hnext line hline

theorem pieces_textReport {intents : List ExpandedIntent}
    (h : ∀ intent ∈ intents, intent.IsLegible) :
    pieces '\n' (textReport intents) = reportLines intents ++ [[]] := by
  rw [textReport_eq_lines, pieces_lines (feed_notMem_reportLines h)]

theorem readReport_textReport {intents : List ExpandedIntent}
    (h : ∀ intent ∈ intents, intent.IsLegible) :
    readReport (textReport intents) = intents.map ExpandedIntent.reported := by
  rw [readReport, pieces_textReport h, readLines_reportLines h]

/-! ## Corpora that can be read back -/

/-- **A sentence reads as one**, if it has no line feed. -/
theorem isSentenceLine_of_emit {s : Text} (hemit : (classify s).rule.disposition = .emit)
    (hfeed : '\n' ∉ s) : IsSentenceLine s where
  feed_notMem := hfeed
  ne_nil := (finished_of_emit hemit).ne_nil
  head_ne_hash := by
    intro hhead
    rcases literal_or_synonym_of_emit hemit with ⟨hrun, -⟩ | ⟨-, hline⟩
    · exact notMem_of_isRun hrun (by decide) (by decide) (List.mem_of_mem_head? hhead)
    · -- a synonym line begins with a character of its name
      obtain ⟨name, gap, skipped, line, rfl, -, hname, hchars, -⟩ := hline
      obtain ⟨c, cs, rfl⟩ := List.exists_cons_of_ne_nil hname
      have hhash : c = '#' := Option.some.inj hhead
      exact notMem_synonymName hchars (d := '#') (by decide) (hhash ▸ List.mem_cons_self)

/-- **No line feed** is in the names of intents, in templates or in the values of variables. -/
structure Corpus.WithoutLineFeeds (corpus : Corpus) : Prop where
  names : ∀ intent ∈ corpus.intents, '\n' ∉ intent.name
  templates : ∀ intent ∈ corpus.intents, ∀ template ∈ intent.utterances, '\n' ∉ template
  values : ∀ entry ∈ corpus.vars.entries, '\n' ∉ entry.2

namespace Corpus

/-- A corpus without line feeds expands to intents that can be read back. -/
theorem isLegible_of_expand {corpus : Corpus} {options : Options} {expanded : List ExpandedIntent}
    (hcorpus : corpus.WithoutLineFeeds) (hexpanded : (corpus.expand options).result = .ok expanded) :
    ∀ intent ∈ expanded, intent.IsLegible := by
  have hresult := (tells_expandIntents ⟨corpus.vars, options⟩ corpus.intents).result
  rw [expand, hresult, Yield.orError] at hexpanded
  split at hexpanded
  · exact absurd hexpanded (by simp)
  · rw [← Except.ok.inj hexpanded]
    intro intent hintent
    obtain ⟨source, hsource, rfl⟩ := List.mem_map.mp hintent
    refine ⟨hcorpus.names source hsource, ?_⟩
    intro sentence hsentence
    obtain ⟨y, hy, hsentence⟩ := Yield.exists_of_mem_inTurn hsentence
    obtain ⟨template, htemplate, rfl⟩ := List.mem_map.mp hy
    have hfeed : '\n' ∉ template := hcorpus.templates source hsource template htemplate
    have hpassed : (⟨corpus.vars, options⟩ : Setting).Hereditary fun s => '\n' ∉ s :=
      Setting.hereditary_notMem hcorpus.values (by decide) (by decide)
    obtain ⟨hfeed, hemit⟩ := hpassed.of_mem_sentences hfeed 0 hsentence
    exact isSentenceLine_of_emit hemit hfeed

/-- **A text report can be read back.** Its lines are those of the intents, a heading and the sentences
    of each, with one empty line between each and the next; and the names and sentences can be read from
    them. So corpora with the same report have the same intents, with the same sentences. -/
theorem textReport_decodable {corpus : Corpus} {options : Options} {expanded : List ExpandedIntent}
    (hcorpus : corpus.WithoutLineFeeds) (hexpanded : (corpus.expand options).result = .ok expanded) :
    (∀ intent ∈ expanded, intent.IsLegible) ∧
    pieces '\n' (Layout.text.render expanded) = reportLines expanded ++ [[]] ∧
    readReport (Layout.text.render expanded) = expanded.map ExpandedIntent.reported ∧
    ∀ (other : Corpus) (otherOptions : Options) (others : List ExpandedIntent),
      other.WithoutLineFeeds → (other.expand otherOptions).result = .ok others →
      Layout.text.render others = Layout.text.render expanded →
        others.map ExpandedIntent.reported = expanded.map ExpandedIntent.reported := by
  have hlegible := isLegible_of_expand hcorpus hexpanded
  refine ⟨hlegible, pieces_textReport hlegible, readReport_textReport hlegible, ?_⟩
  intro other otherOptions others hother hothers hsame
  calc others.map ExpandedIntent.reported
      = readReport (Layout.text.render others) :=
        (readReport_textReport (isLegible_of_expand hother hothers)).symm
    _ = readReport (Layout.text.render expanded) := congrArg readReport hsame
    _ = expanded.map ExpandedIntent.reported := readReport_textReport hlegible

/-- Two intents, the first of them with a heading in its name, the second without a name. -/
def namedLikeHeading : Corpus where
  vars := .ofPairs [("a".toList, "x|y".toList)]
  intents :=
    [⟨"# a".toList, ["size".toList], ["<size> $a".toList, "n~ (k".toList]⟩, ⟨[], [], ["[c]".toList]⟩]

/-- What it expands to. -/
def namedLikeHeadingExpanded : List ExpandedIntent :=
  [⟨"# a".toList, ["<size> y".toList, "<size> x".toList, "n~ (k".toList], []⟩, ⟨[], ["c".toList], []⟩]

/-- The same sentences without variables and groups, and without the slot. -/
def spelledOut : Corpus where
  vars := .empty
  intents :=
    [⟨"# a".toList, [], ["<size> y".toList, "<size> x".toList, "n~ (k".toList]⟩,
      ⟨[], [], ["c".toList]⟩]

/-- What it expands to. -/
def spelledOutExpanded : List ExpandedIntent :=
  [⟨"# a".toList, ["<size> y".toList, "<size> x".toList, "n~ (k".toList],
      [⟨⟨"size".toList, none⟩, "<size> y".toList⟩, ⟨⟨"size".toList, none⟩, "<size> x".toList⟩]⟩,
    ⟨[], ["c".toList], []⟩]

/-- Corpora that differ in their templates and in their slots, with the same report and the same
    sentences. -/
theorem textReport_decodable_spelledOut :
    (namedLikeHeading.expand { depthLimit := 1 }).result = .ok namedLikeHeadingExpanded ∧
      (spelledOut.expand { depthLimit := 0, undefined := .strict }).result = .ok spelledOutExpanded ∧
      readReport (Layout.text.render namedLikeHeadingExpanded) =
        [("# a".toList, ["<size> y".toList, "<size> x".toList, "n~ (k".toList]), ([], ["c".toList])] ∧
      spelledOutExpanded.map ExpandedIntent.reported =
        namedLikeHeadingExpanded.map ExpandedIntent.reported := by
  have hfirst : (namedLikeHeading.expand { depthLimit := 1 }).result = .ok namedLikeHeadingExpanded := by
    decide +kernel
  have hsecond : (spelledOut.expand { depthLimit := 0, undefined := .strict }).result =
      .ok spelledOutExpanded := by decide +kernel
  have hclean : namedLikeHeading.WithoutLineFeeds :=
    ⟨by decide +kernel, by decide +kernel, by decide +kernel⟩
  have hcleanToo : spelledOut.WithoutLineFeeds :=
    ⟨by decide +kernel, by decide +kernel, by decide +kernel⟩
  obtain ⟨-, -, hread, hsame⟩ := textReport_decodable hclean hfirst
  exact ⟨hfirst, hsecond, hread, hsame spelledOut _ _ hcleanToo hsecond (by decide +kernel)⟩

end Corpus

end Phrasing
