import Phrasing.Proofs.Grammar

/-!
# `Proofs.Precedence` — a text falls under the first rule that fits it

Each rule is described by the grammar alone: `Fits` says which texts it fits, `Locates` where the
construct of a classified text lies. `classify_first_fit` says that `classify` picks the first rule
that fits, in order of precedence, and finds the left-most construct of that rule.

## Contents
- **`Contains`**, **`FirstAt`**: parts of a text, and the left-most of them.
- **`Fits`**, **`Locates`**: the rules, told by the grammar.
- **One rule at a time.** `readReference?_eq_none_iff`, `readGroup?_eq_none_iff`,
  `isSynonymLine_iff`.
- **`classify_first_fit`**.
-/

namespace Phrasing.Grammar

open Text

/-! ## Parts of a text -/

/-- Whether the text, read from one of its places on, fits. -/
def Contains (fits : Text → Prop) (s : Text) : Prop := ∃ before rest, s = before ++ rest ∧ fits rest

/-- **The first place.** The text fits when read behind `before`, and from no place further left. -/
structure FirstAt (fits : Text → Prop) (s before rest : Text) : Prop where
  text : s = before ++ rest
  here : fits rest
  first : ∀ before' rest', s = before' ++ rest' → fits rest' → before.length ≤ before'.length

/-! ## The rules -/

/-- A dollar sign with the start of a name right behind it. -/
def StartsReference (t : Text) : Prop := ∃ c rest, t = '$' :: c :: rest ∧ IsNameStart c

/-- A bracket, a run of one unit or more, and the other bracket. -/
def StartsGroup (opening closing : Char) (t : Text) : Prop :=
  ∃ body rest, t = opening :: body ++ closing :: rest ∧ body ≠ [] ∧ IsRun true body

/-- **Synonyms.** Up to the first tilde there is a name of `[a-zA-Z0-9 _'-]` and white space; behind
    it and more white space there is no line feed. -/
def IsSynonymLine (s : Text) : Prop :=
  ∃ name gap skipped line, s = name ++ gap ++ '~' :: (skipped ++ line) ∧ '~' ∉ name ++ gap ∧
    name ≠ [] ∧ (∀ c ∈ name, IsPlain c ∨ c = '_') ∧ (∀ c ∈ gap, isBlank c = true) ∧
    (∀ c ∈ skipped, isBlank c = true) ∧ '\n' ∉ line

/-- Whether a rule fits a text, whatever other rules do. -/
def Fits : Rule → Text → Prop
  | .vanilla, s => IsRun false s ∧ s ≠ []
  | .reference, s => Contains StartsReference s
  | .round, s => Contains (StartsGroup '(' ')') s
  | .square, s => Contains (StartsGroup '[' ']') s
  | .bare, s => IsRun true s ∧ s ≠ []
  | .synonym, s => IsSynonymLine s
  | .unrecognized, _ => True

/-- None of the rules fits the text. -/
def NoneFits (rules : List Rule) (s : Text) : Prop := ∀ rule ∈ rules, ¬ Fits rule s

/-- **Where the construct lies.** A name is as long as it can be, a group is the left-most, and the
    other rules take the whole text. -/
def Locates (s : Text) (c : Classification) : Prop :=
  match c.rule with
  | .reference =>
      FirstAt StartsReference s c.before ('$' :: c.body ++ c.after) ∧ IsName c.body ∧
        ∀ d ∈ c.after.head?, ¬ IsNameRest d
  | .round =>
      FirstAt (StartsGroup '(' ')') s c.before ('(' :: c.body ++ ')' :: c.after) ∧ c.body ≠ [] ∧
        IsRun true c.body
  | .square =>
      FirstAt (StartsGroup '[' ']') s c.before ('[' :: c.body ++ ']' :: c.after) ∧ c.body ≠ [] ∧
        IsRun true c.body
  | _ => c.before = [] ∧ c.body = s ∧ c.after = []

/-! ## One rule at a time -/

theorem readReference?_eq_none_iff (t : Text) :
    readReference? t = none ↔ ¬ StartsReference t := by
  constructor
  · rintro h ⟨c, rest, rfl, hc⟩
    rw [readReference?, readName?, if_pos ((isNameStart_iff c).mpr hc)] at h
    exact absurd h (by simp)
  · intro h
    unfold readReference?
    split
    · rename_i s
      unfold readName?
      split
      · rfl
      · rename_i c cs
        rw [if_neg]
        intro hc
        exact h ⟨c, cs, rfl, (isNameStart_iff c).mp hc⟩
    · rfl

theorem readGroup?_eq_none_iff {opening closing : Char} (hbody : isBodyChar true closing = false)
    (hopen : closing ≠ '<') (t : Text) :
    readGroup? opening closing t = none ↔ ¬ StartsGroup opening closing t := by
  rw [Option.eq_none_iff_forall_ne_some]
  constructor
  · rintro h ⟨body, rest, htext⟩
    exact h (body, rest) ((readGroup?_eq_some_iff hbody hopen).mpr htext)
  · rintro h ⟨body, rest⟩ hread
    exact h ⟨body, rest, (readGroup?_eq_some_iff hbody hopen).mp hread⟩

/-- The search for a construct fails exactly where the text has none. -/
theorem findFirst_eq_none_iff_contains {read? : Text → Option (Text × Text)} {fits : Text → Prop}
    (hread : ∀ t, read? t = none ↔ ¬ fits t) (hnil : read? [] = none) (s : Text) :
    findFirst read? s = none ↔ ¬ Contains fits s := by
  rw [findFirst_eq_none_iff hnil]
  constructor
  · rintro h ⟨before, rest, hs, hfits⟩
    exact (hread rest).mp (h before rest hs) hfits
  · intro h before rest hs
    exact (hread rest).mpr fun hfits => h ⟨before, rest, hs, hfits⟩

/-- The search for a construct finds the left-most one. -/
theorem firstAt_of_findFirst {read? : Text → Option (Text × Text)} {fits : Text → Prop}
    (hread : ∀ t, read? t = none ↔ ¬ fits t) (hnil : read? [] = none) {s : Text}
    {occurrence : Occurrence} (h : findFirst read? s = some occurrence) :
    ∃ found, FirstAt fits s occurrence.before found ∧
      read? found = some (occurrence.body, occurrence.after) := by
  obtain ⟨found, hs, hfound, hfirst⟩ := (findFirst_eq_some_iff hnil).mp h
  refine ⟨found, ⟨hs, ?_, ?_⟩, hfound⟩
  · refine Classical.byContradiction fun hnot => ?_
    rw [(hread found).mpr hnot] at hfound
    exact absurd hfound (by simp)
  · intro before rest hrest hfits
    refine Nat.le_of_not_lt fun hlt => ?_
    exact (hread rest).mp (hfirst before rest hrest hlt) hfits

theorem isSynonymChar_iff (c : Char) : isSynonymChar c = true ↔ IsPlain c ∨ c = '_' := by
  simp only [isSynonymChar, Bool.or_eq_true, isPlain_iff, beq_iff_eq]

theorem isSynonymChar_tilde : isSynonymChar '~' = false := by decide

theorem isBlank_tilde : isBlank '~' = false := by decide

/-- The name of a synonym line has characters of such names only. -/
theorem notMem_synonymName {name : Text} (hname : ∀ c ∈ name, IsPlain c ∨ c = '_') {d : Char}
    (hd : isSynonymChar d = false) : d ∉ name := by
  intro hmem
  rw [(isSynonymChar_iff d).mpr (hname d hmem)] at hd
  exact absurd hd (by simp)

/-- Nor is anything else in front of its tilde, but white space. -/
theorem notMem_before_tilde {name gap : Text} (hname : ∀ c ∈ name, IsPlain c ∨ c = '_')
    (hgap : ∀ c ∈ gap, isBlank c = true) {d : Char} (hchar : isSynonymChar d = false)
    (hblank : isBlank d = false) : d ∉ name ++ gap := by
  rw [List.mem_append, not_or]
  refine ⟨notMem_synonymName hname hchar, fun hmem => ?_⟩
  rw [hgap d hmem] at hblank
  exact absurd hblank (by simp)

/-- Blanks in front of the tilde are skipped, even those that a name may contain. -/
theorem dropWhile_gap {gap rest : Text} (hgap : ∀ c ∈ gap, isBlank c = true) :
    ((gap ++ '~' :: rest).dropWhile isSynonymChar).dropWhile isBlank = '~' :: rest := by
  induction gap with
  | nil => simp [isSynonymChar_tilde, isBlank_tilde]
  | cons c gap ih =>
      have hblanks : ∀ d ∈ gap, isBlank d = true := fun d hd => hgap d (by simp [hd])
      by_cases hc : isSynonymChar c = true
      · rw [List.cons_append, List.dropWhile_cons_of_pos hc]
        exact ih hblanks
      · rw [List.cons_append, List.dropWhile_cons_of_neg hc, ← List.cons_append]
        exact (span_append hgap (by simp [isBlank_tilde])).2

theorem isSynonymLine_iff (s : Text) : isSynonymLine s = true ↔ IsSynonymLine s := by
  constructor
  · intro h
    unfold isSynonymLine at h
    split at h
    · rename_i rest hrest
      simp only [Bool.and_eq_true, Bool.not_eq_true', List.isEmpty_eq_false_iff,
        List.contains_eq_mem, decide_eq_false_iff_not] at h
      -- the scans cut the text in four, and neither of the first two takes a tilde
      have hname : ∀ c ∈ s.takeWhile isSynonymChar, isSynonymChar c = true :=
        fun c hc => List.mem_takeWhile_imp hc
      have hgap : ∀ c ∈ (s.dropWhile isSynonymChar).takeWhile isBlank, isBlank c = true :=
        fun c hc => List.mem_takeWhile_imp hc
      refine ⟨s.takeWhile isSynonymChar, (s.dropWhile isSynonymChar).takeWhile isBlank,
        rest.takeWhile isBlank, rest.dropWhile isBlank, ?_, ?_, h.1, ?_, hgap, ?_, h.2⟩
      · rw [List.takeWhile_append_dropWhile, ← hrest, List.append_assoc,
          List.takeWhile_append_dropWhile, List.takeWhile_append_dropWhile]
      · intro hmem
        rcases List.mem_append.mp hmem with hmem | hmem
        · exact absurd (hname _ hmem) (by simp [isSynonymChar_tilde])
        · exact absurd (hgap _ hmem) (by simp [isBlank_tilde])
      · exact fun c hc => (isSynonymChar_iff c).mp (hname c hc)
      · exact fun c hc => List.mem_takeWhile_imp hc
    · exact absurd h (by simp)
  · rintro ⟨name, gap, skipped, line, rfl, _, hne, hname, hgap, hskipped, hline⟩
    have hsyn : ∀ c ∈ name, isSynonymChar c = true :=
      fun c hc => (isSynonymChar_iff c).mpr (hname c hc)
    have hdrop : ((name ++ gap ++ '~' :: (skipped ++ line)).dropWhile isSynonymChar).dropWhile
        isBlank = '~' :: (skipped ++ line) := by
      rw [List.append_assoc, List.dropWhile_append_of_pos hsyn]
      exact dropWhile_gap hgap
    have hafter : (skipped ++ line).dropWhile isBlank = line.dropWhile isBlank :=
      List.dropWhile_append_of_pos hskipped
    have hfeed : '\n' ∉ line.dropWhile isBlank := fun hmem => hline (List.dropWhile_subset _ hmem)
    obtain ⟨c, cs, rfl⟩ := List.exists_cons_of_ne_nil hne
    unfold isSynonymLine
    rw [hdrop]
    simp only [hafter, List.cons_append, List.takeWhile_cons_of_pos (hsyn c (by simp))]
    simpa using hfeed

/-! ## The first rule that fits -/

theorem isBody_false_iff_fits (s : Text) : isBody false s = true ↔ Fits .vanilla s :=
  isBody_iff false s

theorem isBody_true_iff_fits (s : Text) : isBody true s = true ↔ Fits .bare s := isBody_iff true s

theorem findFirst_reference_eq_none_iff (s : Text) :
    findFirst readReference? s = none ↔ ¬ Fits .reference s :=
  findFirst_eq_none_iff_contains readReference?_eq_none_iff rfl s

theorem findFirst_round_eq_none_iff (s : Text) :
    findFirst (readGroup? '(' ')') s = none ↔ ¬ Fits .round s :=
  findFirst_eq_none_iff_contains (readGroup?_eq_none_iff (by decide) (by decide)) rfl s

theorem findFirst_square_eq_none_iff (s : Text) :
    findFirst (readGroup? '[' ']') s = none ↔ ¬ Fits .square s :=
  findFirst_eq_none_iff_contains (readGroup?_eq_none_iff (by decide) (by decide)) rfl s

/-- A search that found something found a rule that fits. -/
theorem fits_of_found {read? : Text → Option (Text × Text)} {rule : Rule} {s : Text}
    {occurrence : Occurrence} (hnone : findFirst read? s = none ↔ ¬ Fits rule s)
    (hfound : findFirst read? s = some occurrence) : Fits rule s := by
  refine Classical.byContradiction fun hnot => ?_
  rw [hnone.mpr hnot] at hfound
  exact absurd hfound (by simp)

theorem NoneFits.snoc {rules : List Rule} {rule : Rule} {s : Text} (h : NoneFits rules s)
    (hrule : ¬ Fits rule s) : NoneFits (rules ++ [rule]) s := by
  intro earlier hmem
  rcases List.mem_append.mp hmem with hmem | hmem
  · exact h earlier hmem
  · rw [List.mem_singleton.mp hmem]
    exact hrule

/-- A text fits the rule that it falls under, and no rule before it. -/
theorem fits_classify (s : Text) :
    Fits (classify s).rule s ∧ NoneFits (Rule.all.takeWhile (· ≠ (classify s).rule)) s := by
  -- every test that fails adds its rule to those which do not fit
  have hnone : NoneFits [] s := fun _ h => absurd h (by simp)
  unfold classify
  split
  · rename_i hvanilla
    exact ⟨(isBody_false_iff_fits s).mp hvanilla, hnone⟩
  · rename_i hvanilla
    have hnone := hnone.snoc (mt (isBody_false_iff_fits s).mpr hvanilla)
    split
    · rename_i hfound
      exact ⟨fits_of_found (findFirst_reference_eq_none_iff s) hfound, hnone⟩
    · rename_i hreference
      have hnone := hnone.snoc ((findFirst_reference_eq_none_iff s).mp hreference)
      split
      · rename_i hfound
        exact ⟨fits_of_found (findFirst_round_eq_none_iff s) hfound, hnone⟩
      · rename_i hround
        have hnone := hnone.snoc ((findFirst_round_eq_none_iff s).mp hround)
        split
        · rename_i hfound
          exact ⟨fits_of_found (findFirst_square_eq_none_iff s) hfound, hnone⟩
        · rename_i hsquare
          have hnone := hnone.snoc ((findFirst_square_eq_none_iff s).mp hsquare)
          split
          · rename_i hbare
            exact ⟨(isBody_true_iff_fits s).mp hbare, hnone⟩
          · rename_i hbare
            have hnone := hnone.snoc (mt (isBody_true_iff_fits s).mpr hbare)
            split
            · rename_i hsynonym
              exact ⟨(isSynonymLine_iff s).mp hsynonym, hnone⟩
            · rename_i hsynonym
              exact ⟨trivial, hnone.snoc (mt (isSynonymLine_iff s).mpr hsynonym)⟩

/-- Of two rules, one comes before the other. -/
theorem eq_or_mem_takeWhile (a b : Rule) :
    a = b ∨ a ∈ Rule.all.takeWhile (· ≠ b) ∨ b ∈ Rule.all.takeWhile (· ≠ a) := by
  cases a <;> cases b <;> decide

/-- The rule of a text is the first that fits. -/
theorem rule_classify_eq_iff (s : Text) (rule : Rule) :
    (classify s).rule = rule ↔
      Fits rule s ∧ NoneFits (Rule.all.takeWhile (· ≠ rule)) s := by
  obtain ⟨hfits, hnone⟩ := fits_classify s
  constructor
  · rintro rfl
    exact ⟨hfits, hnone⟩
  · rintro ⟨hrule, hearlier⟩
    rcases eq_or_mem_takeWhile (classify s).rule rule with h | h | h
    · exact h
    · exact absurd hfits (hearlier _ h)
    · exact absurd hrule (hnone _ h)

/-! ## Where the construct lies -/

/-- A group that the search finds is the left-most, and its body is a run. -/
theorem firstAt_of_findFirst_group {opening closing : Char}
    (hbody : isBodyChar true closing = false) (hopen : closing ≠ '<') {s : Text}
    {occurrence : Occurrence} (h : findFirst (readGroup? opening closing) s = some occurrence) :
    FirstAt (StartsGroup opening closing) s occurrence.before
        (opening :: occurrence.body ++ closing :: occurrence.after) ∧
      occurrence.body ≠ [] ∧ IsRun true occurrence.body := by
  obtain ⟨found, hat, hread⟩ :=
    firstAt_of_findFirst (readGroup?_eq_none_iff hbody hopen) rfl h
  obtain ⟨htext, hne, hrun⟩ := (readGroup?_eq_some_iff hbody hopen).mp hread
  rw [htext] at hat
  exact ⟨hat, hne, hrun⟩

/-- A classified text has its construct where the grammar says. -/
theorem locates_classify (s : Text) : Locates s (classify s) := by
  unfold classify
  split
  · exact ⟨rfl, rfl, rfl⟩
  · split
    · rename_i occurrence hfound
      obtain ⟨found, hat, hread⟩ := firstAt_of_findFirst readReference?_eq_none_iff rfl hfound
      have htext := readReference?_eq_some hread
      unfold readReference? at hread
      split at hread
      · obtain ⟨-, hname, hstop⟩ := readName?_eq_some_iff.mp hread
        exact ⟨htext ▸ hat, hname, hstop⟩
      · exact absurd hread (by simp)
    · split
      · rename_i occurrence hfound
        exact firstAt_of_findFirst_group (by decide) (by decide) hfound
      · split
        · rename_i occurrence hfound
          exact firstAt_of_findFirst_group (by decide) (by decide) hfound
        · split
          · exact ⟨rfl, rfl, rfl⟩
          · split <;> exact ⟨rfl, rfl, rfl⟩

/-- A text that falls under the rule for variables has a dollar sign and a name in the place of its
    construct. -/
theorem text_of_reference {s : Text} (h : (classify s).rule = .reference) :
    s = (classify s).before ++ '$' :: (classify s).body ++ (classify s).after ∧
      IsName (classify s).body := by
  have htext := text_classify s
  have hlocates := locates_classify s
  unfold Classification.text Classification.construct at htext
  unfold Locates at hlocates
  rw [h] at htext hlocates
  exact ⟨htext.symm, hlocates.2.1⟩

theorem dollar_mem_of_reference {s : Text} (h : (classify s).rule = .reference) : '$' ∈ s := by
  rw [(text_of_reference h).1]
  simp

/-- The byte range of a construct runs from where it starts to just behind it. -/
theorem cutAt?_start_stop (s : Text) :
    cutAt? s (classify s).start =
        some ((classify s).before, (classify s).construct ++ (classify s).after) ∧
      cutAt? s (classify s).stop =
        some ((classify s).before ++ (classify s).construct, (classify s).after) := by
  have htext := text_classify s
  rw [Classification.text] at htext
  constructor
  · refine cutAt?_eq_some_iff.mpr ⟨?_, rfl⟩
    rw [← List.append_assoc]
    exact htext.symm
  · exact cutAt?_eq_some_iff.mpr ⟨htext.symm, byteSize_append _ _⟩

/-- **The grammar of templates.** A text falls under a rule exactly if that rule fits and none before
    it does; the construct is the left-most of its kind, and the byte range is the construct's. -/
theorem classify_first_fit (s : Text) :
    (∀ rule, (classify s).rule = rule ↔
      Fits rule s ∧ NoneFits (Rule.all.takeWhile (· ≠ rule)) s) ∧
    Locates s (classify s) ∧
    cutAt? s (classify s).start =
      some ((classify s).before, (classify s).construct ++ (classify s).after) ∧
    cutAt? s (classify s).stop =
      some ((classify s).before ++ (classify s).construct, (classify s).after) :=
  ⟨rule_classify_eq_iff s, locates_classify s, cutAt?_start_stop s⟩

end Phrasing.Grammar
