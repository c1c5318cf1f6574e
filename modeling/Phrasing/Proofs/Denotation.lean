import Phrasing.Proofs.Holes
import Phrasing.Proofs.Recursion

/-!
# `Proofs.Denotation` — an expansion computes what its template denotes

A template without variables is expanded group by group, each time the text alone deciding which.
`Choice.reads` says what a step does to the tree behind the text: it is a sentence, or there is
nothing to say, or it gives way to trees that denote together what it denotes. From there the theorem
is an induction on the length of the text.

## Contents
- **`Choice.Reads`**, **`Choice.reads`**: the step on the tree.
- **`Yield.Within`**, **`Yield.Covers`**: nothing but sentences of a language, and all of them.
- **`yield_within`**, **`yield_covers`**: the two inductions.
- **`perform_attempt_denotation`**.
-/

namespace Phrasing

/-! ## The step on a tree -/

namespace Nested

open Text Grammar

/-- The rule that resolves groups of a kind. -/
def Bracket.rule : Bracket → Rule
  | .round => .round
  | .square => .square

/-- Only four rules are left for the text of a tree. -/
theorem classify_text (c : Choice) :
    classify c.text =
      if isBody false c.text then .whole .vanilla c.text
      else
        match Bracket.find? .round c.text with
        | some occurrence => ⟨occurrence, .round⟩
        | none =>
            match Bracket.find? .square c.text with
            | some occurrence => ⟨occurrence, .square⟩
            | none =>
                if isBody true c.text then .whole .bare c.text
                else .whole .unrecognized c.text := by
  rw [classify, findFirst_reference_text, isSynonymLine_text]
  rfl

theorem Choice.find?_eq_ready? (bracket : Bracket) (c : Choice) :
    bracket.find? c.text =
      (c.ready? bracket).map fun found => ⟨found.1.before, found.2.text, found.1.after⟩ := by
  have hfind := c.find?_text bracket []
  rw [List.append_nil] at hfind
  rw [hfind]
  cases c.ready? bracket with
  | some found =>
      show some _ = some _
      rw [List.append_nil]
  | none => rfl

/-- **What a step makes of a tree.** -/
inductive Choice.Reads (c : Choice) : Prop
  /-- The tree is a single sentence. -/
  | sentence : (classify c.text).rule = .vanilla → c.text ≠ [] →
      (∀ w, w ∈ c.language ↔ w = c.text) → Reads c
  /-- The tree is dropped. If it is guarded, it denotes nothing but the empty text. -/
  | dropped : (classify c.text).rule = .unrecognized →
      (c.Guarded → ∀ w ∈ c.language, w = []) → Reads c
  /-- The tree gives way to others, which denote together what it denotes. -/
  | resolved (trees : List Choice) : (classify c.text).rule.IsChoice →
      (classify c.text).choices = trees.map Choice.text →
      (∀ w, w ∈ c.language ↔ ∃ tree ∈ trees, w ∈ tree.language) →
      (c.Guarded → ∀ tree ∈ trees, tree.Guarded) → Reads c

/-- The choices of a text with a group are the texts with the group resolved. -/
theorem choices_of_group {bracket : Bracket} {hole : Choice.Hole} {body : Choice}
    (hflat : body.isFlat = true) :
    (Classification.mk ⟨hole.before, body.text, hole.after⟩ bracket.rule).choices =
      ((bracket.choices body).map hole.plug).map Choice.text := by
  have hfill : ∀ sequences : List Sequence,
      (sequences.map Sequence.text).map
          (Classification.mk ⟨hole.before, body.text, hole.after⟩ bracket.rule).fill =
        (sequences.map hole.plug).map Choice.text := by
    intro sequences
    rw [List.map_map, List.map_map]
    refine List.map_congr_left fun q _ => ?_
    exact (hole.text_plug q).symm
  have hpieces : pieces '|' body.text = body.sequences.map Sequence.text := body.pieces_text hflat
  cases bracket with
  | round =>
      show (pieces '|' body.text).map _ = _
      rw [hpieces]
      exact hfill body.sequences
  | square =>
      show (pieces '|' body.text).map _ ++ [hole.before ++ [] ++ hole.after] = _
      rw [hpieces]
      have hlast : hole.before ++ [] ++ hole.after = (hole.plug .nil).text :=
        (hole.text_plug .nil).symm
      rw [hlast, Bracket.choices, List.map_append, List.map_append]
      exact congrArg (· ++ [(hole.plug .nil).text]) (hfill body.sequences)

/-- A tree whose next group is found in its text gives way to the tree with the group resolved. -/
theorem Choice.reads_of_ready {bracket : Bracket} {c : Choice} {found : Choice.Hole × Choice}
    (hfound : c.ready? bracket = some found)
    (hclassify : classify c.text =
      ⟨⟨found.1.before, found.2.text, found.1.after⟩, bracket.rule⟩) : c.Reads := by
  obtain ⟨hole, body⟩ := found
  obtain ⟨hplug, hready⟩ := c.plug_of_ready? bracket (hole, body) hfound
  have hflat : body.isFlat = true := (body.isReady_iff.mp hready).1
  have hgroup := bracket.mem_language_group body
  refine .resolved ((bracket.choices body).map hole.plug) ?_ ?_ ?_ ?_
  · rw [hclassify]
    cases bracket with
    | round => exact Or.inl rfl
    | square => exact Or.inr (Or.inl rfl)
  · rw [hclassify]
    exact choices_of_group hflat
  · intro w
    have hlanguage := hole.mem_language_plug (bracket.choices_ne_nil body) hgroup w
    rw [hplug] at hlanguage
    rw [hlanguage]
    simp
  · intro hguarded tree htree
    obtain ⟨q, hq, rfl⟩ := List.mem_map.mp htree
    rw [← hplug] at hguarded
    exact hole.guarded_plug (fun w hw => (hgroup w).mpr ⟨q, hq, hw⟩)
      (Bracket.guarded_of_mem_choices hflat hq) hguarded

/-- A flat tree that is no sentence is empty or a choice between sentences. -/
theorem Choice.reads_of_flat {c : Choice} (hflat : c.isFlat = true)
    (hvanilla : isBody false c.text ≠ true)
    (hclassify : classify c.text =
      if isBody true c.text then .whole .bare c.text else .whole .unrecognized c.text) :
    c.Reads := by
  by_cases hne : c.text = []
  · have hbody : isBody true c.text ≠ true := fun h => (c.isBody_true_text.mp h).2 hne
    rw [if_neg hbody] at hclassify
    refine .dropped (by rw [hclassify]; rfl) ?_
    intro _ w hw
    cases c with
    | one only =>
        have htext : only.text = [] := hne
        rw [Choice.language, only.language_of_isFlat hflat, htext, mem_single] at hw
        exact hw
    | bar first rest => exact absurd hne (by simp [Choice.text])
  · have hbody : isBody true c.text = true := c.isBody_true_text.mpr ⟨hflat, hne⟩
    rw [if_pos hbody] at hclassify
    refine .resolved (c.sequences.map .one) ?_ ?_ ?_ ?_
    · rw [hclassify]
      exact Or.inr (Or.inr rfl)
    · rw [hclassify]
      show (pieces '|' c.text).map _ = _
      rw [c.pieces_text hflat, List.map_map, List.map_map]
      refine List.map_congr_left fun q _ => ?_
      show [] ++ q.text ++ [] = q.text
      rw [List.nil_append, List.append_nil]
    · intro w
      rw [c.mem_language w]
      simp [Choice.language]
    · intro hguarded tree htree
      obtain ⟨q, hq, rfl⟩ := List.mem_map.mp htree
      exact c.guarded_iff.mp hguarded q hq

/-- **The step on a tree.** No branch is lost, and none is read as something else. -/
theorem Choice.reads (c : Choice) : c.Reads := by
  have hclassify := classify_text c
  by_cases hvanilla : isBody false c.text = true
  · rw [if_pos hvanilla] at hclassify
    obtain ⟨s, rfl, hflat, hne⟩ := c.isBody_false_text.mp hvanilla
    refine .sentence (by rw [hclassify]; rfl) hne ?_
    intro w
    rw [Choice.language, s.language_of_isFlat hflat, mem_single]
    exact Iff.rfl
  · rw [if_neg hvanilla, c.find?_eq_ready?, c.find?_eq_ready?] at hclassify
    cases hround : c.ready? .round with
    | some found =>
        rw [hround] at hclassify
        exact Choice.reads_of_ready hround hclassify
    | none =>
        cases hsquare : c.ready? .square with
        | some found =>
            rw [hround, hsquare] at hclassify
            exact Choice.reads_of_ready hsquare hclassify
        | none =>
            rw [hround, hsquare] at hclassify
            cases hflat : c.isFlat with
            | true => exact Choice.reads_of_flat hflat hvanilla hclassify
            | false =>
                -- there are groups and none is next: the tree was not guarded
                have hbody : isBody true c.text ≠ true := by
                  rw [ne_eq, c.isBody_true_text, hflat]
                  simp
                have hdropped : classify c.text = .whole .unrecognized c.text :=
                  hclassify.trans (if_neg hbody)
                refine .dropped (by rw [hdropped]; rfl) ?_
                intro hguarded
                have hguardedFlat := c.isFlat_of_guarded hguarded fun bracket => by
                  cases bracket with
                  | round => exact hround
                  | square => exact hsquare
                rw [hflat] at hguardedFlat
                exact absurd hguardedFlat (by simp)

end Nested

/-! ## What the text of a tree yields -/

namespace Yield

/-- **Nothing but sentences of the language**, none of them empty, and no error. -/
structure Within (y : Yield) (language : Language Char) : Prop where
  no_error : y.error = none
  sentences : ∀ s ∈ y.sentences, s ≠ [] ∧ s ∈ language

/-- **All sentences of the language** that are not empty. -/
def Covers (y : Yield) (language : Language Char) : Prop :=
  ∀ s ∈ language, s ≠ [] → s ∈ y.sentences

end Yield

namespace Setting

open Nested

variable (setting : Setting) (template : Text) (depth : Nat)

/-- The yields of the trees that a tree gives way to, in turn. -/
theorem yield_of_resolved {c : Choice} {trees : List Choice}
    (hrule : (classify c.text).rule.IsChoice)
    (hchoices : (classify c.text).choices = trees.map Choice.text) :
    setting.yield template c.text depth =
      (Yield.inTurn (trees.reverse.map fun tree =>
        setting.yield template tree.text depth)).behind
        [.varied (classify c.text).rule c.text trees.length] := by
  rw [yield_of_isChoice hrule, hchoices, List.length_map, ← List.map_reverse, List.map_map]
  rfl

/-- If none of the trees that a tree gives way to ends in an error, its sentences are theirs. -/
theorem mem_sentences_of_resolved {c : Choice} {trees : List Choice}
    (hrule : (classify c.text).rule.IsChoice)
    (hchoices : (classify c.text).choices = trees.map Choice.text)
    (hnoError : ∀ tree ∈ trees, (setting.yield template tree.text depth).error = none) :
    (setting.yield template c.text depth).error = none ∧
      ∀ s, s ∈ (setting.yield template c.text depth).sentences ↔
        ∃ tree ∈ trees, s ∈ (setting.yield template tree.text depth).sentences := by
  have hyields : ∀ y ∈ trees.reverse.map fun tree => setting.yield template tree.text depth,
      y.error = none := by
    intro y hy
    obtain ⟨tree, htree, rfl⟩ := List.mem_map.mp hy
    exact hnoError tree (List.mem_reverse.mp htree)
  obtain ⟨herror, hsentences⟩ := Yield.inTurn_of_no_error hyields
  rw [yield_of_resolved setting template depth hrule hchoices]
  refine ⟨herror, fun s => ?_⟩
  show s ∈ (Yield.inTurn _).sentences ↔ _
  rw [hsentences, List.mem_flatMap]
  simp

/-- The trees that a tree gives way to have shorter texts. -/
theorem length_lt_of_resolved {c : Choice} {trees : List Choice}
    (hchoices : (classify c.text).choices = trees.map Choice.text) :
    ∀ tree ∈ trees, tree.text.length < c.text.length := by
  intro tree htree
  refine length_lt_of_mem_choices ?_
  rw [hchoices]
  exact List.mem_map_of_mem htree

/-- **The text of a tree yields nothing but what the tree denotes.** -/
theorem yield_within (c : Choice) :
    (setting.yield template c.text depth).Within c.language := by
  -- on the length of the text: the trees that a tree gives way to have shorter texts
  induction hlength : c.text.length using Nat.strongRecOn generalizing c with
  | ind n ih =>
      subst hlength
      cases c.reads with
      | sentence hrule hne hlanguage =>
          rw [yield_of_vanilla hrule]
          refine ⟨rfl, fun s hs => ?_⟩
          rw [List.mem_singleton.mp hs]
          exact ⟨hne, (hlanguage c.text).mpr rfl⟩
      | dropped hrule _ =>
          rw [yield_of_unrecognized hrule]
          exact ⟨rfl, fun s hs => absurd hs List.not_mem_nil⟩
      | resolved trees hrule hchoices hlanguage _ =>
          have hwithin : ∀ tree ∈ trees,
              (setting.yield template tree.text depth).Within tree.language := fun tree htree =>
            ih tree.text.length (length_lt_of_resolved hchoices tree htree) tree rfl
          obtain ⟨herror, hsentences⟩ := mem_sentences_of_resolved setting template depth hrule
            hchoices fun tree htree => (hwithin tree htree).no_error
          refine ⟨herror, fun s hs => ?_⟩
          obtain ⟨tree, htree, hstree⟩ := (hsentences s).mp hs
          obtain ⟨hne, hmem⟩ := (hwithin tree htree).sentences s hstree
          exact ⟨hne, (hlanguage s).mpr ⟨tree, htree, hmem⟩⟩

/-- **The text of a guarded tree yields all that the tree denotes**, but for the empty text. -/
theorem yield_covers (c : Choice) (hguarded : c.Guarded) :
    (setting.yield template c.text depth).Covers c.language := by
  induction hlength : c.text.length using Nat.strongRecOn generalizing c with
  | ind n ih =>
      subst hlength
      intro s hs hne
      cases c.reads with
      | sentence hrule _ hlanguage =>
          rw [yield_of_vanilla hrule, (hlanguage s).mp hs]
          exact List.mem_singleton_self c.text
      | dropped hrule hempty => exact absurd (hempty hguarded s hs) hne
      | resolved trees hrule hchoices hlanguage hguards =>
          obtain ⟨_, hsentences⟩ := mem_sentences_of_resolved setting template depth hrule
            hchoices fun tree _ => (yield_within setting template depth tree).no_error
          obtain ⟨tree, htree, hmem⟩ := (hlanguage s).mp hs
          have hstree : s ∈ (setting.yield template tree.text depth).sentences :=
            ih tree.text.length (length_lt_of_resolved hchoices tree htree) tree
              (hguards hguarded tree htree) rfl s hmem hne
          exact (hsentences s).mpr ⟨tree, htree, hstree⟩

end Setting

/-! ## Expansions -/

namespace Setting

open Nested Grammar

/-- **An expansion computes what its template denotes.** It succeeds, whatever the variables and the
    options, and every new sentence is a text that the template denotes, and not empty. Where the
    template is guarded, there is a sentence for each such text. -/
theorem perform_attempt_denotation (setting : Setting) (c : Choice) (output : Array Text) :
    ∃ produced : List Text,
      (setting.perform .attempt c.text output).result = .ok produced.length ∧
      (setting.perform .attempt c.text output).output = output ++ produced.toArray ∧
      (∀ s ∈ produced, s ≠ [] ∧ s ∈ c.language) ∧
      (c.Guarded → ∀ s, s ∈ produced ↔ s ∈ c.language ∧ s ≠ []) := by
  have hwithin := yield_within setting c.text 0 c
  have hexpand := expand_eq_yield setting c.text output
  rw [hwithin.no_error] at hexpand
  refine ⟨(setting.yield c.text c.text 0).sentences, ?_, ?_, hwithin.sentences, ?_⟩
  · simp only [perform, hexpand, Run.result]
    simp
  · simp only [perform, hexpand]
  · intro hguarded s
    constructor
    · intro hs
      exact (hwithin.sentences s hs).symm
    · rintro ⟨hs, hne⟩
      exact yield_covers setting c.text 0 c hguarded s hs hne

/-- The tree of a plain character and what follows it. -/
def letter (c : Char) (h : isPlain c = true) (rest : Sequence) : Sequence :=
  .unit [c] (.plain ((isPlain_iff c).mp h)) rest

/-- The tree of `[a|(b|c)]x`. -/
def nestedGroups : Choice :=
  .one (.group .square
    (.bar (letter 'a' (by decide) .nil)
      (.one (.group .round
        (.bar (letter 'b' (by decide) .nil) (.one (letter 'c' (by decide) .nil))) .nil)))
    (letter 'x' (by decide) .nil))

/-- A group in a group, and no variables: the sentences are `ax`, `bx`, `cx` and `x`. -/
theorem perform_attempt_denotation_nestedGroups :
    nestedGroups.text = "[a|(b|c)]x".toList ∧ nestedGroups.Guarded ∧
      ∃ produced : List Text,
        (Setting.perform ⟨.ofPairs [], {}⟩ .attempt nestedGroups.text #[]).result =
          .ok produced.length ∧
        ∀ s, s ∈ produced ↔ s ∈ [['a', 'x'], ['b', 'x'], ['c', 'x'], ['x']] := by
  have hguarded : nestedGroups.Guarded := by
    simp [nestedGroups, letter, Choice.Guarded, Sequence.Guarded, Choice.sequences]
  have hlanguage : ∀ s, s ∈ nestedGroups.language ↔
      s ∈ [['a', 'x'], ['b', 'x'], ['c', 'x'], ['x']] := by
    intro s
    simp [nestedGroups, letter, Choice.language, Sequence.language, Bracket.meaning,
      Language.mem_mul, Language.mem_add, mem_single, or_and_right, exists_or, or_assoc, eq_comm]
  obtain ⟨produced, hresult, -, -, hproduced⟩ :=
    perform_attempt_denotation ⟨.ofPairs [], {}⟩ nestedGroups #[]
  refine ⟨by decide, hguarded, produced, hresult, ?_⟩
  intro s
  rw [hproduced hguarded s, hlanguage s]
  simp only [and_iff_left_iff_imp]
  rintro hs rfl
  exact absurd hs (by decide)

end Setting

end Phrasing
