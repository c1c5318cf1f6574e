import Phrasing.Proofs.Nesting

/-!
# `Proofs.Holes` — trees with a hole, and the group that is resolved next

To resolve a group is to put one of its alternatives in its place, wherever in the tree it is. A tree
with a hole says where; `plug` fills it. Text and language of the filled tree depend on the filling
in the simplest of ways: `text_plug` and `linear_plug`.

## Contents
- **`Sequence.Hole`**, **`Choice.Hole`**, **`plug`**: trees with a hole for a sequence.
- **`Bracket.choices`**: the sequences that a group with a flat body gives way to. The language of
  the tree is the union of what the choices give (`mem_language_plug`), and a guarded tree stays
  guarded (`guarded_plug`).
- **`ready?`**: the left-most group of a kind that can be resolved. `find?_text` says that this
  is where the text has its left-most group, and `isFlat_of_guarded` that a guarded tree with groups
  is never stuck.
-/

namespace Phrasing.Nested

open Text Grammar

/-! ## Holes -/

mutual

/-- **A sequence with a hole** in place of a part of it, or of a part of one of its groups. -/
inductive Sequence.Hole
  | here (rest : Sequence)
  | unit (text : Text) (isUnit : IsUnit false text) (hole : Sequence.Hole)
  | group (bracket : Bracket) (body : Choice) (hole : Sequence.Hole)
  | inside (bracket : Bracket) (hole : Choice.Hole) (rest : Sequence)

/-- **A choice with a hole** in one of its alternatives. -/
inductive Choice.Hole
  | one (hole : Sequence.Hole)
  | first (hole : Sequence.Hole) (rest : Choice)
  | later (first : Sequence) (hole : Choice.Hole)

end

/-- One sequence after another. -/
def Sequence.append : Sequence → Sequence → Sequence
  | .nil, later => later
  | .unit text isUnit rest, later => .unit text isUnit (rest.append later)
  | .group bracket body rest, later => .group bracket body (rest.append later)

mutual

/-- The sequence with the hole filled. -/
def Sequence.Hole.plug : Sequence.Hole → Sequence → Sequence
  | .here rest, q => q.append rest
  | .unit text isUnit hole, q => .unit text isUnit (hole.plug q)
  | .group bracket body hole, q => .group bracket body (hole.plug q)
  | .inside bracket hole rest, q => .group bracket (hole.plug q) rest

/-- The choice with the hole filled. -/
def Choice.Hole.plug : Choice.Hole → Sequence → Choice
  | .one hole, q => .one (hole.plug q)
  | .first hole rest, q => .bar (hole.plug q) rest
  | .later first hole, q => .bar first (hole.plug q)

end

mutual

/-- The text before the hole of a sequence. -/
def Sequence.Hole.before : Sequence.Hole → Text
  | .here _ => []
  | .unit text _ hole => text ++ hole.before
  | .group bracket body hole =>
      bracket.opening :: body.text ++ bracket.closing :: hole.before
  | .inside bracket hole _ => bracket.opening :: hole.before

/-- The text before the hole of a choice. -/
def Choice.Hole.before : Choice.Hole → Text
  | .one hole => hole.before
  | .first hole _ => hole.before
  | .later first hole => first.text ++ '|' :: hole.before

end

mutual

/-- The text behind the hole of a sequence. -/
def Sequence.Hole.after : Sequence.Hole → Text
  | .here rest => rest.text
  | .unit _ _ hole => hole.after
  | .group _ _ hole => hole.after
  | .inside bracket hole rest => hole.after ++ bracket.closing :: rest.text

/-- The text behind the hole of a choice. -/
def Choice.Hole.after : Choice.Hole → Text
  | .one hole => hole.after
  | .first hole rest => hole.after ++ '|' :: rest.text
  | .later _ hole => hole.after

end

/-! ## One sequence after another -/

theorem Sequence.text_append : (s t : Sequence) → (s.append t).text = s.text ++ t.text
  | .nil, _ => rfl
  | .unit text _ rest, t => by
      rw [Sequence.append, Sequence.text, Sequence.text, Sequence.text_append rest t,
        List.append_assoc]
  | .group bracket body rest, t => by
      rw [Sequence.append, Sequence.text, Sequence.text, Sequence.text_append rest t]
      simp

theorem Sequence.language_append :
    (s t : Sequence) → (s.append t).language = s.language * t.language
  | .nil, t => (one_mul t.language).symm
  | .unit text _ rest, t => by
      rw [Sequence.append, Sequence.language, Sequence.language, Sequence.language_append rest t,
        mul_assoc]
  | .group bracket body rest, t => by
      rw [Sequence.append, Sequence.language, Sequence.language, Sequence.language_append rest t,
        mul_assoc]

theorem Sequence.guarded_append : (s t : Sequence) →
    ((s.append t).Guarded ↔ s.Guarded ∧ t.Guarded)
  | .nil, t => by simp [Sequence.append, Sequence.Guarded]
  | .unit _ _ rest, t => by
      rw [Sequence.append, Sequence.Guarded, Sequence.Guarded, Sequence.guarded_append rest t]
  | .group _ body rest, t => by
      rw [Sequence.append, Sequence.Guarded, Sequence.Guarded, Sequence.guarded_append rest t]
      simp only [and_assoc]

/-! ## Filling a hole -/

mutual

/-- The filling stands between the texts around the hole. -/
theorem Sequence.Hole.text_plug (q : Sequence) : (hole : Sequence.Hole) →
    (hole.plug q).text = hole.before ++ q.text ++ hole.after
  | .here rest => Sequence.text_append q rest
  | .unit text _ hole => by
      rw [Sequence.Hole.plug, Sequence.text, Sequence.Hole.text_plug q hole]
      simp [Sequence.Hole.before, Sequence.Hole.after]
  | .group bracket body hole => by
      rw [Sequence.Hole.plug, Sequence.text, Sequence.Hole.text_plug q hole]
      simp [Sequence.Hole.before, Sequence.Hole.after]
  | .inside bracket hole rest => by
      rw [Sequence.Hole.plug, Sequence.text, Choice.Hole.text_plug q hole]
      simp [Sequence.Hole.before, Sequence.Hole.after]

/-- The filling stands between the texts around the hole. -/
theorem Choice.Hole.text_plug (q : Sequence) : (hole : Choice.Hole) →
    (hole.plug q).text = hole.before ++ q.text ++ hole.after
  | .one hole => Sequence.Hole.text_plug q hole
  | .first hole rest => by
      rw [Choice.Hole.plug, Choice.text, Sequence.Hole.text_plug q hole]
      simp [Choice.Hole.before, Choice.Hole.after]
  | .later first hole => by
      rw [Choice.Hole.plug, Choice.text, Choice.Hole.text_plug q hole]
      simp [Choice.Hole.before, Choice.Hole.after]

end

/-- Whether a language depends on the filling of a hole as a sum with one summand for it. -/
def Linear (language : Sequence → Language Char) : Prop :=
  ∃ K P Q : Language Char, ∀ q, language q = K + P * q.language * Q

theorem Linear.mul_left {language : Sequence → Language Char} (h : Linear language)
    (L : Language Char) : Linear fun q => L * language q := by
  obtain ⟨K, P, Q, hlanguage⟩ := h
  refine ⟨L * K, L * P, Q, fun q => ?_⟩
  show L * language q = L * K + L * P * q.language * Q
  rw [hlanguage q, mul_add, mul_assoc L P, mul_assoc L (P * q.language)]

theorem Linear.mul_right {language : Sequence → Language Char} (h : Linear language)
    (L : Language Char) : Linear fun q => language q * L := by
  obtain ⟨K, P, Q, hlanguage⟩ := h
  refine ⟨K * L, P, Q * L, fun q => ?_⟩
  show language q * L = K * L + P * q.language * (Q * L)
  rw [hlanguage q, add_mul, mul_assoc (P * q.language)]

theorem Linear.add_right {language : Sequence → Language Char} (h : Linear language)
    (L : Language Char) : Linear fun q => language q + L := by
  obtain ⟨K, P, Q, hlanguage⟩ := h
  refine ⟨K + L, P, Q, fun q => ?_⟩
  show language q + L = K + L + P * q.language * Q
  rw [hlanguage q, add_right_comm]

theorem Linear.meaning {language : Sequence → Language Char} (h : Linear language)
    (bracket : Bracket) : Linear fun q => bracket.meaning (language q) := by
  cases bracket with
  | round => exact h
  | square => exact h.add_right 1

mutual

theorem Sequence.Hole.linear_plug :
    (hole : Sequence.Hole) → Linear fun q => (hole.plug q).language
  | .here rest => by
      refine ⟨0, 1, rest.language, fun q => ?_⟩
      rw [zero_add, one_mul]
      exact Sequence.language_append q rest
  | .unit text _ hole => (Sequence.Hole.linear_plug hole).mul_left {text}
  | .group bracket body hole =>
      (Sequence.Hole.linear_plug hole).mul_left (bracket.meaning body.language)
  | .inside bracket hole rest =>
      ((Choice.Hole.linear_plug hole).meaning bracket).mul_right rest.language

/-- **The language of a filled choice is linear in the filling.** -/
theorem Choice.Hole.linear_plug : (hole : Choice.Hole) → Linear fun q => (hole.plug q).language
  | .one hole => Sequence.Hole.linear_plug hole
  | .first hole rest => (Sequence.Hole.linear_plug hole).add_right rest.language
  | .later first hole => by
      have hlinear := (Choice.Hole.linear_plug hole).add_right first.language
      simp only [add_comm] at hlinear
      exact hlinear

end

/-- The filling does not change how many alternatives there are. -/
theorem Choice.Hole.length_sequences_plug (p q : Sequence) : (hole : Choice.Hole) →
    (hole.plug p).sequences.length = (hole.plug q).sequences.length
  | .one _ => rfl
  | .first _ _ => rfl
  | .later _ hole => congrArg (· + 1) (Choice.Hole.length_sequences_plug p q hole)

/-- A filling that denotes less makes the choice denote less. -/
theorem Choice.Hole.language_plug_mono {p q : Sequence} (hole : Choice.Hole)
    (h : ∀ w ∈ q.language, w ∈ p.language) :
    ∀ w ∈ (hole.plug q).language, w ∈ (hole.plug p).language := by
  obtain ⟨K, P, Q, hlanguage⟩ := hole.linear_plug
  intro w hw
  have hq : (hole.plug q).language = K + P * q.language * Q := hlanguage q
  have hp : (hole.plug p).language = K + P * p.language * Q := hlanguage p
  rw [hq, Language.mem_add] at hw
  rw [hp, Language.mem_add]
  refine hw.imp_right ?_
  intro hmiddle
  obtain ⟨_, ⟨a, ha, b, hb, rfl⟩, d, hd, rfl⟩ := hmiddle
  exact ⟨_, ⟨a, ha, b, h b hb, rfl⟩, d, hd, rfl⟩

/-- **A filling that stands for several** makes the choice denote what they make it denote. -/
theorem Choice.Hole.mem_language_plug {p : Sequence} {qs : List Sequence} (hole : Choice.Hole)
    (hne : qs ≠ []) (hp : ∀ w, w ∈ p.language ↔ ∃ q ∈ qs, w ∈ q.language) (w : Text) :
    w ∈ (hole.plug p).language ↔ ∃ q ∈ qs, w ∈ (hole.plug q).language := by
  constructor
  · obtain ⟨K, P, Q, hlanguage⟩ := hole.linear_plug
    have hplug : ∀ q, (hole.plug q).language = K + P * q.language * Q := hlanguage
    intro hw
    rw [hplug, Language.mem_add] at hw
    rcases hw with hw | ⟨_, ⟨a, ha, b, hb, rfl⟩, d, hd, rfl⟩
    -- what the filling has no part in is denoted with any of them, and there is one
    · obtain ⟨q, hq⟩ := List.exists_mem_of_ne_nil qs hne
      refine ⟨q, hq, ?_⟩
      rw [hplug, Language.mem_add]
      exact Or.inl hw
    · obtain ⟨q, hq, hbq⟩ := (hp b).mp hb
      refine ⟨q, hq, ?_⟩
      rw [hplug, Language.mem_add]
      exact Or.inr ⟨_, ⟨a, ha, b, hbq, rfl⟩, d, hd, rfl⟩
  · rintro ⟨q, hq, hw⟩
    exact hole.language_plug_mono (fun v hv => (hp v).mpr ⟨q, hq, hv⟩) w hw

section Guarded

variable {p q : Sequence}

mutual

theorem Sequence.Hole.guarded_plug (hlanguage : ∀ w ∈ q.language, w ∈ p.language)
    (hq : q.Guarded) : (hole : Sequence.Hole) → (hole.plug p).Guarded → (hole.plug q).Guarded
  | .here rest, h => (Sequence.guarded_append q rest).mpr
      ⟨hq, ((Sequence.guarded_append p rest).mp h).2⟩
  | .unit _ _ hole, h => Sequence.Hole.guarded_plug hlanguage hq hole h
  | .group _ body hole, ⟨hbody, hinner, h⟩ =>
      ⟨hbody, hinner, Sequence.Hole.guarded_plug hlanguage hq hole h⟩
  | .inside _ hole rest, ⟨hbody, hinner, hrest⟩ => by
      refine ⟨?_, Choice.Hole.guarded_plug hlanguage hq hole hinner, hrest⟩
      -- as many alternatives as before, and none that can be empty if none could
      rw [hole.length_sequences_plug q p]
      exact hbody.imp_right fun hempty hmem => hempty (hole.language_plug_mono hlanguage [] hmem)

/-- **A guarded choice stays guarded** when a part of it gives way to a guarded sequence that
    denotes less. -/
theorem Choice.Hole.guarded_plug (hlanguage : ∀ w ∈ q.language, w ∈ p.language)
    (hq : q.Guarded) : (hole : Choice.Hole) → (hole.plug p).Guarded → (hole.plug q).Guarded
  | .one hole, h => Sequence.Hole.guarded_plug hlanguage hq hole h
  | .first hole _, ⟨h, hrest⟩ => ⟨Sequence.Hole.guarded_plug hlanguage hq hole h, hrest⟩
  | .later _ hole, ⟨hfirst, h⟩ => ⟨hfirst, Choice.Hole.guarded_plug hlanguage hq hole h⟩

end

end Guarded

/-! ## What a group gives way to -/

/-- The sequences that a group gives way to when its body is flat. -/
def Bracket.choices : Bracket → Choice → List Sequence
  | .round, body => body.sequences
  | .square, body => body.sequences ++ [.nil]

theorem Bracket.choices_ne_nil (bracket : Bracket) (body : Choice) :
    bracket.choices body ≠ [] := by
  cases bracket with
  | round => exact body.sequences_ne_nil
  | square => simp [Bracket.choices]

/-- A group denotes what its choices denote. -/
theorem Bracket.mem_language_group (bracket : Bracket) (body : Choice) (w : Text) :
    w ∈ (Sequence.group bracket body .nil).language ↔
      ∃ q ∈ bracket.choices body, w ∈ q.language := by
  rw [Sequence.language, Sequence.language, mul_one]
  cases bracket with
  | round => exact body.mem_language w
  | square =>
      rw [Bracket.meaning, Language.mem_add, body.mem_language w]
      simp [Bracket.choices, or_and_right, exists_or, Sequence.language]

theorem Bracket.guarded_of_mem_choices {bracket : Bracket} {body : Choice}
    (hflat : body.isFlat = true) {q : Sequence} (hq : q ∈ bracket.choices body) : q.Guarded := by
  have hguarded : ∀ s ∈ body.sequences, s.Guarded := fun s hs =>
    s.guarded_of_isFlat (body.isFlat_iff.mp hflat s hs)
  cases bracket with
  | round => exact hguarded q hq
  | square =>
      rcases List.mem_append.mp hq with hq | hq
      · exact hguarded q hq
      · rw [List.mem_singleton.mp hq]
        exact trivial

/-! ## The group that is next -/

/-- Whether a body can be read as one: flat and not empty. -/
def Choice.isReady (c : Choice) : Bool := c.isFlat && !c.text.isEmpty

theorem Choice.isReady_iff (c : Choice) : c.isReady = true ↔ c.isFlat = true ∧ c.text ≠ [] := by
  simp [Choice.isReady]

mutual

/-- The left-most group of a kind in a sequence which has a body that can be read, and the body. -/
def Sequence.ready? (bracket : Bracket) : Sequence → Option (Sequence.Hole × Choice)
  | .nil => none
  | .unit text isUnit rest =>
      (rest.ready? bracket).map fun found => (.unit text isUnit found.1, found.2)
  | .group bracket' body rest =>
      if bracket' = bracket ∧ body.isReady = true then some (.here rest, body)
      else
        match body.ready? bracket with
        | some found => some (.inside bracket' found.1 rest, found.2)
        | none => (rest.ready? bracket).map fun found => (.group bracket' body found.1, found.2)

/-- The left-most group of a kind in a choice which has a body that can be read, and the body. -/
def Choice.ready? (bracket : Bracket) : Choice → Option (Choice.Hole × Choice)
  | .one only => (only.ready? bracket).map fun found => (.one found.1, found.2)
  | .bar first rest =>
      match first.ready? bracket with
      | some found => some (.first found.1 rest, found.2)
      | none => (rest.ready? bracket).map fun found => (.later first found.1, found.2)

end

mutual

theorem Sequence.plug_of_ready? (bracket : Bracket) : (s : Sequence) →
    ∀ found ∈ s.ready? bracket,
      found.1.plug (.group bracket found.2 .nil) = s ∧ found.2.isReady = true
  | .nil => fun _ h => absurd h (by simp [Sequence.ready?])
  | .unit text isUnit rest => by
      intro found h
      obtain ⟨inner, hinner, rfl⟩ := Option.map_eq_some_iff.mp h
      obtain ⟨hplug, hready⟩ := Sequence.plug_of_ready? bracket rest inner hinner
      exact ⟨congrArg (Sequence.unit text isUnit) hplug, hready⟩
  | .group bracket' body rest => by
      intro found h
      rw [Sequence.ready?, Option.mem_def] at h
      split at h
      · rename_i hhere
        rw [Option.some.injEq] at h
        rw [← h, ← hhere.1]
        exact ⟨rfl, hhere.2⟩
      · split at h
        · rename_i inner hinner
          rw [Option.some.injEq] at h
          obtain ⟨hplug, hready⟩ := Choice.plug_of_ready? bracket body inner hinner
          rw [← h]
          exact ⟨congrArg (Sequence.group bracket' · rest) hplug, hready⟩
        · obtain ⟨inner, hinner, rfl⟩ := Option.map_eq_some_iff.mp h
          obtain ⟨hplug, hready⟩ := Sequence.plug_of_ready? bracket rest inner hinner
          exact ⟨congrArg (Sequence.group bracket' body) hplug, hready⟩

/-- **The group that is next** is a group of the tree, with a body that can be read. -/
theorem Choice.plug_of_ready? (bracket : Bracket) : (c : Choice) →
    ∀ found ∈ c.ready? bracket,
      found.1.plug (.group bracket found.2 .nil) = c ∧ found.2.isReady = true
  | .one only => by
      intro found h
      obtain ⟨inner, hinner, rfl⟩ := Option.map_eq_some_iff.mp h
      obtain ⟨hplug, hready⟩ := Sequence.plug_of_ready? bracket only inner hinner
      exact ⟨congrArg Choice.one hplug, hready⟩
  | .bar first rest => by
      intro found h
      rw [Choice.ready?, Option.mem_def] at h
      split at h
      · rename_i inner hinner
        rw [Option.some.injEq] at h
        obtain ⟨hplug, hready⟩ := Sequence.plug_of_ready? bracket first inner hinner
        rw [← h]
        exact ⟨congrArg (Choice.bar · rest) hplug, hready⟩
      · obtain ⟨inner, hinner, rfl⟩ := Option.map_eq_some_iff.mp h
        obtain ⟨hplug, hready⟩ := Choice.plug_of_ready? bracket rest inner hinner
        exact ⟨congrArg (Choice.bar first) hplug, hready⟩

end

/-! ## Finding the group in the text -/

/-- The left-most group of a kind in a text. -/
def Bracket.find? (bracket : Bracket) (s : Text) : Option Occurrence :=
  findFirst (readGroup? bracket.opening bracket.closing) s

/-- The occurrence in a text with more text in front. -/
def behind (front : Text) (occurrence : Occurrence) : Occurrence :=
  { occurrence with before := front ++ occurrence.before }

theorem map_behind_behind (front next : Text) (found : Option Occurrence) :
    (found.map (behind next)).map (behind front) = found.map (behind (front ++ next)) := by
  cases found with
  | none => rfl
  | some occurrence =>
      show some _ = some _
      simp [behind]

/-- The search passes over text without the bracket that opens the group. -/
theorem Bracket.find?_append {bracket : Bracket} {front : Text} (h : bracket.opening ∉ front)
    (tail : Text) : bracket.find? (front ++ tail) = (bracket.find? tail).map (behind front) := by
  induction front with
  | nil =>
      have hid : behind [] = id := rfl
      rw [List.nil_append, hid, Option.map_id_fun, id]
  | cons c cs ih =>
      rw [List.mem_cons, not_or] at h
      have hread : readGroup? bracket.opening bracket.closing (c :: (cs ++ tail)) = none := by
        rw [readGroup?, if_neg (fun hc => h.1 hc.symm)]
      rw [List.cons_append, Bracket.find?, findFirst, hread]
      show (bracket.find? (cs ++ tail)).map (behind [c]) = _
      rw [ih h.2, map_behind_behind]
      rfl

/-- **A group is read where its body can be read**, and nowhere else. -/
theorem readGroup?_group (bracket : Bracket) (body : Choice) (rest : Text) :
    readGroup? bracket.opening bracket.closing
        (bracket.opening :: body.text ++ bracket.closing :: rest) =
      if body.isReady = true then some (body.text, rest) else none := by
  split
  · rename_i hready
    obtain ⟨hflat, hne⟩ := body.isReady_iff.mp hready
    exact Bracket.readGroup?_eq_some_iff.mpr ⟨rfl, hne, body.isRun_text hflat⟩
  · rename_i hready
    rw [Option.eq_none_iff_forall_ne_some]
    rintro ⟨read, after⟩ hread
    obtain ⟨htext, hne, hrun⟩ := Bracket.readGroup?_eq_some_iff.mp hread
    -- what was read ends at a closing bracket: the one of this group, if its body has no groups,
    -- and otherwise the body ends at an opening one
    have hsplit : splitBody true (body.text ++ bracket.closing :: rest) =
        (read, bracket.closing :: after) := by
      rw [List.cons_append, List.cons_append, List.cons.injEq] at htext
      rw [htext.2, splitBody_append_of_isRun hrun, splitBody_closing,
        List.append_nil]
    cases hflat : body.isFlat with
    | true =>
        rw [splitBody_append_of_isRun (body.isRun_text hflat), splitBody_closing,
          List.append_nil, Prod.mk.injEq] at hsplit
        exact hready (body.isReady_iff.mpr ⟨hflat, by rw [hsplit.1]; exact hne⟩)
    | false =>
        obtain ⟨front, inner, tail, hstop⟩ :=
          body.splitBody_text (bracket.closing :: rest) hflat
        rw [hsplit, Prod.mk.injEq, List.cons.injEq] at hstop
        refine absurd hstop.2.1 ?_
        cases bracket <;> cases inner <;> decide

/-- No group is read where one of the other kind opens, or where its body cannot be read. -/
theorem readGroup?_group_eq_none {bracket bracket' : Bracket} {body : Choice}
    (h : ¬ (bracket' = bracket ∧ body.isReady = true)) (rest : Text) :
    readGroup? bracket.opening bracket.closing
      (bracket'.opening :: body.text ++ bracket'.closing :: rest) = none := by
  by_cases hbracket : bracket' = bracket
  · rw [hbracket, readGroup?_group, if_neg (fun hready => h ⟨hbracket, hready⟩)]
  · have hopening : bracket'.opening ≠ bracket.opening := by
      revert hbracket
      cases bracket <;> cases bracket' <;> decide
    rw [List.cons_append, readGroup?, if_neg hopening]

/-- Behind a group that cannot be read, the search goes on in the body. -/
theorem Bracket.find?_group {bracket bracket' : Bracket} {body : Choice}
    (h : ¬ (bracket' = bracket ∧ body.isReady = true)) (rest : Text) :
    bracket.find? (bracket'.opening :: body.text ++ bracket'.closing :: rest) =
      (bracket.find? (body.text ++ bracket'.closing :: rest)).map
        (behind [bracket'.opening]) := by
  have hread := readGroup?_group_eq_none h rest
  rw [List.cons_append] at hread ⊢
  rw [Bracket.find?, findFirst, hread]
  rfl

mutual

theorem Sequence.find?_text (bracket : Bracket) : (s : Sequence) → (tail : Text) →
    bracket.find? (s.text ++ tail) =
      match s.ready? bracket with
      | some found => some ⟨found.1.before, found.2.text, found.1.after ++ tail⟩
      | none => (bracket.find? tail).map (behind s.text)
  | .nil, tail => by
      show bracket.find? tail = (bracket.find? tail).map id
      rw [Option.map_id_fun, id]
  | .unit text isUnit rest, tail => by
      rw [Sequence.text, List.append_assoc,
        Bracket.find?_append (bracket.notMem_of_isUnit isUnit).1,
        Sequence.find?_text bracket rest tail, Sequence.ready?]
      cases rest.ready? bracket with
      | some found => rfl
      | none =>
          show ((bracket.find? tail).map (behind rest.text)).map (behind text) = _
          rw [map_behind_behind]
          rfl
  | .group bracket' body rest, tail => by
      have htext : (Sequence.group bracket' body rest).text ++ tail =
          bracket'.opening :: body.text ++ bracket'.closing :: (rest.text ++ tail) := by
        simp [Sequence.text]
      rw [htext, Sequence.ready?]
      by_cases hready : bracket' = bracket ∧ body.isReady = true
      · obtain ⟨rfl, hready⟩ := hready
        rw [if_pos ⟨rfl, hready⟩, List.cons_append, Bracket.find?, findFirst, ← List.cons_append,
          readGroup?_group, if_pos hready]
        rfl
      · rw [if_neg hready, Bracket.find?_group hready,
          Choice.find?_text bracket body (bracket'.closing :: (rest.text ++ tail))]
        cases body.ready? bracket with
        | some found => simp [behind, Sequence.Hole.before, Sequence.Hole.after]
        | none =>
            -- the bracket that closes the group opens none, so the search goes on behind it
            have hclosing : bracket.opening ∉ [bracket'.closing] := by
              cases bracket <;> cases bracket' <;> decide
            have hrest : bracket.find? (bracket'.closing :: (rest.text ++ tail)) = _ :=
              Bracket.find?_append hclosing (rest.text ++ tail)
            simp only [hrest, Sequence.find?_text bracket rest tail]
            cases rest.ready? bracket with
            | some found => simp [behind, Sequence.Hole.before, Sequence.Hole.after]
            | none =>
                simp only [map_behind_behind, Option.map_none, Sequence.text]
                simp

/-- **The search finds the group that is next**, and if there is none it goes on behind the tree. -/
theorem Choice.find?_text (bracket : Bracket) : (c : Choice) → (tail : Text) →
    bracket.find? (c.text ++ tail) =
      match c.ready? bracket with
      | some found => some ⟨found.1.before, found.2.text, found.1.after ++ tail⟩
      | none => (bracket.find? tail).map (behind c.text)
  | .one only, tail => by
      rw [Choice.text, Sequence.find?_text bracket only tail, Choice.ready?]
      cases only.ready? bracket <;> rfl
  | .bar first rest, tail => by
      have htext : (Choice.bar first rest).text ++ tail =
          first.text ++ '|' :: (rest.text ++ tail) := by simp [Choice.text]
      have hbar : bracket.opening ∉ ['|'] := by cases bracket <;> decide
      have hrest : bracket.find? ('|' :: (rest.text ++ tail)) = _ :=
        Bracket.find?_append hbar (rest.text ++ tail)
      rw [htext, Sequence.find?_text bracket first, Choice.ready?]
      cases first.ready? bracket with
      | some found => simp [Choice.Hole.before, Choice.Hole.after]
      | none =>
          simp only [hrest, Choice.find?_text bracket rest tail]
          cases rest.ready? bracket with
          | some found => simp [behind, Choice.Hole.before, Choice.Hole.after]
          | none =>
              simp only [map_behind_behind, Option.map_none, Choice.text]
              simp

end

/-! ## Guarded trees do not get stuck -/

/-- A flat body is not empty if it offers something else or does not denote nothing. -/
theorem Choice.text_ne_nil_of_guard {c : Choice} (hflat : c.isFlat = true)
    (h : 2 ≤ c.sequences.length ∨ [] ∉ c.language) : c.text ≠ [] := by
  cases c with
  | one only =>
      intro htext
      rcases h with h | h
      · exact absurd h (by simp [Choice.sequences])
      · refine h ?_
        have hlanguage : only.language = {only.text} := only.language_of_isFlat hflat
        have hnil : only.text = [] := htext
        rw [Choice.language, hlanguage, hnil]
        rfl
  | bar first rest => simp [Choice.text]

mutual

theorem Sequence.isFlat_of_guarded : (s : Sequence) → s.Guarded →
    (∀ bracket, s.ready? bracket = none) → s.isFlat = true
  | .nil, _, _ => rfl
  | .unit _ _ rest, h, hready => by
      refine Sequence.isFlat_of_guarded rest h fun bracket => ?_
      exact Option.map_eq_none_iff.mp (hready bracket)
  | .group bracket body rest, ⟨hbody, hinner, _⟩, hready => by
      have hnone : ∀ bracket', body.ready? bracket' = none := by
        intro bracket'
        have hgroup := hready bracket'
        rw [Sequence.ready?] at hgroup
        split at hgroup
        · exact absurd hgroup (by simp)
        · split at hgroup
          · exact absurd hgroup (by simp)
          · assumption
      -- a body with nothing left to resolve is flat, and the guard says that it is not empty
      have hflat : body.isFlat = true := Choice.isFlat_of_guarded body hinner hnone
      have hgroup := hready bracket
      rw [Sequence.ready?,
        if_pos ⟨rfl, body.isReady_iff.mpr ⟨hflat, body.text_ne_nil_of_guard hflat hbody⟩⟩] at hgroup
      exact absurd hgroup (by simp)

/-- **A guarded choice with groups has a group that is next.** -/
theorem Choice.isFlat_of_guarded : (c : Choice) → c.Guarded →
    (∀ bracket, c.ready? bracket = none) → c.isFlat = true
  | .one only, h, hready =>
      Sequence.isFlat_of_guarded only h fun bracket => Option.map_eq_none_iff.mp (hready bracket)
  | .bar first rest, ⟨hfirst, hrest⟩, hready => by
      have hnone : ∀ bracket, first.ready? bracket = none ∧ rest.ready? bracket = none := by
        intro bracket
        have hbar := hready bracket
        rw [Choice.ready?] at hbar
        split at hbar
        · exact absurd hbar (by simp)
        · rename_i hnone
          exact ⟨hnone, Option.map_eq_none_iff.mp hbar⟩
      rw [Choice.isFlat, Bool.and_eq_true]
      exact ⟨Sequence.isFlat_of_guarded first hfirst fun bracket => (hnone bracket).1,
        Choice.isFlat_of_guarded rest hrest fun bracket => (hnone bracket).2⟩

end

end Phrasing.Nested
