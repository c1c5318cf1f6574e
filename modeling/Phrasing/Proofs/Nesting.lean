import Mathlib.Computability.Language
import Phrasing.Proofs.Precedence

/-!
# `Proofs.Nesting` — templates as trees, and what they denote

A template without variables is a choice: sequences with bars between them, of units and of groups
with choices inside. The tree has a text, which is all that an expansion gets to see, and a language,
which is what the text is meant to stand for.

## Contents
- **`Bracket`**, **`Sequence`**, **`Choice`**: the trees; `text` and `language`, their two readings.
- **`Choice.Guarded`**: no group that can be empty and offers nothing else.
- **`Choice.isFlat`**: no groups at all. A flat sequence denotes its own text.
- **What texts look like.** `Choice.text_of_append` carries a property of the parts to the whole;
  `Choice.isBody_true_text` and its like say how much of a text reads as a body.
- **Brackets.** `Bracket.notMem_of_isUnit` and `Bracket.readGroup?_eq_some_iff`: they are in no unit,
  and a group is read where they stand around a run.
-/

namespace Phrasing.Nested

open Text Grammar

/-! ## Trees -/

/-- The two kinds of groups: one of the alternatives, or one of them or nothing. -/
inductive Bracket
  | round
  | square
deriving Repr, DecidableEq

mutual

/-- **Units and groups**, one after the other. A unit is a plain character or a slot. -/
inductive Sequence
  | nil
  | unit (text : Text) (isUnit : IsUnit false text) (rest : Sequence)
  | group (bracket : Bracket) (body : Choice) (rest : Sequence)

/-- **Alternatives**, with bars between them. -/
inductive Choice
  | one (only : Sequence)
  | bar (first : Sequence) (rest : Choice)

end

namespace Bracket

/-- The bracket that opens a group. -/
def opening : Bracket → Char
  | .round => '('
  | .square => '['

/-- The bracket that closes a group. -/
def closing : Bracket → Char
  | .round => ')'
  | .square => ']'

/-- What a group denotes, by what its body denotes. -/
def meaning : Bracket → Language Char → Language Char
  | .round, body => body
  | .square, body => body + 1

end Bracket

/-- The alternatives of a choice, in order. -/
def Choice.sequences : Choice → List Sequence
  | .one only => [only]
  | .bar first rest => first :: rest.sequences

/-! ## Texts and languages -/

mutual

/-- The sequence as it is written. -/
def Sequence.text : Sequence → Text
  | .nil => []
  | .unit text _ rest => text ++ rest.text
  | .group bracket body rest => bracket.opening :: body.text ++ bracket.closing :: rest.text

/-- The choice as it is written. -/
def Choice.text : Choice → Text
  | .one only => only.text
  | .bar first rest => first.text ++ '|' :: rest.text

end

mutual

/-- What a sequence denotes: a unit stands for itself. -/
def Sequence.language : Sequence → Language Char
  | .nil => 1
  | .unit text _ rest => {text} * rest.language
  | .group bracket body rest => bracket.meaning body.language * rest.language

/-- What a choice denotes: anything that one of its alternatives denotes. -/
def Choice.language : Choice → Language Char
  | .one only => only.language
  | .bar first rest => first.language + rest.language

end

mutual

/-- Whether no group of a sequence has a single alternative which can be empty. -/
def Sequence.Guarded : Sequence → Prop
  | .nil => True
  | .unit _ _ rest => rest.Guarded
  | .group _ body rest =>
      (2 ≤ body.sequences.length ∨ [] ∉ body.language) ∧ body.Guarded ∧ rest.Guarded

/-- Whether no group of a choice has a single alternative which can be empty. -/
def Choice.Guarded : Choice → Prop
  | .one only => only.Guarded
  | .bar first rest => first.Guarded ∧ rest.Guarded

end

/-- A text as a language has no other member. -/
theorem mem_single (w t : Text) : w ∈ ({t} : Language Char) ↔ w = t := Iff.rfl

theorem Choice.sequences_ne_nil (c : Choice) : c.sequences ≠ [] := by
  cases c <;> simp [Choice.sequences]

/-- A choice denotes what its alternatives denote. -/
theorem Choice.mem_language : (c : Choice) → (w : Text) →
    (w ∈ c.language ↔ ∃ s ∈ c.sequences, w ∈ s.language)
  | .one only, w => by simp [Choice.language, Choice.sequences]
  | .bar first rest, w => by
      rw [Choice.language, Language.mem_add, Choice.mem_language rest w]
      simp [Choice.sequences]

/-- A choice is guarded where its alternatives are. -/
theorem Choice.guarded_iff : (c : Choice) → (c.Guarded ↔ ∀ s ∈ c.sequences, s.Guarded)
  | .one only => by simp [Choice.Guarded, Choice.sequences]
  | .bar first rest => by
      rw [Choice.Guarded, Choice.guarded_iff rest]
      simp [Choice.sequences]

/-! ## Flat trees -/

/-- Whether a sequence has no groups. -/
def Sequence.isFlat : Sequence → Bool
  | .nil => true
  | .unit _ _ rest => rest.isFlat
  | .group _ _ _ => false

/-- Whether a choice has no groups. -/
def Choice.isFlat : Choice → Bool
  | .one only => only.isFlat
  | .bar first rest => first.isFlat && rest.isFlat

theorem Choice.isFlat_iff : (c : Choice) → (c.isFlat = true ↔ ∀ s ∈ c.sequences, s.isFlat = true)
  | .one only => by simp [Choice.isFlat, Choice.sequences]
  | .bar first rest => by
      rw [Choice.isFlat, Bool.and_eq_true, Choice.isFlat_iff rest]
      simp [Choice.sequences]

/-- **A flat sequence denotes its text** and nothing else. -/
theorem Sequence.language_of_isFlat : (s : Sequence) → s.isFlat = true → s.language = {s.text}
  | .nil, _ => rfl
  | .unit text hunit rest, h => by
      have hrest : rest.language = {rest.text} := Sequence.language_of_isFlat rest h
      rw [Sequence.language, Sequence.text, hrest]
      ext w
      rw [Language.mem_mul, mem_single]
      constructor
      · rintro ⟨a, ha, b, hb, rfl⟩
        rw [(mem_single a text).mp ha, (mem_single b rest.text).mp hb]
      · intro hw
        exact ⟨text, rfl, rest.text, rfl, hw.symm⟩

theorem Sequence.guarded_of_isFlat : (s : Sequence) → s.isFlat = true → s.Guarded
  | .nil, _ => trivial
  | .unit _ _ rest, h => Sequence.guarded_of_isFlat rest h

/-! ## What texts look like -/

theorem isUnit_of_false {bars : Bool} {u : Text} (h : IsUnit false u) : IsUnit bars u := by
  cases h with
  | plain hc => exact .plain hc
  | bar hbars => exact absurd hbars (by decide)
  | slot hslot => exact .slot hslot

section Parts

variable {P : Text → Prop}

mutual

/-- What holds of nothing, of units and of brackets, and of two texts together if of each, holds of
    the text of a sequence. -/
theorem Sequence.text_of_append (hnil : P []) (happend : ∀ s t, P s → P t → P (s ++ t))
    (hunit : ∀ u, IsUnit true u → P u)
    (hbracket : ∀ bracket : Bracket, P [bracket.opening] ∧ P [bracket.closing]) :
    (s : Sequence) → P s.text
  | .nil => hnil
  | .unit text isUnit rest =>
      happend text rest.text (hunit text (isUnit_of_false isUnit))
        (Sequence.text_of_append hnil happend hunit hbracket rest)
  | .group bracket body rest => by
      have hbody : P ([bracket.opening] ++ body.text) :=
        happend _ _ (hbracket bracket).1 (Choice.text_of_append hnil happend hunit hbracket body)
      have hrest : P ([bracket.closing] ++ rest.text) :=
        happend _ _ (hbracket bracket).2 (Sequence.text_of_append hnil happend hunit hbracket rest)
      exact happend _ _ hbody hrest

/-- What holds of nothing, of units and of brackets, and of two texts together if of each, holds of
    the text of a choice. -/
theorem Choice.text_of_append (hnil : P []) (happend : ∀ s t, P s → P t → P (s ++ t))
    (hunit : ∀ u, IsUnit true u → P u)
    (hbracket : ∀ bracket : Bracket, P [bracket.opening] ∧ P [bracket.closing]) :
    (c : Choice) → P c.text
  | .one only => Sequence.text_of_append hnil happend hunit hbracket only
  | .bar first rest => by
      have hrest : P (['|'] ++ rest.text) :=
        happend _ _ (hunit ['|'] (.bar rfl))
          (Choice.text_of_append hnil happend hunit hbracket rest)
      exact happend _ _ (Sequence.text_of_append hnil happend hunit hbracket first) hrest

end

end Parts

/-! ### Characters of a unit -/

/-- The characters of a slot are the brackets around it, the characters of names and plain ones,
    and a tilde. -/
theorem mem_of_isSlot {t : Text} (h : IsSlot t) {c : Char} (hc : c ∈ t) :
    c = '<' ∨ c = '>' ∨ c = '~' ∨ IsNameStart c ∨ IsNameRest c ∨ IsPlain c := by
  have hname : ∀ name : Text, IsName name → c ∈ name → IsNameStart c ∨ IsNameRest c := by
    rintro _ ⟨hstart, hrest⟩ hmem
    rcases List.mem_cons.mp hmem with rfl | hmem
    · exact Or.inl hstart
    · exact Or.inr (hrest c hmem)
  cases h with
  | @bare name hisName =>
      simp only [List.cons_append, List.mem_cons, List.mem_append, List.not_mem_nil, or_false] at hc
      rcases hc with hc | hc | hc
      · exact Or.inl hc
      · rcases hname name hisName hc with h | h <;> simp [h]
      · exact Or.inr (Or.inl hc)
  | @sampled name sample hisName _ hsample =>
      simp only [List.cons_append, List.mem_cons, List.mem_append, List.not_mem_nil, or_false] at hc
      rcases hc with hc | (hc | hc | hc) | hc
      · exact Or.inl hc
      · rcases hname name hisName hc with h | h <;> simp [h]
      · exact Or.inr (Or.inr (Or.inl hc))
      · simp [hsample c hc]
      · exact Or.inr (Or.inl hc)

/-- Whether a character can stand in a unit. -/
def isUnitChar (c : Char) : Bool :=
  isPlain c || isNameStart c || isNameRest c || c == '<' || c == '>' || c == '~'

theorem isUnitChar_of_mem {u : Text} (h : IsUnit false u) {c : Char} (hc : c ∈ u) :
    isUnitChar c = true := by
  simp only [isUnitChar, Bool.or_eq_true, isPlain_iff, isNameStart_iff, isNameRest_iff, beq_iff_eq]
  cases h with
  | plain hplain =>
      rw [List.mem_singleton] at hc
      simp [hc, hplain]
  | bar hbars => exact absurd hbars (by decide)
  | slot hslot => rcases mem_of_isSlot hslot hc with h | h | h | h | h | h <;> simp [h]

/-- A character which is in no unit is not in one of them. -/
theorem notMem_of_isUnit {u : Text} (h : IsUnit false u) {d : Char} (hd : isUnitChar d = false) :
    d ∉ u := by
  intro hmem
  rw [isUnitChar_of_mem h hmem] at hd
  exact absurd hd (by simp)

/-- The brackets of groups are in none. -/
theorem Bracket.notMem_of_isUnit (bracket : Bracket) {u : Text} (h : IsUnit false u) :
    bracket.opening ∉ u ∧ bracket.closing ∉ u := by
  cases bracket with
  | round => exact ⟨Nested.notMem_of_isUnit h (by decide), Nested.notMem_of_isUnit h (by decide)⟩
  | square => exact ⟨Nested.notMem_of_isUnit h (by decide), Nested.notMem_of_isUnit h (by decide)⟩

/-! ### No variables and no synonyms -/

theorem dollar_notMem_text (c : Choice) : '$' ∉ c.text := by
  refine Choice.text_of_append (P := fun t => '$' ∉ t) (by simp) ?_ ?_ ?_ c
  · intro s t hs ht hmem
    rcases List.mem_append.mp hmem with h | h
    · exact hs h
    · exact ht h
  · intro u hu
    cases hu with
    | plain hplain => exact notMem_of_isUnit (.plain hplain) (by decide)
    | bar _ => decide
    | slot hslot => exact notMem_of_isUnit (.slot hslot) (by decide)
  · intro bracket
    cases bracket <;> decide

/-- No variable is referred to. -/
theorem findFirst_reference_text (c : Choice) : findFirst readReference? c.text = none := by
  rw [findFirst_reference_eq_none_iff]
  rintro ⟨before, _, htext, d, rest, rfl, _⟩
  refine dollar_notMem_text c ?_
  rw [htext]
  simp

/-- Whether every tilde of a text has an angle bracket somewhere before it. -/
def TildesInside (t : Text) : Prop := ∀ before rest, t = before ++ '~' :: rest → '<' ∈ before

theorem tildesInside_append {s t : Text} (hs : TildesInside s) (ht : TildesInside t) :
    TildesInside (s ++ t) := by
  intro before rest h
  rcases List.append_eq_append_iff.mp h with ⟨middle, rfl, hmiddle⟩ | ⟨middle, rfl, hmiddle⟩
  · exact List.mem_append_right _ (ht middle rest hmiddle)
  · cases middle with
    -- a tilde right at the start of the second text has nothing before it there
    | nil => exact absurd (ht [] rest hmiddle.symm) (by simp)
    | cons d middle =>
        rw [List.cons_append, List.cons.injEq] at hmiddle
        exact hs before middle (by rw [← hmiddle.1])

/-- A character other than a tilde has no tilde in it. -/
theorem tildesInside_singleton {c : Char} (hc : c ≠ '~') : TildesInside [c] := by
  intro before rest h
  have hmem : '~' ∈ [c] := by
    rw [h]
    simp
  exact absurd (List.mem_singleton.mp hmem).symm hc

/-- A slot has its own bracket before its tilde. -/
theorem tildesInside_of_isSlot {t : Text} (h : IsSlot t) : TildesInside t := by
  obtain ⟨cs, rfl⟩ := h.exists_cons
  intro before rest h
  cases before with
  | nil => exact absurd h (by simp)
  | cons d before =>
      rw [List.cons_append, List.cons.injEq] at h
      rw [← h.1]
      exact List.mem_cons_self

theorem tildesInside_text (c : Choice) : TildesInside c.text := by
  refine Choice.text_of_append (P := TildesInside) ?_ (fun _ _ => tildesInside_append) ?_ ?_ c
  · intro before rest h
    exact absurd h (by simp)
  · intro u hu
    cases hu with
    | plain hplain =>
        refine tildesInside_singleton ?_
        rintro rfl
        rw [← isPlain_iff] at hplain
        exact absurd hplain (by decide)
    | bar _ => exact tildesInside_singleton (by decide)
    | slot hslot => exact tildesInside_of_isSlot hslot
  · intro bracket
    constructor <;> refine tildesInside_singleton ?_ <;> cases bracket <;> decide

/-- Text with its tildes in slots is no synonym line: what stands before its first tilde is no name. -/
theorem not_isSynonymLine_of_tildesInside {t : Text} (h : TildesInside t) : ¬ IsSynonymLine t := by
  rintro ⟨name, gap, skipped, line, htext, _, _, hname, hgap, _, _⟩
  have hopen : '<' ∈ name ++ gap := h (name ++ gap) (skipped ++ line) htext
  exact notMem_before_tilde hname hgap (by decide) (by decide) hopen

/-- No text of a tree is a synonym line. -/
theorem isSynonymLine_text (c : Choice) : isSynonymLine c.text = false := by
  rw [Bool.eq_false_iff, ne_eq, isSynonymLine_iff]
  exact not_isSynonymLine_of_tildesInside (tildesInside_text c)

/-! ### Bodies -/

theorem Sequence.isRun_text (bars : Bool) :
    (s : Sequence) → s.isFlat = true → IsRun bars s.text
  | .nil, _ => .nil
  | .unit _ isUnit rest, h =>
      .cons (isUnit_of_false isUnit) (Sequence.isRun_text bars rest h)

theorem Choice.isRun_text : (c : Choice) → c.isFlat = true → IsRun true c.text
  | .one only, h => Sequence.isRun_text true only h
  | .bar first rest, h => by
      rw [Choice.isFlat, Bool.and_eq_true] at h
      have hrest : IsRun true (['|'] ++ rest.text) := .cons (.bar rfl) (Choice.isRun_text rest h.2)
      exact (Sequence.isRun_text true first h.1).append hrest

/-- An opening bracket ends any body. -/
theorem splitBody_opening (bars : Bool) (bracket : Bracket) (rest : Text) :
    splitBody bars (bracket.opening :: rest) = ([], bracket.opening :: rest) := by
  refine splitBody_of_stop ?_ ?_ rest
  · cases bracket <;> cases bars <;> decide
  · cases bracket <;> decide

/-- So does a closing one. -/
theorem splitBody_closing (bars : Bool) (bracket : Bracket) (rest : Text) :
    splitBody bars (bracket.closing :: rest) = ([], bracket.closing :: rest) := by
  refine splitBody_of_stop ?_ ?_ rest
  · cases bracket <;> cases bars <;> decide
  · cases bracket <;> decide

/-- **A group is read** where its brackets stand around a run of one unit or more. -/
theorem Bracket.readGroup?_eq_some_iff {bracket : Bracket} {s body rest : Text} :
    readGroup? bracket.opening bracket.closing s = some (body, rest) ↔
      s = bracket.opening :: body ++ bracket.closing :: rest ∧ body ≠ [] ∧ IsRun true body := by
  refine Grammar.readGroup?_eq_some_iff ?_ ?_
  · cases bracket <;> decide
  · cases bracket <;> decide

/-- A body at the start of a sequence with groups ends where the first of them opens. -/
theorem Sequence.splitBody_text (bars : Bool) (tail : Text) : (s : Sequence) → s.isFlat = false →
    ∃ (front : Text) (bracket : Bracket) (rest : Text),
      splitBody bars (s.text ++ tail) = (front, bracket.opening :: rest)
  | .unit text isUnit rest, h => by
      obtain ⟨front, bracket, after, hsplit⟩ := Sequence.splitBody_text bars tail rest h
      refine ⟨text ++ front, bracket, after, ?_⟩
      rw [Sequence.text, List.append_assoc, splitBody_append_of_isUnit (isUnit_of_false isUnit),
        hsplit]
  | .group bracket body rest, _ =>
      ⟨[], bracket, _, splitBody_opening bars bracket _⟩

/-- A body at the start of a choice with groups ends where the first of them opens. -/
theorem Choice.splitBody_text (tail : Text) : (c : Choice) → c.isFlat = false →
    ∃ (front : Text) (bracket : Bracket) (rest : Text),
      splitBody true (c.text ++ tail) = (front, bracket.opening :: rest)
  | .one only, h => Sequence.splitBody_text true tail only h
  | .bar first rest, h => by
      rw [Choice.text, List.append_assoc]
      cases hfirst : first.isFlat with
      | false => exact Sequence.splitBody_text true _ first hfirst
      | true =>
          -- the first alternative is all body, and so is the bar
          have hrest : rest.isFlat = false := by simpa [Choice.isFlat, hfirst] using h
          obtain ⟨front, bracket, after, hsplit⟩ := Choice.splitBody_text tail rest hrest
          refine ⟨first.text ++ '|' :: front, bracket, after, ?_⟩
          rw [splitBody_append_of_isRun (Sequence.isRun_text true first hfirst), List.cons_append,
            splitBody_cons (by decide), hsplit]

theorem Sequence.bar_notMem_text : (s : Sequence) → s.isFlat = true → '|' ∉ s.text
  | .nil, _ => List.not_mem_nil
  | .unit _ isUnit rest, h => by
      intro hmem
      rcases List.mem_append.mp hmem with hmem | hmem
      · exact notMem_of_isUnit isUnit (by decide) hmem
      · exact Sequence.bar_notMem_text rest h hmem

/-- **The alternatives of a flat choice** are what lies between the bars of its text. -/
theorem Choice.pieces_text : (c : Choice) → c.isFlat = true →
    pieces '|' c.text = c.sequences.map Sequence.text
  | .one only, h => pieces_of_notMem (only.bar_notMem_text h)
  | .bar first rest, h => by
      rw [Choice.isFlat, Bool.and_eq_true] at h
      rw [Choice.text, pieces_append_mark (first.bar_notMem_text h.1),
        Choice.pieces_text rest h.2]
      rfl

/-- **A choice reads as a body where it is flat**, and not empty. -/
theorem Choice.isBody_true_text (c : Choice) :
    isBody true c.text = true ↔ c.isFlat = true ∧ c.text ≠ [] := by
  constructor
  · intro h
    obtain ⟨hsplit, hne⟩ := splitBody_of_isBody h
    refine ⟨?_, hne⟩
    by_contra hflat
    obtain ⟨front, bracket, rest, hstop⟩ :=
      Choice.splitBody_text [] c (Bool.eq_false_iff.mpr hflat)
    rw [List.append_nil, hsplit, Prod.mk.injEq] at hstop
    exact absurd hstop.2 (by simp)
  · rintro ⟨hflat, hne⟩
    exact (isBody_iff true c.text).mpr ⟨c.isRun_text hflat, hne⟩

/-- **A choice reads as literal text where it is one flat sequence**, and not empty. -/
theorem Choice.isBody_false_text (c : Choice) :
    isBody false c.text = true ↔ ∃ s : Sequence, c = .one s ∧ s.isFlat = true ∧ s.text ≠ [] := by
  constructor
  · intro h
    obtain ⟨hsplit, hne⟩ := splitBody_of_isBody h
    rw [← List.append_nil c.text] at hsplit
    cases c with
    | one s =>
        refine ⟨s, rfl, ?_, hne⟩
        by_contra hflat
        obtain ⟨front, bracket, rest, hstop⟩ :=
          Sequence.splitBody_text false [] s (Bool.eq_false_iff.mpr hflat)
        rw [Choice.text, hstop, Prod.mk.injEq] at hsplit
        exact absurd hsplit.2 (by simp)
    | bar first rest =>
        -- literal text ends at the bar, or before it where a group opens
        rw [Choice.text, List.append_assoc] at hsplit
        cases hflat : first.isFlat with
        | true =>
            rw [splitBody_append_of_isRun (Sequence.isRun_text false first hflat),
              List.cons_append, splitBody_of_stop (by decide) (by decide), Prod.mk.injEq] at hsplit
            exact absurd hsplit.2 (by simp)
        | false =>
            obtain ⟨front, bracket, after, hstop⟩ :=
              Sequence.splitBody_text false ('|' :: rest.text ++ []) first hflat
            rw [hstop, Prod.mk.injEq] at hsplit
            exact absurd hsplit.2 (by simp)
  · rintro ⟨s, rfl, hflat, hne⟩
    exact (isBody_iff false _).mpr ⟨Sequence.isRun_text false s hflat, hne⟩

end Phrasing.Nested
