import Mathlib.Algebra.BigOperators.Group.List.Basic
import Phrasing.Proofs.Denotation
import Phrasing.Proofs.Sentences

/-!
# `Proofs.Enumeration` — templates without nesting, and the order of their sentences

A flat template is literal text and groups of literal text, in any order. Its round groups are
resolved before its square ones, each kind from the left, and the last variant comes first. So an
expansion enumerates the fillings of the round groups and, for each, those of the square groups, the
left-most group of a kind being the most significant.

## Contents
- **`Literal`**, **`Segment`**, `Flat.text`: flat templates.
- **`Flat.resolutions`**: the ways to fill the groups of a kind; **`Flat.sentences`**: the sentences
  in order.
- **`Flat.length_sentences`**: how many sentences there are.
- **`classify_of_group`**: the group that a text is classified by.
- **`exactly_of_resolutions`**: the induction over the groups of a kind, and `exactly_of_isRun`, where
  it ends.
- **`Setting.perform_attempt_enumerates`**.
-/

namespace Phrasing.Flat

open Text Grammar Nested

/-! ## Flat templates -/

/-- Literal text: plain characters, slots and bars. -/
structure Literal where
  text : Text
  isRun : IsRun true text

namespace Literal

/-- No text at all. -/
def empty : Literal := ⟨[], .nil⟩

/-- The literal texts between the bars. -/
def pieces (literal : Literal) : List Literal :=
  (Text.pieces '|' literal.text).attach.map fun part =>
    ⟨part.1, isRun_true_of_false (isRun_of_mem_pieces literal.isRun part.2)⟩

theorem map_text_pieces (literal : Literal) :
    literal.pieces.map Literal.text = Text.pieces '|' literal.text := by
  simp [pieces]

theorem length_pieces (literal : Literal) :
    literal.pieces.length = (Text.pieces '|' literal.text).length := by
  rw [← map_text_pieces, List.length_map]

/-- The pieces of a literal text have no bars. -/
theorem bar_notMem_of_mem_pieces {literal part : Literal} (h : part ∈ literal.pieces) :
    '|' ∉ part.text := by
  have hmem : part.text ∈ Text.pieces '|' literal.text := by
    rw [← map_text_pieces]
    exact List.mem_map_of_mem h
  exact bar_notMem_of_isRun (isRun_of_mem_pieces literal.isRun hmem)

end Literal

/-- A part of a flat template: literal text, or a group of literal text that is not empty. -/
inductive Segment
  | literal (run : Literal)
  | group (bracket : Bracket) (body : Literal) (ne_nil : body.text ≠ [])

namespace Segment

/-- The segment as it is written. -/
def text : Segment → Text
  | .literal run => run.text
  | .group bracket body _ => bracket.opening :: body.text ++ [bracket.closing]

/-- Whether a segment is a group of a kind. -/
def IsGroup (bracket : Bracket) : Segment → Prop
  | .literal _ => False
  | .group kind _ _ => kind = bracket

/-- Whether a segment is literal text with a bar. -/
def HasBar : Segment → Prop
  | .literal run => '|' ∈ run.text
  | .group _ _ _ => False

/-- In how many ways a segment can be filled: a square group may also be left out. -/
def size : Segment → Nat
  | .literal _ => 1
  | .group .round body _ => (pieces '|' body.text).length
  | .group .square body _ => (pieces '|' body.text).length + 1

end Segment

/-- A flat template as it is written. -/
def text (segments : List Segment) : Text := segments.flatMap Segment.text

/-! ## Sentences in order -/

/-- What can stand in for a group, in order: the last piece of the body first, and before that
    nothing, if the group is square. -/
def fillings : Bracket → Literal → List Literal
  | .round, body => body.pieces.reverse
  | .square, body => .empty :: body.pieces.reverse

/-- What can stand in for a segment when the groups of a kind are filled. -/
def Segment.choices (bracket : Bracket) : Segment → List Segment
  | .literal run => [.literal run]
  | .group kind body ne_nil =>
      if kind = bracket then (fillings bracket body).map .literal else [.group kind body ne_nil]

/-- **The ways to fill the groups of a kind**, in order: the first group is the most significant. -/
def resolutions (bracket : Bracket) : List Segment → List (List Segment)
  | [] => [[]]
  | first :: rest =>
      (first.choices bracket).flatMap fun choice =>
        (resolutions bracket rest).map fun chosen => choice :: chosen

/-- The parts of a text between its bars, the last first, but for empty ones. -/
def parts (s : Text) : List Text := (pieces '|' s).reverse.filter (· ≠ [])

/-- **The sentences of a flat template**, in order: for each way to fill the round groups, and then
    each way to fill the square groups, the parts of the text. -/
def sentences (segments : List Segment) : List Text :=
  (resolutions .round segments).flatMap fun chosen =>
    (resolutions .square chosen).flatMap fun full => parts (text full)

/-! ## What is in a flat template -/

/-- A flat template without the groups of a kind. -/
def Without (bracket : Bracket) (segments : List Segment) : Prop :=
  ∀ segment ∈ segments, ¬ segment.IsGroup bracket

theorem text_append (xs ys : List Segment) : text (xs ++ ys) = text xs ++ text ys :=
  List.flatMap_append

theorem without_append {bracket : Bracket} {xs ys : List Segment} :
    Without bracket (xs ++ ys) ↔ Without bracket xs ∧ Without bracket ys :=
  List.forall_mem_append

theorem Segment.IsGroup.exists_eq {bracket : Bracket} {segment : Segment}
    (h : segment.IsGroup bracket) : ∃ body ne_nil, segment = .group bracket body ne_nil := by
  cases segment with
  | literal run => exact absurd h id
  | group kind body ne_nil =>
      have hkind : kind = bracket := h
      rw [hkind]
      exact ⟨body, ne_nil, rfl⟩

/-- Brackets are in no literal text. -/
theorem Literal.opening_notMem (literal : Literal) (bracket : Bracket) :
    bracket.opening ∉ literal.text := by
  cases bracket <;> exact notMem_of_isRun literal.isRun (by decide) (by decide)

theorem Literal.dollar_notMem (literal : Literal) : '$' ∉ literal.text :=
  notMem_of_isRun literal.isRun (by decide) (by decide)

/-- There are no variables. -/
theorem dollar_notMem_text (segments : List Segment) : '$' ∉ text segments := by
  intro hmem
  obtain ⟨segment, -, hsegment⟩ := List.mem_flatMap.mp hmem
  cases segment with
  | literal run => exact run.dollar_notMem hsegment
  | group bracket body ne_nil =>
      have hbody := body.dollar_notMem
      cases bracket <;> simp [Segment.text, Bracket.opening, Bracket.closing, hbody] at hsegment

/-- Without the groups of a kind, their opening bracket does not occur. -/
theorem opening_notMem_text {bracket : Bracket} {segments : List Segment}
    (h : Without bracket segments) : bracket.opening ∉ text segments := by
  intro hmem
  obtain ⟨segment, hin, hsegment⟩ := List.mem_flatMap.mp hmem
  have hnot := h segment hin
  cases segment with
  | literal run => exact run.opening_notMem bracket hsegment
  | group kind body ne_nil =>
      have hbody := body.opening_notMem bracket
      cases bracket <;> cases kind <;>
        simp_all [Segment.text, Segment.IsGroup, Bracket.opening, Bracket.closing]

/-- Without groups, a flat template is a run. -/
theorem isRun_text {segments : List Segment} (hround : Without .round segments)
    (hsquare : Without .square segments) : IsRun true (text segments) := by
  induction segments with
  | nil => exact .nil
  | cons first rest ih =>
      have hrest : IsRun true (text rest) :=
        ih (fun segment h => hround segment (List.mem_cons_of_mem _ h))
          (fun segment h => hsquare segment (List.mem_cons_of_mem _ h))
      cases first with
      | literal run => exact run.isRun.append hrest
      | group bracket body ne_nil =>
          cases bracket with
          | round => exact absurd rfl (hround _ List.mem_cons_self)
          | square => exact absurd rfl (hsquare _ List.mem_cons_self)

/-- Nor has it a bar, if no literal text has. -/
theorem bar_notMem_text {segments : List Segment} (hround : Without .round segments)
    (hsquare : Without .square segments) (hbar : ∀ segment ∈ segments, ¬ segment.HasBar) :
    '|' ∉ text segments := by
  intro hmem
  obtain ⟨segment, hsegment, hmem⟩ := List.mem_flatMap.mp hmem
  cases segment with
  | literal run => exact hbar _ hsegment hmem
  | group bracket body ne_nil =>
      cases bracket with
      | round => exact hround _ hsegment rfl
      | square => exact hsquare _ hsegment rfl

/-! ## What is left after filling -/

/-- The ways to fill the groups of a kind, by the choice at the first segment. -/
theorem flatMap_resolutions_cons {α : Type} (bracket : Bracket) (first : Segment)
    (rest : List Segment) (given : List Segment → List α) :
    (resolutions bracket (first :: rest)).flatMap given =
      (first.choices bracket).flatMap fun choice =>
        (resolutions bracket rest).flatMap fun chosen => given (choice :: chosen) := by
  rw [resolutions, List.flatMap_assoc]
  simp only [List.flatMap_map]

/-- What holds of all that can stand in for the segments holds in each way to fill the groups. -/
theorem forall_mem_resolutions {bracket : Bracket} {P : Segment → Prop} {segments : List Segment}
    (h : ∀ segment ∈ segments, ∀ choice ∈ segment.choices bracket, P choice) :
    ∀ chosen ∈ resolutions bracket segments, ∀ segment ∈ chosen, P segment := by
  induction segments with
  | nil =>
      intro chosen hchosen segment hsegment
      rw [List.mem_singleton.mp hchosen] at hsegment
      exact absurd hsegment List.not_mem_nil
  | cons first rest ih =>
      intro chosen hchosen segment hsegment
      obtain ⟨choice, hchoice, hchosen⟩ := List.mem_flatMap.mp hchosen
      obtain ⟨others, hothers, rfl⟩ := List.mem_map.mp hchosen
      rcases List.mem_cons.mp hsegment with rfl | hsegment
      · exact h first List.mem_cons_self _ hchoice
      · exact ih (fun s hs => h s (List.mem_cons_of_mem _ hs)) others hothers segment hsegment

/-- The fillings stand in for a group of the kind, -/
theorem Segment.choices_group {bracket : Bracket} {body : Literal} (ne_nil : body.text ≠ []) :
    (Segment.group bracket body ne_nil).choices bracket =
      (fillings bracket body).map .literal := if_pos rfl

/-- and all other segments for themselves. -/
theorem Segment.choices_of_not_isGroup {bracket : Bracket} {segment : Segment}
    (h : ¬ segment.IsGroup bracket) : segment.choices bracket = [segment] := by
  cases segment with
  | literal run => rfl
  | group kind body ne_nil => exact if_neg h

/-- **What can stand in for a segment**: the segment, if it is no group of the kind, and otherwise one
    of the fillings of the group. -/
theorem eq_or_fills_of_mem_choices {bracket : Bracket} {segment choice : Segment}
    (h : choice ∈ segment.choices bracket) :
    (¬ segment.IsGroup bracket ∧ choice = segment) ∨
      ∃ body ne_nil, segment = .group bracket body ne_nil ∧
        ∃ run ∈ fillings bracket body, choice = .literal run := by
  by_cases hgroup : segment.IsGroup bracket
  · obtain ⟨body, ne_nil, rfl⟩ := hgroup.exists_eq
    rw [Segment.choices_group] at h
    obtain ⟨run, hrun, rfl⟩ := List.mem_map.mp h
    exact Or.inr ⟨body, ne_nil, rfl, run, hrun, rfl⟩
  · rw [Segment.choices_of_not_isGroup hgroup] at h
    exact Or.inl ⟨hgroup, List.mem_singleton.mp h⟩

/-- It is no group of the kind, and none of any other kind unless the segment is. -/
theorem not_isGroup_of_mem_choices {bracket : Bracket} {segment choice : Segment}
    (h : choice ∈ segment.choices bracket) :
    ¬ choice.IsGroup bracket ∧ ∀ kind, ¬ segment.IsGroup kind → ¬ choice.IsGroup kind := by
  rcases eq_or_fills_of_mem_choices h with ⟨hnot, rfl⟩ | ⟨_, _, _, run, _, rfl⟩
  · exact ⟨hnot, fun _ => id⟩
  · exact ⟨id, fun _ _ => id⟩

/-- Fillings have no bars. -/
theorem bar_notMem_of_mem_fillings {bracket : Bracket} {body run : Literal}
    (h : run ∈ fillings bracket body) : '|' ∉ run.text := by
  cases bracket with
  | round => exact Literal.bar_notMem_of_mem_pieces (List.mem_reverse.mp h)
  | square =>
      rcases List.mem_cons.mp h with rfl | h
      · exact List.not_mem_nil
      · exact Literal.bar_notMem_of_mem_pieces (List.mem_reverse.mp h)

/-- No group of the kind is left, -/
theorem without_of_mem_resolutions {bracket : Bracket} {segments chosen : List Segment}
    (h : chosen ∈ resolutions bracket segments) : Without bracket chosen := by
  refine forall_mem_resolutions ?_ chosen h
  intro segment _ choice hchoice
  exact (not_isGroup_of_mem_choices hchoice).1

/-- no group of another kind has come in, -/
theorem Without.of_mem_resolutions {bracket kind : Bracket} {segments chosen : List Segment}
    (hsegments : Without kind segments) (h : chosen ∈ resolutions bracket segments) :
    Without kind chosen := by
  refine forall_mem_resolutions ?_ chosen h
  intro segment hsegment choice hchoice
  exact (not_isGroup_of_mem_choices hchoice).2 kind (hsegments segment hsegment)

/-- and no bar. -/
theorem not_hasBar_of_mem_resolutions {bracket : Bracket} {segments chosen : List Segment}
    (hsegments : ∀ segment ∈ segments, ¬ segment.HasBar)
    (h : chosen ∈ resolutions bracket segments) : ∀ segment ∈ chosen, ¬ segment.HasBar := by
  refine forall_mem_resolutions ?_ chosen h
  intro segment hsegment choice hchoice
  rcases eq_or_fills_of_mem_choices hchoice with ⟨_, rfl⟩ | ⟨_, _, _, run, hrun, rfl⟩
  · exact hsegments _ hsegment
  · exact bar_notMem_of_mem_fillings hrun

/-! ## Counting -/

/-- There is a way to fill the groups of a kind for each choice at each of the segments. -/
theorem length_resolutions (bracket : Bracket) (segments : List Segment) :
    (resolutions bracket segments).length =
      (segments.map fun segment => (segment.choices bracket).length).prod := by
  induction segments with
  | nil => rfl
  | cons first rest ih =>
      rw [resolutions, List.length_flatMap, List.map_cons, List.prod_cons, ← ih]
      simp

/-- Filling round groups leaves the choices at square groups as they are. -/
theorem map_length_choices_square {segments chosen : List Segment}
    (h : chosen ∈ resolutions .round segments) :
    (chosen.map fun segment => (segment.choices .square).length) =
      segments.map fun segment => (segment.choices .square).length := by
  induction segments generalizing chosen with
  | nil => rw [List.mem_singleton.mp h]
  | cons first rest ih =>
      obtain ⟨choice, hchoice, h⟩ := List.mem_flatMap.mp h
      obtain ⟨others, hothers, rfl⟩ := List.mem_map.mp h
      rw [List.map_cons, List.map_cons, ih hothers]
      congr 1
      rcases eq_or_fills_of_mem_choices hchoice with ⟨_, rfl⟩ | ⟨body, ne_nil, rfl, run, _, rfl⟩
      · rfl
      · rfl

/-- The size of a segment counts the choices at it, round and square. -/
theorem Segment.size_eq (segment : Segment) :
    segment.size = (segment.choices .round).length * (segment.choices .square).length := by
  cases segment with
  | literal run => rfl
  | group bracket body ne_nil =>
      cases bracket with
      | round => simp [Segment.size, Segment.choices, fillings, Literal.length_pieces]
      | square => simp [Segment.size, Segment.choices, fillings, Literal.length_pieces]

/-- **The number of sentences** is the product of the sizes, if no literal text has a bar and no way to
    fill the groups gives the empty text. -/
theorem length_sentences {segments : List Segment} (hbar : ∀ segment ∈ segments, ¬ segment.HasBar)
    (hne : ∀ chosen ∈ resolutions .round segments, ∀ full ∈ resolutions .square chosen,
      text full ≠ []) :
    (sentences segments).length = (segments.map Segment.size).prod := by
  have hparts : ∀ chosen ∈ resolutions .round segments, ∀ full ∈ resolutions .square chosen,
      (parts (text full)).length = 1 := by
    intro chosen hchosen full hfull
    have hfullBar := not_hasBar_of_mem_resolutions
      (not_hasBar_of_mem_resolutions hbar hchosen) hfull
    have hnoBar := bar_notMem_text ((without_of_mem_resolutions hchosen).of_mem_resolutions hfull)
      (without_of_mem_resolutions hfull) hfullBar
    rw [parts, pieces_of_notMem hnoBar]
    simp [hne chosen hchosen full hfull]
  have hsquares : ∀ chosen ∈ resolutions .round segments,
      ((resolutions .square chosen).flatMap fun full => parts (text full)).length =
        (segments.map fun segment => (segment.choices .square).length).prod := by
    intro chosen hchosen
    rw [List.length_flatMap, List.map_congr_left (hparts chosen hchosen),
      ← map_length_choices_square hchosen, ← length_resolutions]
    simp
  rw [sentences, List.length_flatMap, List.map_congr_left hsquares]
  rw [funext Segment.size_eq, List.prod_map_mul, ← length_resolutions .round]
  simp

/-! ## The next group -/

/-- **The first group of a kind is found**; a square one, if there are no round ones. -/
theorem classify_of_group {bracket : Bracket} {before body after s : Text}
    (htext : s = before ++ (bracket.opening :: body ++ bracket.closing :: after))
    (hbody : IsRun true body) (hne : body ≠ []) (hbefore : bracket.opening ∉ before)
    (hdollar : '$' ∉ s) (hround : bracket = .square → '(' ∉ s) :
    classify s = ⟨⟨before, body, after⟩, bracket.rule⟩ := by
  have hread : readGroup? bracket.opening bracket.closing
      (bracket.opening :: body ++ bracket.closing :: after) = some (body, after) := by
    rw [Bracket.readGroup?_eq_some_iff]
    exact ⟨rfl, hne, hbody⟩
  have hfind : findFirst (readGroup? bracket.opening bracket.closing) s =
      some ⟨before, body, after⟩ := by
    rw [htext]
    exact findFirst_append (fun _ cs hc => readGroup?_of_ne hc cs) hbefore hread
      (List.cons_ne_nil _ _)
  have hopening : bracket.opening ∈ s := by
    rw [htext]
    exact List.mem_append_right _ List.mem_cons_self
  have hvanilla : ¬ isBody false s = true := by
    cases bracket <;> exact not_isBody_of_mem hopening (by decide) (by decide)
  rw [classify, if_neg hvanilla,
    findFirst_eq_none_of_notMem (fun _ cs hc => readReference?_of_ne hc cs) hdollar]
  cases bracket with
  | round =>
      have hfind : findFirst (readGroup? '(' ')') s = some ⟨before, body, after⟩ := hfind
      rw [hfind]
      rfl
  | square =>
      have hnone : findFirst (readGroup? '(' ')') s = none :=
        findFirst_eq_none_of_notMem (fun _ cs hc => readGroup?_of_ne hc cs) (hround rfl)
      have hfind : findFirst (readGroup? '[' ']') s = some ⟨before, body, after⟩ := hfind
      rw [hnone, hfind]
      rfl

/-- The group behind the segments that are settled is found. -/
theorem classify_text_group {bracket : Bracket} {settled rest : List Segment} {body : Literal}
    (ne_nil : body.text ≠ []) (hsettled : Without bracket settled)
    (hround : bracket = .square → Without .round (settled ++ .group bracket body ne_nil :: rest)) :
    classify (text (settled ++ .group bracket body ne_nil :: rest)) =
      ⟨⟨text settled, body.text, text rest⟩, bracket.rule⟩ := by
  apply classify_of_group _ body.isRun ne_nil (opening_notMem_text hsettled) (dollar_notMem_text _)
  · intro hsquare
    exact opening_notMem_text (hround hsquare)
  · rw [text_append]
    simp [text, Segment.text]

/-- The choices are the fillings, the last first. -/
theorem choices_text_group (bracket : Bracket) (settled rest : List Segment) (body : Literal) :
    (Classification.mk ⟨text settled, body.text, text rest⟩ bracket.rule).choices =
      (fillings bracket body).reverse.map fun run => text (settled ++ .literal run :: rest) := by
  have hfill : ∀ runs : List Literal,
      (runs.map Literal.text).map
          (Classification.mk ⟨text settled, body.text, text rest⟩ bracket.rule).fill =
        runs.map fun run => text (settled ++ .literal run :: rest) := by
    intro runs
    rw [List.map_map]
    refine List.map_congr_left fun run _ => ?_
    simp [Classification.fill, text, Segment.text]
  have hpieces := hfill body.pieces
  rw [body.map_text_pieces] at hpieces
  cases bracket with
  | round =>
      show (pieces '|' body.text).map _ = _
      rw [hpieces, fillings, List.reverse_reverse]
  | square =>
      show (pieces '|' body.text).map _ ++ _ = _
      rw [hpieces, fillings, List.reverse_cons, List.reverse_reverse, List.map_append]
      exact congrArg (List.map _ body.pieces ++ ·) (hfill [.empty])

end Phrasing.Flat

namespace Phrasing

open Text Grammar Nested Flat

/-! ## What a flat template yields -/

namespace Setting

variable (setting : Setting) (template : Text) (depth : Nat)

/-- A run without bars yields itself, if it is not empty. -/
theorem exactly_of_isRun_false {s : Text} (h : IsRun false s) :
    (setting.yield template s depth).Exactly ([s].filter (· ≠ [])) := by
  by_cases hne : s = []
  · subst hne
    rw [yield_of_unrecognized (by rw [classify_nil]; rfl)]
    exact ⟨rfl, rfl⟩
  · have hrule := classify_of_isRun (isRun_true_of_false h) hne
    rw [if_neg (bar_notMem_of_isRun h)] at hrule
    rw [yield_of_vanilla (by rw [hrule]; rfl)]
    exact ⟨rfl, by simp [hne]⟩

/-- **A run yields its parts.** -/
theorem exactly_of_isRun {s : Text} (h : IsRun true s) :
    (setting.yield template s depth).Exactly (parts s) := by
  by_cases hbar : '|' ∈ s
  · have hrule := classify_of_isRun h (List.ne_nil_of_mem hbar)
    rw [if_pos hbar] at hrule
    have hparts : parts s = (pieces '|' s).reverse.flatMap fun part => [part].filter (· ≠ []) := by
      rw [parts, ← List.filter_flatMap, List.flatMap_singleton']
    rw [hparts]
    apply exactly_of_isChoice
    · rw [hrule]
      exact Or.inr (Or.inr rfl)
    · rw [hrule, List.reverse_reverse]
      rfl
    · intro part hpart
      have hrun := isRun_of_mem_pieces h (List.mem_reverse.mp hpart)
      have hfill : [] ++ part ++ [] = part := by rw [List.nil_append, List.append_nil]
      show (setting.yield template ([] ++ part ++ []) depth).Exactly _
      rw [hfill]
      exact exactly_of_isRun_false setting template depth hrun
  · have hpieces := pieces_of_notMem hbar
    have hrun : IsRun false s := by
      apply isRun_of_mem_pieces h
      rw [hpieces]
      exact List.mem_singleton_self s
    rw [parts, hpieces, List.reverse_singleton]
    exact exactly_of_isRun_false setting template depth hrun

/-- **The groups of a kind are filled in order.** Where the texts without the kind yield given
    sentences, a text yields those of all the ways to fill its groups, one way after the other. -/
theorem exactly_of_resolutions {bracket : Bracket} {given : List Segment → List Text}
    (hgiven : ∀ full, Without bracket full → (bracket = .square → Without .round full) →
      (setting.yield template (text full) depth).Exactly (given full))
    (settled pending : List Segment) (hsettled : Without bracket settled)
    (hround : bracket = .square → Without .round (settled ++ pending)) :
    (setting.yield template (text (settled ++ pending)) depth).Exactly
      ((resolutions bracket pending).flatMap fun chosen => given (settled ++ chosen)) := by
  -- the segments before the first group of the kind are settled, and so is what stands in for it
  induction pending generalizing settled with
  | nil =>
      rw [List.append_nil] at hround ⊢
      simpa [resolutions] using hgiven settled hsettled hround
  | cons first rest ih =>
      have hchoice : ∀ choice ∈ first.choices bracket,
          (setting.yield template (text (settled ++ choice :: rest)) depth).Exactly
            ((resolutions bracket rest).flatMap fun chosen =>
              given (settled ++ choice :: chosen)) := by
        intro choice hchoice
        obtain ⟨hnot, hnotRound⟩ := not_isGroup_of_mem_choices hchoice
        have hsettled' : Without bracket (settled ++ [choice]) :=
          without_append.mpr ⟨hsettled, List.forall_mem_singleton.mpr hnot⟩
        have hround' : bracket = .square → Without .round (settled ++ [choice] ++ rest) := by
          intro hsquare
          obtain ⟨hbefore, hafter⟩ := without_append.mp (hround hsquare)
          obtain ⟨hfirst, hrest⟩ := List.forall_mem_cons.mp hafter
          rw [without_append, without_append]
          exact ⟨⟨hbefore, List.forall_mem_singleton.mpr (hnotRound .round hfirst)⟩, hrest⟩
        have hexactly := ih (settled ++ [choice]) hsettled' hround'
        simp only [List.append_assoc, List.singleton_append] at hexactly
        exact hexactly
      rw [flatMap_resolutions_cons]
      by_cases hgroup : first.IsGroup bracket
      · obtain ⟨body, ne_nil, rfl⟩ := hgroup.exists_eq
        rw [Segment.choices_group, List.flatMap_map]
        have hclassify := classify_text_group ne_nil hsettled hround
        apply exactly_of_isChoice
        · rw [hclassify]
          cases bracket with
          | round => exact Or.inl rfl
          | square => exact Or.inr (Or.inl rfl)
        · rw [hclassify]
          exact choices_text_group bracket settled rest body
        · intro run hrun
          apply hchoice
          rw [Segment.choices_group]
          exact List.mem_map_of_mem hrun
      · rw [Segment.choices_of_not_isGroup hgroup] at hchoice ⊢
        rw [List.flatMap_singleton]
        exact hchoice first (List.mem_singleton_self first)

/-- **A flat template yields its sentences**, in their order. -/
theorem exactly_sentences (segments : List Segment) :
    (setting.yield template (text segments) depth).Exactly (sentences segments) := by
  have hfull : ∀ full, Without .square full → (Bracket.square = .square → Without .round full) →
      (setting.yield template (text full) depth).Exactly (parts (text full)) := by
    intro full hsquare hround
    exact exactly_of_isRun setting template depth (isRun_text (hround rfl) hsquare)
  have hchosen : ∀ chosen, Without .round chosen →
      (Bracket.round = .square → Without .round chosen) →
      (setting.yield template (text chosen) depth).Exactly
        ((resolutions .square chosen).flatMap fun full => parts (text full)) := by
    intro chosen hround _
    exact exactly_of_resolutions setting template depth hfull [] chosen (List.forall_mem_nil _)
      fun _ => hround
  apply exactly_of_resolutions setting template depth hchosen [] segments (List.forall_mem_nil _)
  intro hsquare
  exact absurd hsquare (by decide)

/-! ## Expansions -/

/-- **An expansion enumerates the sentences of a flat template**, whatever the variables and the
    options. Where no literal text has a bar and none of the texts is empty, there are as many as the
    sizes of the segments say. -/
theorem perform_attempt_enumerates (setting : Setting) (segments : List Segment)
    (output : Array Text) :
    (setting.perform .attempt (text segments) output).result = .ok (sentences segments).length ∧
      (setting.perform .attempt (text segments) output).output =
        output ++ (sentences segments).toArray ∧
      ((∀ segment ∈ segments, ¬ segment.HasBar) →
        (∀ chosen ∈ resolutions .round segments, ∀ full ∈ resolutions .square chosen,
          text full ≠ []) →
        (sentences segments).length = (segments.map Segment.size).prod) := by
  obtain ⟨herror, hsentences⟩ := exactly_sentences setting (text segments) 0 segments
  refine ⟨?_, ?_, length_sentences⟩
  · rw [result_attempt, Yield.result, herror, hsentences]
  · rw [output_attempt, hsentences]

/-- The segments of `[a|b]x(c|d)`. -/
def optionBeforeChoice : List Segment :=
  [.group .square ⟨"a|b".toList, ((isBody_iff true _).mp (by decide +kernel)).1⟩ (by decide),
    .literal ⟨"x".toList, ((isBody_iff true _).mp (by decide +kernel)).1⟩,
    .group .round ⟨"c|d".toList, ((isBody_iff true _).mp (by decide +kernel)).1⟩ (by decide)]

/-- The round group is the more significant one, also behind a square group. -/
theorem perform_attempt_enumerates_optionBeforeChoice :
    text optionBeforeChoice = "[a|b]x(c|d)".toList ∧
      (∀ setting : Setting,
        (setting.perform .attempt (text optionBeforeChoice) #[]).output =
          #["xd".toList, "bxd".toList, "axd".toList, "xc".toList, "bxc".toList, "axc".toList]) ∧
      (sentences optionBeforeChoice).length = 3 * (1 * 2) := by
  have hsentences : sentences optionBeforeChoice =
      ["xd".toList, "bxd".toList, "axd".toList, "xc".toList, "bxc".toList, "axc".toList] := by
    decide +kernel
  have hbar : ∀ segment ∈ optionBeforeChoice, ¬ segment.HasBar := by
    simp [optionBeforeChoice, Segment.HasBar]
  have hne : ∀ chosen ∈ resolutions .round optionBeforeChoice,
      ∀ full ∈ resolutions .square chosen, text full ≠ [] := by decide +kernel
  refine ⟨by decide, ?_, ?_⟩
  · intro setting
    rw [(perform_attempt_enumerates setting optionBeforeChoice #[]).2.1, hsentences]
    rfl
  · exact (perform_attempt_enumerates ⟨.empty, {}⟩ optionBeforeChoice #[]).2.2 hbar hne

end Setting

end Phrasing
