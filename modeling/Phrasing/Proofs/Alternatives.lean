import Phrasing.Proofs.SlotSearch

/-!
# `Proofs.Alternatives` — a choice cuts no slot

The construct of a choice ends at its brackets, and its body is cut at its bars, wherever they stand. No
slot has any of these characters. So each slot of the text lies in front of the construct, behind it or
in one alternative, and the slots outside the construct are kept by every variant.

## Contents
- **`Text.append_mark_cases`**: a part without the mark lies on one side of it.
- **`Text.placed`**: texts with marks between them, and the bytes at which they start.
- **`Classification.parts`**, **`Classification.places`**: what choices put in the place of the
  construct, and where the alternatives lie in the text.
- **`Classification.Spares`**, **`Slot.Within`**: slots outside the construct and inside an alternative.
- **`slot_cases_of_isChoice`**: there are no others.
- **`choices_keep_slots`**.
-/

namespace Phrasing

open Text Grammar Nested

namespace Text

/-! ## Parts on one side of a mark -/

/-- **A part without the mark lies on one side of it.** -/
theorem append_mark_cases {mark : Char} {front rest before part after : Text} (hmark : mark ∉ part)
    (h : front ++ mark :: rest = before ++ part ++ after) :
    (∃ gap, front = before ++ part ++ gap) ∨
      ∃ gap, before = front ++ mark :: gap ∧ rest = gap ++ part ++ after := by
  rw [List.append_assoc] at h
  rcases List.append_eq_append_iff.mp h with ⟨later, rfl, hlater⟩ | ⟨later, rfl, hlater⟩
  · -- the part begins behind the front
    cases later with
    | nil =>
        rw [List.nil_append] at hlater
        cases part with
        | nil => exact Or.inl ⟨[], by simp⟩
        | cons c cs =>
            obtain ⟨rfl, -⟩ := List.cons.inj hlater
            exact absurd List.mem_cons_self hmark
    | cons c gap =>
        obtain ⟨rfl, hrest⟩ := List.cons.inj hlater
        exact Or.inr ⟨gap, rfl, by rw [List.append_assoc]; exact hrest⟩
  · -- it begins in front of the mark and would reach over it, if it did not end there
    rcases List.append_eq_append_iff.mp hlater with ⟨gap, rfl, -⟩ | ⟨gap, rfl, hgap⟩
    · exact Or.inl ⟨gap, by rw [List.append_assoc]⟩
    · cases gap with
      | nil => exact Or.inl ⟨[], by simp⟩
      | cons c cs =>
          obtain ⟨rfl, -⟩ := List.cons.inj hgap
          exact absurd (List.mem_append_right later List.mem_cons_self) hmark

/-! ## Texts with marks between them -/

/-- The texts with the bytes at which they start, a mark standing between each and the next. -/
def placed (mark : Char) (start : Nat) : List Text → List (Nat × Text)
  | [] => []
  | part :: parts => (start, part) :: placed mark (start + byteSize part + mark.utf8Size) parts

theorem map_snd_placed (mark : Char) (start : Nat) (parts : List Text) :
    (placed mark start parts).map Prod.snd = parts := by
  induction parts generalizing start with
  | nil => rfl
  | cons part rest ih => rw [placed, List.map_cons, ih]

/-- A text is found at its place in the texts together. -/
theorem exists_append_of_mem_placed {mark : Char} {start : Nat} {parts : List Text}
    {place : Nat × Text} (h : place ∈ placed mark start parts) :
    ∃ before after, join mark parts = before ++ place.2 ++ after ∧
      place.1 = start + byteSize before := by
  induction parts generalizing start with
  | nil => exact absurd h List.not_mem_nil
  | cons part rest ih =>
      cases rest with
      | nil =>
          obtain rfl : place = (start, part) := List.mem_singleton.mp h
          exact ⟨[], [], by simp [join], rfl⟩
      | cons next others =>
          rcases List.mem_cons.mp h with rfl | h
          · exact ⟨[], mark :: join mark (next :: others), rfl, rfl⟩
          · obtain ⟨before, after, hjoin, hplace⟩ := ih h
            refine ⟨part ++ mark :: before, after, ?_, ?_⟩
            · rw [join, hjoin]
              · simp
              · simp
            · rw [hplace, byteSize_append, byteSize_cons]
              omega

/-- **A part without marks lies in one of the texts.** -/
theorem exists_mem_placed {mark : Char} {part : Text} (hmark : mark ∉ part) (start : Nat)
    {parts : List Text} (hne : parts ≠ []) {before after : Text}
    (h : join mark parts = before ++ part ++ after) :
    ∃ place ∈ placed mark start parts, ∃ front back, place.2 = front ++ part ++ back ∧
      place.1 + byteSize front = start + byteSize before := by
  induction parts generalizing start before with
  | nil => exact absurd rfl hne
  | cons first rest ih =>
      cases rest with
      | nil => exact ⟨(start, first), List.mem_cons_self, before, after, h, rfl⟩
      | cons next others =>
          rcases append_mark_cases hmark h with ⟨gap, hfirst⟩ | ⟨later, rfl, hlater⟩
          · exact ⟨(start, first), List.mem_cons_self, before, gap, hfirst, rfl⟩
          · obtain ⟨place, hplace, front, back, hpart, hstart⟩ :=
              ih (start + byteSize first + mark.utf8Size) (List.cons_ne_nil _ _) hlater
            refine ⟨place, List.mem_cons_of_mem _ hplace, front, back, hpart, ?_⟩
            rw [hstart, byteSize_append, byteSize_cons]
            omega

/-- **No two texts share a byte**, nor do they touch each other. -/
theorem eq_of_mem_placed {mark : Char} {start position : Nat} {parts : List Text}
    {place other : Nat × Text} (hplace : place ∈ placed mark start parts)
    (hother : other ∈ placed mark start parts)
    (hin : place.1 ≤ position ∧ position ≤ place.1 + byteSize place.2)
    (hin' : other.1 ≤ position ∧ position ≤ other.1 + byteSize other.2) : place = other := by
  induction parts generalizing start with
  | nil => exact absurd hplace List.not_mem_nil
  | cons part rest ih =>
      -- the mark behind the first text keeps the others apart from it
      have hapart : ∀ later ∈ placed mark (start + byteSize part + mark.utf8Size) rest,
          start + byteSize part < later.1 := by
        intro later hlater
        obtain ⟨before, -, -, hstart⟩ := exists_append_of_mem_placed hlater
        have hmark := mark.utf8Size_pos
        omega
      rcases List.mem_cons.mp hplace with rfl | hplace
      · rcases List.mem_cons.mp hother with rfl | hother
        · rfl
        · exact absurd (Nat.le_trans hin'.1 hin.2) (Nat.not_le_of_lt (hapart other hother))
      · rcases List.mem_cons.mp hother with rfl | hother
        · exact absurd (Nat.le_trans hin.1 hin'.2) (Nat.not_le_of_lt (hapart place hplace))
        · exact ih hplace hother

end Text

/-! ## Marks of a construct -/

namespace Rule

/-- What is written in front of the body of a construct. -/
def lead : Rule → Text
  | reference => ['$']
  | round => ['(']
  | square => ['[']
  | _ => []

/-- What is written behind it. -/
def trail : Rule → Text
  | round => [')']
  | square => [']']
  | _ => []

theorem construct_eq (rule : Rule) (body : Text) :
    rule.construct body = rule.lead ++ body ++ rule.trail := by
  cases rule <;> simp [construct, lead, trail]

/-- The marks of a choice are the brackets of a group, or there are none. -/
theorem marks_of_isChoice {rule : Rule} (h : rule.IsChoice) :
    (∃ bracket : Bracket, rule.lead = [bracket.opening] ∧ rule.trail = [bracket.closing]) ∨
      rule = .bare := by
  rcases h with rfl | rfl | rfl
  · exact Or.inl ⟨.round, rfl, rfl⟩
  · exact Or.inl ⟨.square, rfl, rfl⟩
  · exact Or.inr rfl

end Rule

/-! ## What is put in the place of a construct -/

namespace Classification

/-- What the choices put in the place of the construct: the alternatives and, where the choice is
    optional, nothing. -/
def parts (c : Classification) : List Text :=
  match c.rule with
  | .square => c.alternatives ++ [[]]
  | _ => c.alternatives

/-- The alternatives with the bytes of the text at which they start. -/
def places (c : Classification) : List (Nat × Text) :=
  placed '|' (c.start + byteSize c.rule.lead) c.alternatives

theorem choices_eq_map_parts {c : Classification} (h : c.rule.IsChoice) :
    c.choices = c.parts.map c.fill := by
  rcases h with h | h | h <;> simp [choices, parts, h]

/-- **A slot outside the construct** lies in front of it or behind it, and every variant has the slot:
    in the same place, or as far behind the replacement as it was behind the construct. -/
inductive Spares (c : Classification) (position : Nat) (slot : Slot) : Prop
  | front : position + byteSize slot.render ≤ c.start →
      (∀ part ∈ c.parts, Slot.BeginsAt (c.fill part) position slot) → Spares c position slot
  | behind (gap : Nat) : position = c.stop + gap →
      (∀ part ∈ c.parts, Slot.BeginsAt (c.fill part) (c.start + byteSize part + gap) slot) →
      Spares c position slot

end Classification

/-- A slot that begins at a byte lies within a text at another. -/
def Slot.Within (slot : Slot) (position : Nat) (place : Nat × Text) : Prop :=
  place.1 ≤ position ∧ position + byteSize slot.render ≤ place.1 + byteSize place.2

/-! ## Choices -/

section Choices

variable {s : Text}

/-- The body of a choice is a run. -/
theorem isRun_body_of_isChoice (h : (classify s).rule.IsChoice) : IsRun true (classify s).body := by
  have hlocates := locates_classify s
  have hfits := (fits_classify s).1
  unfold Locates at hlocates
  rcases h with h | h | h
  · rw [h] at hlocates
    exact hlocates.2.2
  · rw [h] at hlocates
    exact hlocates.2.2
  · rw [h] at hlocates hfits
    rw [hlocates.2.1]
    exact hfits.1

/-- **Alternatives are sentences**, apart from empty ones. -/
theorem eq_nil_or_vanilla_of_mem_alternatives (h : (classify s).rule.IsChoice) {part : Text}
    (hpart : part ∈ (classify s).alternatives) : part = [] ∨ (classify part).rule = .vanilla := by
  have hrun : IsRun false part := isRun_of_mem_pieces (isRun_body_of_isChoice h) hpart
  by_cases hne : part = []
  · exact Or.inl hne
  · refine Or.inr ?_
    rw [classify_of_isRun (isRun_true_of_false hrun) hne, if_neg (bar_notMem_of_isRun hrun)]
    rfl

/-- A choice without brackets has two alternatives or more. -/
theorem two_le_length_alternatives (h : (classify s).rule = .bare) :
    2 ≤ (classify s).alternatives.length := by
  have hbar := List.count_pos_iff.mpr (bar_mem_of_bare h)
  rw [Classification.alternatives, length_pieces]
  omega

/-- **Every variant takes fewer bytes** than the text. -/
theorem byteSize_fill_lt (h : (classify s).rule.IsChoice) {part : Text}
    (hpart : part ∈ (classify s).parts) : byteSize ((classify s).fill part) < byteSize s := by
  have hchoice : (classify s).fill part ∈ (classify s).choices := by
    rw [Classification.choices_eq_map_parts h]
    exact List.mem_map_of_mem hpart
  have hrule : (classify s).rule ≠ .reference := by
    rcases h with h | h | h <;> simp [h]
  have hvariant : (classify s).fill part ∈ (Setting.mk .empty {}).variants s := by
    rw [Setting.variants_of_isChoice h]
    exact hchoice
  exact byteSize_lt_of_sublist (Setting.sublist_of_mem_variants hrule hvariant)
    (length_lt_of_mem_choices hchoice)

/-- The text around the body of its construct. -/
theorem text_eq_around_body (s : Text) :
    s = (classify s).before ++ ((classify s).rule.lead ++ ((classify s).body ++
      ((classify s).rule.trail ++ (classify s).after))) := by
  have htext := text_classify s
  rw [Classification.text, Classification.construct, Rule.construct_eq] at htext
  simpa using htext.symm

/-- **A slot of a text with a choice** lies in front of the construct, in its body or behind it. -/
theorem slot_cases_of_isChoice (h : (classify s).rule.IsChoice) {before part after : Text}
    (hpart : IsSlot part) (hs : s = before ++ part ++ after) :
    (∃ gap, (classify s).before = before ++ part ++ gap) ∨
      (∃ front back, (classify s).body = front ++ part ++ back ∧
        before = (classify s).before ++ (classify s).rule.lead ++ front) ∨
      ∃ gap, (classify s).after = gap ++ part ++ after ∧
        before = (classify s).before ++ (classify s).construct ++ gap := by
  have haround := text_eq_around_body s
  rcases Rule.marks_of_isChoice h with ⟨bracket, hlead, htrail⟩ | hbare
  · obtain ⟨hopening, hclosing⟩ := bracket.notMem_of_isUnit (.slot hpart)
    rw [hlead, htrail] at haround
    have hcut : (classify s).before ++ bracket.opening :: ((classify s).body ++
        bracket.closing :: (classify s).after) = before ++ part ++ after := haround.symm.trans hs
    rcases append_mark_cases hopening hcut with hfront | ⟨later, hbefore, hlater⟩
    · exact Or.inl hfront
    · rcases append_mark_cases hclosing hlater with ⟨gap, hbody⟩ | ⟨gap, hlater, hafter⟩
      · refine Or.inr (Or.inl ⟨later, gap, hbody, ?_⟩)
        rw [hbefore, hlead]
        simp
      · refine Or.inr (Or.inr ⟨gap, hafter, ?_⟩)
        rw [hbefore, hlater, Classification.construct, Rule.construct_eq, hlead, htrail]
        simp
  · have hlocates := locates_classify s
    unfold Locates at hlocates
    rw [hbare] at hlocates
    obtain ⟨hbefore, hbody, -⟩ := hlocates
    refine Or.inr (Or.inl ⟨before, after, hbody.trans hs, ?_⟩)
    rw [hbefore, hbare]
    rfl

/-- The alternatives lie in the construct, and at their places in the text. -/
theorem excerpt?_of_mem_places {place : Nat × Text} (h : place ∈ (classify s).places) :
    (classify s).start ≤ place.1 ∧ place.1 + byteSize place.2 ≤ (classify s).stop ∧
      excerpt? s place.1 (place.1 + byteSize place.2) = some place.2 := by
  obtain ⟨front, back, hjoin, hplace⟩ := exists_append_of_mem_placed h
  rw [Classification.alternatives, join_pieces] at hjoin
  have hsize := congrArg byteSize hjoin
  simp only [byteSize_append] at hsize
  refine ⟨?_, ?_, ?_⟩
  · omega
  · rw [Classification.stop, Classification.construct, Rule.construct_eq]
    rw [Classification.start] at hplace
    simp only [byteSize_append]
    omega
  · have haround := text_eq_around_body s
    have hcut : s = (classify s).before ++ (classify s).rule.lead ++ front ++ place.2 ++
        (back ++ (classify s).rule.trail ++ (classify s).after) := by
      rw [hjoin] at haround
      simpa using haround
    have hmiddle := excerpt?_middle ((classify s).before ++ (classify s).rule.lead ++ front) place.2
      (back ++ (classify s).rule.trail ++ (classify s).after)
    rw [← hcut, byteSize_append, byteSize_append, ← Classification.start, ← hplace] at hmiddle
    exact hmiddle

/-- **A slot of a text with a choice** is outside the construct or in one of the alternatives. -/
theorem spares_or_within (h : (classify s).rule.IsChoice) {position : Nat} {slot : Slot}
    (hslot : Slot.BeginsAt s position slot) :
    (classify s).Spares position slot ∨
      ∃! place, place ∈ (classify s).places ∧ slot.Within position place := by
  obtain ⟨before, rfl, hwell, rest, hs⟩ := hslot
  rcases slot_cases_of_isChoice h (isSlot_iff.mpr ⟨slot, hwell, rfl⟩) hs with
    ⟨gap, hfront⟩ | ⟨front, back, hbody, hbefore⟩ | ⟨gap, hafter, hbefore⟩
  · refine Or.inl (.front ?_ ?_)
    · rw [Classification.start, hfront]
      simp only [byteSize_append]
      omega
    · intro part _
      refine ⟨before, rfl, hwell, gap ++ part ++ (classify s).after, ?_⟩
      rw [Classification.fill, hfront]
      simp
  · have hbar : '|' ∉ slot.render :=
      notMem_of_isUnit (.slot (isSlot_iff.mpr ⟨slot, hwell, rfl⟩)) (by decide)
    have hjoin : join '|' (classify s).alternatives = front ++ slot.render ++ back := by
      rw [Classification.alternatives, join_pieces]
      exact hbody
    obtain ⟨place, hplace, skipped, later, hpart, hstart⟩ := exists_mem_placed hbar
      ((classify s).start + byteSize (classify s).rule.lead) (pieces_ne_nil '|' _) hjoin
    have hsize := congrArg byteSize hpart
    simp only [byteSize_append] at hsize
    have hposition : byteSize before = place.1 + byteSize skipped := by
      rw [hstart, hbefore, Classification.start, byteSize_append, byteSize_append]
    refine Or.inr ⟨place, ⟨hplace, by omega, by omega⟩, ?_⟩
    rintro other ⟨hother, hfrom, hto⟩
    have hin : place.1 ≤ byteSize before ∧ byteSize before ≤ place.1 + byteSize place.2 := by omega
    exact eq_of_mem_placed hother hplace ⟨hfrom, by omega⟩ hin
  · refine Or.inl (.behind (byteSize gap) ?_ ?_)
    · rw [hbefore, Classification.stop, byteSize_append, byteSize_append]
    · intro part _
      refine ⟨(classify s).before ++ part ++ gap, ?_, hwell, rest, ?_⟩
      · rw [Classification.start, byteSize_append, byteSize_append]
      · rw [Classification.fill, hafter]
        simp

/-- **A choice cuts no slot, and takes bytes away.** The alternatives are the body between its bars, and
    each is empty or a sentence; without brackets there are two or more. The step on the text gives way
    to one variant for each of them, and where the choice is optional to one without the construct, and
    every variant takes fewer bytes than the text. The alternatives lie apart from each other in the
    construct. A slot of the text is outside the construct, and then every variant has it, or it is
    within exactly one of the alternatives. -/
theorem choices_keep_slots (h : (classify s).rule.IsChoice) :
    join '|' (classify s).alternatives = (classify s).body ∧
    (∀ part ∈ (classify s).alternatives, part = [] ∨ (classify part).rule = .vanilla) ∧
    ((classify s).rule = .bare → 2 ≤ (classify s).alternatives.length) ∧
    (∀ (setting : Setting) (template : Text) (depth : Nat),
      setting.step template ⟨s, depth⟩ =
        .varied (classify s).rule none ((classify s).parts.map (classify s).fill) depth) ∧
    (∀ part ∈ (classify s).parts, byteSize ((classify s).fill part) < byteSize s) ∧
    (classify s).places.map Prod.snd = (classify s).alternatives ∧
    (∀ place ∈ (classify s).places,
      (classify s).start ≤ place.1 ∧ place.1 + byteSize place.2 ≤ (classify s).stop ∧
        excerpt? s place.1 (place.1 + byteSize place.2) = some place.2) ∧
    ∀ position slot, Slot.BeginsAt s position slot →
      (classify s).Spares position slot ∨
        ∃! place, place ∈ (classify s).places ∧ slot.Within position place := by
  refine ⟨join_pieces '|' _, ?_, two_le_length_alternatives, ?_, ?_, ?_, ?_, ?_⟩
  · intro part hpart
    exact eq_nil_or_vanilla_of_mem_alternatives h hpart
  · intro setting template depth
    have htakes : setting.Takes template ⟨s, depth⟩
        (.varied (classify s).rule none (classify s).choices depth) := .chosen h
    rw [← Classification.choices_eq_map_parts h]
    exact htakes.step_eq
  · intro part hpart
    exact byteSize_fill_lt h hpart
  · exact map_snd_placed '|' _ _
  · intro place hplace
    exact excerpt?_of_mem_places hplace
  · intro position slot hslot
    exact spares_or_within h hslot

end Choices

/-- A text with slots on both sides of an optional choice and in two of its alternatives. -/
def slotsAround : Text := "é<a> [b<c~d>||<e>]<f>".toList

/-- The slot at byte 8 is in one alternative, and the slot behind the choice is in every variant. -/
theorem choices_keep_slots_around : (classify slotsAround).rule.IsChoice ∧
    (∃! place, place ∈ (classify slotsAround).places ∧
      (⟨"c".toList, some "d".toList⟩ : Slot).Within 8 place) ∧
    ∀ part ∈ (classify slotsAround).parts,
      Slot.BeginsAt ((classify slotsAround).fill part) (6 + byteSize part) ⟨"f".toList, none⟩ := by
  have hchoice : (classify slotsAround).rule.IsChoice := Or.inr (Or.inl (by decide +kernel))
  have hstart : (classify slotsAround).start = 6 := by decide +kernel
  have hstop : (classify slotsAround).stop = 19 := by decide +kernel
  obtain ⟨-, -, -, -, -, -, hplaces, hslots⟩ := choices_keep_slots hchoice
  rw [hstart, hstop] at hplaces
  refine ⟨hchoice, ?_, ?_⟩
  · have hslot : Slot.BeginsAt slotsAround 8 ⟨"c".toList, some "d".toList⟩ :=
      ⟨"é<a> [b".toList, by decide +kernel,
        wellFormed_of_read? (show Slot.read? "<c~d>".toList = some (_, []) by decide +kernel),
        "||<e>]<f>".toList, by decide +kernel⟩
    rcases hslots _ _ hslot with hspared | hwithin
    · rcases hspared with ⟨hend, -⟩ | ⟨gap, hgap, -⟩
      · omega
      · omega
    · exact hwithin
  · have hslot : Slot.BeginsAt slotsAround 19 ⟨"f".toList, none⟩ :=
      ⟨"é<a> [b<c~d>||<e>]".toList, by decide +kernel,
        wellFormed_of_read? (show Slot.read? "<f>".toList = some (_, []) by decide +kernel),
        [], by decide +kernel⟩
    have hsize : byteSize (⟨"f".toList, none⟩ : Slot).render = 3 := by decide +kernel
    rcases hslots _ _ hslot with hspared | ⟨place, ⟨hmem, -, hend⟩, -⟩
    · rcases hspared with ⟨hend, -⟩ | ⟨gap, hgap, hkept⟩
      · omega
      · obtain rfl : gap = 0 := by omega
        rw [hstart] at hkept
        exact hkept
    · have hplace := (hplaces place hmem).2.1
      omega

end Phrasing
