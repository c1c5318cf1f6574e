import Phrasing.Proofs.Runs

/-!
# `Proofs.Slots` — the slots of a text

A slot begins at an opening bracket and has no other, so slots do not overlap: where two slots begin at
the same place they are the same, and a slot that begins behind another lies behind all of it. A
search that goes on behind each slot therefore misses none.

## Contents
- **`IsSlot.exists_open`**, **`IsSlot.eq_of_append`**: opening brackets, and slots at one place.
- **`Slot.Begins`**, **`Slot.Lists`**: the places where slots begin, and their slots in order.
- **`Slot.lists_findAll`**: a search finds exactly these.
-/

namespace Phrasing

open Text Grammar Nested

/-! ## Slots do not overlap -/

namespace Grammar

/-- No slot has an opening bracket but its first character. -/
theorem IsSlot.exists_open {t : Text} (h : IsSlot t) : ∃ cs, t = '<' :: cs ∧ '<' ∉ cs := by
  cases h with
  | @bare name h =>
      have hname : '<' ∉ name := notMem_name h (by decide)
      refine ⟨name ++ ['>'], rfl, ?_⟩
      simp [hname]
  | @sampled name sample h _ hsample =>
      have hname : '<' ∉ name := notMem_name h (by decide)
      have hplain : '<' ∉ sample := by
        intro hmem
        exact absurd ((isPlain_iff '<').mpr (hsample _ hmem)) (by decide)
      refine ⟨name ++ '~' :: sample ++ ['>'], by simp, ?_⟩
      simp [hname, hplain]

theorem IsSlot.ne_nil {t : Text} (h : IsSlot t) : t ≠ [] := by
  obtain ⟨cs, rfl, -⟩ := h.exists_open
  exact List.cons_ne_nil _ _

/-- At one place of a text only one slot can begin. -/
theorem IsSlot.eq_of_append {s t x y : Text} (hs : IsSlot s) (ht : IsSlot t)
    (h : s ++ x = t ++ y) : s = t ∧ x = y := by
  obtain ⟨slot, rfl, hread⟩ := read?_append_of_isSlot hs
  obtain ⟨other, rfl, hread'⟩ := read?_append_of_isSlot ht
  have heq : some (slot, x) = some (other, y) := by rw [← hread x, ← hread' y, h]
  rw [Option.some.injEq, Prod.mk.injEq] at heq
  exact ⟨by rw [heq.1], heq.2⟩

/-- A slot lies in front of another that begins behind it. -/
theorem IsSlot.le_of_append {s t x before after : Text} (hs : IsSlot s) (ht : IsSlot t)
    (hbefore : before ≠ []) (h : s ++ x = before ++ t ++ after) :
    ∃ gap, before = s ++ gap ∧ x = gap ++ t ++ after := by
  obtain ⟨cs, rfl, hcs⟩ := hs.exists_open
  obtain ⟨ds, rfl, -⟩ := ht.exists_open
  obtain ⟨b, bs, rfl⟩ := List.exists_cons_of_ne_nil hbefore
  simp only [List.cons_append, List.cons.injEq, List.append_assoc] at h
  obtain ⟨rfl, h⟩ := h
  rcases List.append_eq_append_iff.mp h with ⟨gap, rfl, hx⟩ | ⟨gap, hgap, hx⟩
  · exact ⟨gap, rfl, by rw [hx, List.append_assoc]; rfl⟩
  · cases gap with
    | nil =>
        rw [List.append_nil] at hgap
        exact ⟨[], by rw [hgap, List.append_nil], hx.symm⟩
    | cons c gap =>
        -- the other slot would begin inside the first
        obtain ⟨rfl, -⟩ := List.cons.inj hx
        exact absurd (hgap ▸ List.mem_append_right bs List.mem_cons_self) hcs

end Grammar

/-! ## Places of slots -/

namespace Slot

/-- **A slot begins** behind the text before it. -/
def Begins (s before : Text) (slot : Slot) : Prop :=
  WellFormed slot ∧ ∃ rest, s = before ++ slot.render ++ rest

/-- **The slots of a text**: one for each place where a slot begins, from left to right. -/
def Lists (s : Text) (slots : List Slot) : Prop :=
  ∃ places : List (Text × Slot), slots = places.map Prod.snd ∧
    places.Pairwise (fun a b => a.1.length < b.1.length) ∧
    ∀ before slot, (before, slot) ∈ places ↔ Begins s before slot

/-- Where nothing is read, the places are those of the rest. -/
theorem begins_cons_iff {c : Char} {cs before : Text} {slot : Slot} (h : read? (c :: cs) = none) :
    Begins (c :: cs) before slot ↔ ∃ later, before = c :: later ∧ Begins cs later slot := by
  constructor
  · rintro ⟨hslot, rest, htext⟩
    cases before with
    | nil =>
        rw [read?_eq_some_iff.mpr ⟨hslot, htext⟩] at h
        exact absurd h (by simp)
    | cons b later =>
        simp only [List.cons_append, List.cons.injEq] at htext
        obtain ⟨rfl, htext⟩ := htext
        exact ⟨later, rfl, hslot, rest, htext⟩
  · rintro ⟨later, rfl, hslot, rest, rfl⟩
    exact ⟨hslot, rest, rfl⟩

/-- Where a slot is read, the other places are behind it. -/
theorem begins_append_iff {first slot : Slot} {s before : Text} (hfirst : WellFormed first) :
    Begins (first.render ++ s) before slot ↔
      (before = [] ∧ slot = first) ∨ ∃ later, before = first.render ++ later ∧ Begins s later slot := by
  constructor
  · rintro ⟨hslot, rest, htext⟩
    by_cases hbefore : before = []
    · subst hbefore
      have hread := read?_render_append hslot rest
      rw [List.nil_append] at htext
      rw [← htext, read?_render_append hfirst s, Option.some.injEq, Prod.mk.injEq] at hread
      exact Or.inl ⟨rfl, hread.1.symm⟩
    · obtain ⟨gap, rfl, rfl⟩ := IsSlot.le_of_append (isSlot_iff.mpr ⟨first, hfirst, rfl⟩)
        (isSlot_iff.mpr ⟨slot, hslot, rfl⟩) hbefore htext
      exact Or.inr ⟨gap, rfl, hslot, rest, rfl⟩
  · rintro (⟨rfl, rfl⟩ | ⟨later, rfl, hslot, rest, rfl⟩)
    · exact ⟨hfirst, s, rfl⟩
    · exact ⟨hslot, rest, by simp⟩

/-- **A search finds every slot once, from left to right.** -/
theorem lists_findAll (s : Text) : Lists s (findAll s) := by
  fun_induction findAll s with
  | case1 =>
      refine ⟨[], rfl, .nil, ?_⟩
      rintro before slot
      refine ⟨fun hmem => absurd hmem List.not_mem_nil, ?_⟩
      rintro ⟨hslot, rest, htext⟩
      have hlength := congrArg List.length htext
      have hrender := two_le_length_render slot
      simp only [List.length_nil, List.length_append] at hlength
      omega
  | case2 c cs slot rest hread ih =>
      obtain ⟨hslot, htext⟩ := read?_eq_some_iff.mp hread
      obtain ⟨places, hslots, hsorted, hplaces⟩ := ih
      have hrender := two_le_length_render slot
      refine ⟨([], slot) :: places.map fun place => (slot.render ++ place.1, place.2), ?_, ?_, ?_⟩
      · simp [hslots]
      · refine List.pairwise_cons.mpr ⟨?_, ?_⟩
        · intro place hplace
          obtain ⟨later, -, rfl⟩ := List.mem_map.mp hplace
          simp only [List.length_nil, List.length_append]
          omega
        · refine List.pairwise_map.mpr (hsorted.imp ?_)
          intro a b hlt
          simp only [List.length_append]
          omega
      · intro before other
        rw [htext, begins_append_iff hslot, List.mem_cons, List.mem_map, Prod.mk.injEq]
        refine or_congr Iff.rfl ?_
        constructor
        · rintro ⟨⟨later, found⟩, hmem, heq⟩
          obtain ⟨rfl, rfl⟩ := Prod.mk.inj heq
          exact ⟨later, rfl, (hplaces later found).mp hmem⟩
        · rintro ⟨later, rfl, hbegins⟩
          exact ⟨(later, other), (hplaces later other).mpr hbegins, rfl⟩
  | case3 c cs hread ih =>
      obtain ⟨places, hslots, hsorted, hplaces⟩ := ih
      refine ⟨places.map fun place => (c :: place.1, place.2), by simp [hslots], ?_, ?_⟩
      · refine List.pairwise_map.mpr (hsorted.imp ?_)
        intro a b hlt
        simpa using hlt
      · intro before slot
        rw [begins_cons_iff hread, List.mem_map]
        constructor
        · rintro ⟨⟨later, found⟩, hmem, heq⟩
          obtain ⟨rfl, rfl⟩ := Prod.mk.inj heq
          exact ⟨later, rfl, (hplaces later found).mp hmem⟩
        · rintro ⟨later, rfl, hbegins⟩
          exact ⟨(later, slot), (hplaces later slot).mpr hbegins, rfl⟩

end Slot

end Phrasing
