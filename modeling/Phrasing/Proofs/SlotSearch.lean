import Phrasing.Proofs.Ledger
import Phrasing.Proofs.Sessions
import Phrasing.Proofs.Slots

/-!
# `Proofs.SlotSearch` — what a search for slots finds

A search lists one slot for each byte at which a slot begins, whatever else is in the text: opening
brackets that begin no slot neither hide a slot nor add one. So slots that are written between texts
without opening brackets are read back, and in literal text every opening bracket is a slot's.

## Contents
- **`Slot.BeginsAt`**: the bytes at which slots begin; `exists_places` lists them in order, each behind
  the slot before it.
- **`Slot.Spelled`**: how the name and the sample of a slot are written.
- **`Slot.findAll_append_of_notMem`**, **`Slot.findAll_render_append`**: a search, one part of the text
  after the other.
- **`Slot.interleave`**: slots between texts, and `findAll_interleave`, which reads them back.
- **`Slot.length_findAll_of_isRun`**: the opening brackets of literal text.
- **`Slot.findAll_occurrences`**.
-/

namespace Phrasing

open Text Grammar

namespace Slot

/-! ## Bytes at which slots begin -/

/-- **A slot begins at a byte** of a text. -/
def BeginsAt (s : Text) (position : Nat) (slot : Slot) : Prop :=
  ∃ before, byteSize before = position ∧ Begins s before slot

/-- Of two slots, the one that begins later begins behind the other. -/
theorem byteSize_le_of_begins {s first second : Text} {slot other : Slot}
    (hslot : Begins s first slot) (hother : Begins s second other)
    (hlt : first.length < second.length) :
    byteSize first + byteSize slot.render ≤ byteSize second := by
  obtain ⟨hwell, rest, htext⟩ := hslot
  obtain ⟨hwell', rest', htext'⟩ := hother
  have hcut : first ++ (slot.render ++ rest) = second ++ (other.render ++ rest') := by
    rw [← List.append_assoc, ← List.append_assoc, ← htext, ← htext']
  rcases List.append_eq_append_iff.mp hcut with ⟨between, rfl, hbetween⟩ | ⟨between, rfl, -⟩
  · have hne : between ≠ [] := by
      rintro rfl
      simp at hlt
    rw [← List.append_assoc] at hbetween
    obtain ⟨gap, rfl, -⟩ := IsSlot.le_of_append (isSlot_iff.mpr ⟨slot, hwell, rfl⟩)
      (isSlot_iff.mpr ⟨other, hwell', rfl⟩) hne hbetween
    simp only [byteSize_append]
    omega
  · rw [List.length_append] at hlt
    omega

/-- **The slots that a search finds**, with the bytes at which they begin: all there are, and each
    behind the one before it. -/
theorem exists_places (s : Text) :
    ∃ places : List (Nat × Slot), findAll s = places.map Prod.snd ∧
      places.Pairwise (fun a b => a.1 + byteSize a.2.render ≤ b.1) ∧
      ∀ position slot, (position, slot) ∈ places ↔ BeginsAt s position slot := by
  obtain ⟨places, hslots, hsorted, hplaces⟩ := lists_findAll s
  refine ⟨places.map fun place => (byteSize place.1, place.2), ?_, ?_, ?_⟩
  · rw [hslots, List.map_map]
    rfl
  · refine List.pairwise_map.mpr (hsorted.imp_of_mem ?_)
    intro a b ha hb hlt
    exact byteSize_le_of_begins ((hplaces a.1 a.2).mp ha) ((hplaces b.1 b.2).mp hb) hlt
  · intro position slot
    rw [List.mem_map]
    constructor
    · rintro ⟨⟨before, found⟩, hmem, heq⟩
      obtain ⟨rfl, rfl⟩ := Prod.mk.inj heq
      exact ⟨before, rfl, (hplaces before found).mp hmem⟩
    · rintro ⟨before, rfl, hbegins⟩
      exact ⟨(before, slot), (hplaces before slot).mpr hbegins, rfl⟩

/-! ## How slots are spelled -/

/-- **The spelling of a slot**: its name between angle brackets, and behind the name its sample, if it
    has one, with a tilde in front that is the only tilde. -/
inductive Spelled (slot : Slot) : Text → Prop
  | bare : slot.sample = none → '~' ∉ '<' :: slot.name ++ ['>'] →
      Spelled slot ('<' :: slot.name ++ ['>'])
  | sampled {sample : Text} : slot.sample = some sample → '~' ∉ slot.name → '~' ∉ sample →
      '>' ∉ sample → Spelled slot ('<' :: slot.name ++ '~' :: sample ++ ['>'])

/-- The written form of a slot spells it. -/
theorem spelled_render {slot : Slot} (h : WellFormed slot) : slot.Spelled slot.render := by
  obtain ⟨name, sample⟩ := slot
  have hname : '~' ∉ name := notMem_name h.name (by decide)
  cases sample with
  | none => exact .bare rfl (by simp [hname])
  | some sample =>
      have hsample : ∀ c, isPlain c = false → c ∉ sample := by
        intro c hc hmem
        rw [(isPlain_iff c).mpr ((h.sample sample rfl).2 c hmem)] at hc
        exact absurd hc (by simp)
      exact .sampled rfl hname (hsample '~' (by decide)) (hsample '>' (by decide))

/-! ## One part of a text after the other -/

theorem findAll_of_read? {c : Char} {cs rest : Text} {slot : Slot}
    (h : read? (c :: cs) = some (slot, rest)) : findAll (c :: cs) = slot :: findAll rest := by
  rw [findAll]
  split
  · rename_i found after hfound
    rw [h, Option.some.injEq, Prod.mk.injEq] at hfound
    obtain ⟨rfl, rfl⟩ := hfound
    rfl
  · rename_i hnone
    rw [h] at hnone
    exact absurd hnone (by simp)

/-- Text without opening brackets is passed over. -/
theorem findAll_append_of_notMem {front : Text} (h : '<' ∉ front) (s : Text) :
    findAll (front ++ s) = findAll s := by
  induction front with
  | nil => rfl
  | cons c cs ih =>
      rw [List.mem_cons, not_or] at h
      have hread : read? (c :: (cs ++ s)) = none := by
        unfold read?
        split
        · rename_i heq
          exact absurd (List.cons.inj heq).1.symm h.1
        · rfl
      rw [List.cons_append, findAll]
      split
      · rename_i hfound
        rw [hread] at hfound
        exact absurd hfound (by simp)
      · exact ih h.2

/-- A slot at the start of a text is found first. -/
theorem findAll_render_append {slot : Slot} (h : WellFormed slot) (s : Text) :
    findAll (slot.render ++ s) = slot :: findAll s := by
  have hread := read?_render_append h s
  obtain ⟨cs, hcs⟩ := (isSlot_iff.mpr ⟨slot, h, rfl⟩ : IsSlot slot.render).exists_cons
  rw [hcs, List.cons_append] at hread ⊢
  exact findAll_of_read? hread

theorem findAll_of_notMem {s : Text} (h : '<' ∉ s) : findAll s = [] := by
  have hnil : findAll [] = [] := by rw [findAll]
  rw [← List.append_nil s, findAll_append_of_notMem h, hnil]

/-! ## Slots between texts -/

/-- **Slots between texts**: each behind its text, and one more text behind the last of them. -/
def interleave (parts : List (Text × Slot)) (last : Text) : Text :=
  parts.flatMap (fun part => part.1 ++ part.2.render) ++ last

/-- **They are read back**, if no text has an opening bracket. -/
theorem findAll_interleave {parts : List (Text × Slot)} {last : Text}
    (hparts : ∀ part ∈ parts, '<' ∉ part.1 ∧ WellFormed part.2) (hlast : '<' ∉ last) :
    findAll (interleave parts last) = parts.map Prod.snd := by
  induction parts with
  | nil => exact findAll_of_notMem hlast
  | cons part rest ih =>
      rw [List.forall_mem_cons] at hparts
      obtain ⟨⟨hopen, hslot⟩, hrest⟩ := hparts
      have htext : interleave (part :: rest) last =
          part.1 ++ (part.2.render ++ interleave rest last) := by simp [interleave]
      rw [htext, findAll_append_of_notMem hopen, findAll_render_append hslot, ih hrest,
        List.map_cons]

/-! ## Opening brackets -/

/-- **In a run, every opening bracket is a slot's.** -/
theorem length_findAll_of_isRun {bars : Bool} {s : Text} (h : IsRun bars s) :
    (findAll s).length = s.count '<' := by
  induction h with
  | nil => rw [findAll_of_notMem List.not_mem_nil]; rfl
  | @cons first rest hfirst _ ih =>
      have hnone : '<' ∉ first → (findAll (first ++ rest)).length = (first ++ rest).count '<' := by
        intro hopen
        rw [findAll_append_of_notMem hopen, List.count_append, List.count_eq_zero.mpr hopen, ih,
          Nat.zero_add]
      cases hfirst with
      | @plain c hplain =>
          apply hnone
          rw [List.mem_singleton]
          rintro rfl
          exact absurd ((isPlain_iff '<').mpr hplain) (by decide)
      | bar _ => exact hnone (by decide)
      | slot hslot =>
          obtain ⟨cs, htext, hcs⟩ := hslot.exists_open
          have hcount : first.count '<' = 1 := by
            rw [htext, List.count_cons_self, List.count_eq_zero.mpr hcs]
          obtain ⟨slot, hwell, rfl⟩ := isSlot_iff.mp hslot
          rw [findAll_render_append hwell, List.length_cons, List.count_append, hcount, ih,
            Nat.add_comm]

/-! ## Searches -/

/-- **What a search for slots finds.** There is one entry for each byte of the text at which a slot
    begins, from left to right, and slots do not overlap; the entry has the name and the sample as they
    are written. Slots that are written between texts without opening brackets are read back. In a
    sentence that is told of as literal text there is one entry for each opening bracket. -/
theorem findAll_occurrences (s : Text) :
    (∃ places : List (Nat × Slot), findAll s = places.map Prod.snd ∧
      places.Pairwise (fun a b => a.1 + byteSize a.2.render ≤ b.1) ∧
      ∀ position slot, (position, slot) ∈ places ↔ BeginsAt s position slot) ∧
    (∀ slot ∈ findAll s, WellFormed slot ∧ slot.Spelled slot.render) ∧
    (∀ parts last, s = interleave parts last →
      (∀ part ∈ parts, '<' ∉ part.1 ∧ WellFormed part.2) → '<' ∉ last →
        findAll s = parts.map Prod.snd) ∧
    ∀ (setting : Setting) (mode : Mode) (template : Text) (output : Array Text),
      .emitted .vanilla s ∈ (setting.perform mode template output).events →
        (findAll s).length = s.count '<' := by
  obtain ⟨places, hslots, hsorted, hplaces⟩ := exists_places s
  refine ⟨⟨places, hslots, hsorted, hplaces⟩, ?_, ?_, ?_⟩
  · intro slot hslot
    rw [hslots] at hslot
    obtain ⟨⟨position, found⟩, hmem, rfl⟩ := List.mem_map.mp hslot
    obtain ⟨before, -, hwell, -⟩ := (hplaces position found).mp hmem
    exact ⟨hwell, spelled_render hwell⟩
  · rintro parts last rfl hparts hlast
    exact findAll_interleave hparts hlast
  · intro setting mode template output hevent
    rw [setting.events_perform] at hevent
    obtain ⟨hrule, -⟩ := setting.accords_yield template _ hevent
    have hfits : Fits (classify s).rule s := (fits_classify s).1
    rw [hrule] at hfits
    exact length_findAll_of_isRun hfits.1

/-- The slot `<b~c d>`. -/
def sampleSlot : Slot := ⟨"b".toList, some "c d".toList⟩

/-- A slot behind two openings of none, two slots between texts, and a slot in a sentence. -/
theorem findAll_occurrences_broken :
    (findAll "é<<a<b~c d>".toList = [sampleSlot] ∧
      ∀ position slot, BeginsAt "é<<a<b~c d>".toList position slot →
        position = 5 ∧ slot = sampleSlot) ∧
    findAll "é><a>~<b~c d>".toList = [⟨"a".toList, none⟩, sampleSlot] ∧
    (findAll "a <b>".toList).length = "a <b>".toList.count '<' := by
  have hsample : WellFormed sampleSlot :=
    wellFormed_of_read? (show read? "<b~c d>".toList = some (sampleSlot, []) by decide +kernel)
  have hbare : WellFormed ⟨"a".toList, none⟩ :=
    wellFormed_of_read? (show read? "<a>".toList = some (_, []) by decide +kernel)
  have hfound : findAll "é<<a<b~c d>".toList = [sampleSlot] := by decide +kernel
  refine ⟨⟨hfound, ?_⟩, ?_, ?_⟩
  · obtain ⟨⟨places, hplaces, -, hall⟩, -⟩ := findAll_occurrences "é<<a<b~c d>".toList
    have hbegins : BeginsAt "é<<a<b~c d>".toList 5 sampleSlot :=
      ⟨"é<<a".toList, by decide +kernel, hsample, [], by decide +kernel⟩
    rw [hfound] at hplaces
    obtain ⟨place, rfl, -⟩ := List.map_eq_singleton_iff.mp hplaces.symm
    intro position slot hother
    have hfirst := List.mem_singleton.mp ((hall 5 sampleSlot).mpr hbegins)
    have hsame := List.mem_singleton.mp ((hall position slot).mpr hother)
    exact Prod.mk.inj (hsame.trans hfirst.symm)
  · refine (findAll_occurrences "é><a>~<b~c d>".toList).2.2.1
      [("é>".toList, ⟨"a".toList, none⟩), ("~".toList, sampleSlot)] [] (by decide +kernel)
      ?_ List.not_mem_nil
    refine List.forall_mem_cons.mpr ⟨⟨by decide, hbare⟩, ?_⟩
    exact List.forall_mem_singleton.mpr ⟨by decide, hsample⟩
  · exact (findAll_occurrences "a <b>".toList).2.2.2 Setting.withoutSubstitutions .fresh
      "[a ]<b>".toList #[] (by decide +kernel)

end Slot

end Phrasing
