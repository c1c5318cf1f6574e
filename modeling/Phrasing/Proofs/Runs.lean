import Phrasing.Proofs.Nesting

/-!
# `Proofs.Runs` — runs, and what a classification makes of them

A run of plain characters, slots and bars holds no character that a variable or a group begins with,
and its bars cut it into runs without bars. Both facts carry over to everything that is put together
from runs, so they are kept here, apart from trees and expansions.

## Contents
- **Characters.** `notMem_of_isRun`: what is in no unit is in no run.
- **Pieces.** `isRun_of_mem_pieces`: the pieces of a run between its bars are runs without bars.
- **Searches.** `findFirst_append`: a search passes over text without the mark that it looks for.
- **Classification.** `classify_of_isRun`: a run is a sentence, a choice between sentences or nothing.
-/

namespace Phrasing.Grammar

open Text Nested

/-! ## Characters -/

/-- A character that is in no slot or plain text, and is not a bar, is in no unit. -/
theorem notMem_of_isUnit_true {bars : Bool} {u : Text} (h : IsUnit bars u) {d : Char}
    (hd : isUnitChar d = false) (hbar : d ≠ '|') : d ∉ u := by
  cases h with
  | plain hplain => exact notMem_of_isUnit (.plain hplain) hd
  | bar _ => simpa using hbar
  | slot hslot => exact notMem_of_isUnit (.slot hslot) hd

/-- Nor is it in a run. -/
theorem notMem_of_isRun {bars : Bool} {s : Text} (h : IsRun bars s) {d : Char}
    (hd : isUnitChar d = false) (hbar : d ≠ '|') : d ∉ s := by
  induction h with
  | nil => exact List.not_mem_nil
  | cons hfirst _ ih =>
      rw [List.mem_append, not_or]
      exact ⟨notMem_of_isUnit_true hfirst hd hbar, ih⟩

/-- Nor in a body. -/
theorem not_isBody_of_mem {bars : Bool} {s : Text} {d : Char} (hmem : d ∈ s)
    (hd : isUnitChar d = false) (hbar : d ≠ '|') : ¬ isBody bars s = true := by
  intro hbody
  exact notMem_of_isRun ((isBody_iff bars s).mp hbody).1 hd hbar hmem

/-- A run without bars has none. -/
theorem bar_notMem_of_isRun {s : Text} (h : IsRun false s) : '|' ∉ s := by
  induction h with
  | nil => exact List.not_mem_nil
  | cons hfirst _ ih =>
      rw [List.mem_append, not_or]
      exact ⟨notMem_of_isUnit hfirst (by decide), ih⟩

/-- Where bars may stand, a run need not have any. -/
theorem isRun_true_of_false {s : Text} (h : IsRun false s) : IsRun true s := by
  induction h with
  | nil => exact .nil
  | cons hfirst _ ih => exact .cons (isUnit_of_false hfirst) ih

/-- Characters of names may go on with one. -/
theorem isNameRest_of_mem {name : Text} (h : IsName name) {c : Char} (hc : c ∈ name) :
    IsNameRest c := by
  obtain ⟨hstart, hrest⟩ := h
  rcases List.mem_cons.mp hc with rfl | hc
  · rcases hstart with hletter | hunderscore
    · exact Or.inl hletter
    · exact Or.inr (Or.inr (Or.inl hunderscore))
  · exact hrest c hc

/-- A character that no name goes on with is in no name. -/
theorem notMem_name {name : Text} (h : IsName name) {d : Char} (hd : isNameRest d = false) :
    d ∉ name := by
  intro hmem
  rw [(isNameRest_iff d).mpr (isNameRest_of_mem h hmem)] at hd
  exact absurd hd (by simp)

/-- Nor is it in a reference, unless it is the dollar sign. -/
theorem notMem_reference {name : Text} (h : IsName name) {d : Char} (hd : isNameRest d = false)
    (hdollar : d ≠ '$') : d ∉ '$' :: name := by
  rw [List.mem_cons, not_or]
  exact ⟨hdollar, notMem_name h hd⟩

/-! ## Pieces -/

/-- Text without the mark goes to the first piece of what follows it. -/
theorem pieces_append_of_notMem {mark : Char} {s t part : Text} {parts : List Text} (h : mark ∉ s)
    (ht : pieces mark t = part :: parts) : pieces mark (s ++ t) = (s ++ part) :: parts := by
  induction s with
  | nil => exact ht
  | cons c cs ih =>
      rw [List.mem_cons, not_or] at h
      rw [List.cons_append, pieces, if_neg (fun hc => h.1 hc.symm), ih h.2]
      rfl

/-- A unit in front of a text goes to its first piece, and leaves all pieces runs. -/
theorem isRun_of_mem_pieces_append {u rest part : Text} (hu : IsUnit false u)
    (hrest : ∀ p ∈ pieces '|' rest, IsRun false p) (hpart : part ∈ pieces '|' (u ++ rest)) :
    IsRun false part := by
  obtain ⟨first, others, hpieces⟩ := List.exists_cons_of_ne_nil (pieces_ne_nil '|' rest)
  rw [pieces_append_of_notMem (notMem_of_isUnit hu (by decide)) hpieces] at hpart
  rw [hpieces] at hrest
  rcases List.mem_cons.mp hpart with rfl | hpart
  · exact .cons hu (hrest first List.mem_cons_self)
  · exact hrest part (List.mem_cons_of_mem _ hpart)

/-- **The pieces of a run** between its bars are runs without bars. -/
theorem isRun_of_mem_pieces {s part : Text} (h : IsRun true s) (hpart : part ∈ pieces '|' s) :
    IsRun false part := by
  induction h generalizing part with
  | nil =>
      rw [pieces, List.mem_singleton] at hpart
      rw [hpart]
      exact .nil
  | @cons first rest hfirst _ ih =>
      cases hfirst with
      | plain hplain => exact isRun_of_mem_pieces_append (.plain hplain) (fun p => ih) hpart
      | bar _ =>
          -- a bar begins a new piece
          have hpieces : pieces '|' (['|'] ++ rest) = [] :: pieces '|' rest :=
            pieces_append_mark List.not_mem_nil rest
          rw [hpieces] at hpart
          rcases List.mem_cons.mp hpart with rfl | hpart
          · exact .nil
          · exact ih hpart
      | slot hslot => exact isRun_of_mem_pieces_append (.slot hslot) (fun p => ih) hpart

/-! ## Searches -/

/-- **A search passes over text without its mark**, and finds what can be read right behind it. -/
theorem findFirst_append {read? : Text → Option (Text × Text)} {mark : Char}
    (hmark : ∀ c cs, c ≠ mark → read? (c :: cs) = none) {before found body after : Text}
    (hbefore : mark ∉ before) (hread : read? found = some (body, after)) (hfound : found ≠ []) :
    findFirst read? (before ++ found) = some ⟨before, body, after⟩ := by
  induction before with
  | nil =>
      obtain ⟨c, cs, rfl⟩ := List.exists_cons_of_ne_nil hfound
      rw [List.nil_append, findFirst, hread]
  | cons c cs ih =>
      rw [List.mem_cons, not_or] at hbefore
      rw [List.cons_append, findFirst, hmark c _ (fun hc => hbefore.1 hc.symm), ih hbefore.2]
      rfl

/-- A search finds nothing in text without its mark. -/
theorem findFirst_eq_none_of_notMem {read? : Text → Option (Text × Text)} {mark : Char}
    (hmark : ∀ c cs, c ≠ mark → read? (c :: cs) = none) {s : Text} (hs : mark ∉ s) :
    findFirst read? s = none := by
  induction s with
  | nil => rfl
  | cons c cs ih =>
      rw [List.mem_cons, not_or] at hs
      rw [findFirst, hmark c cs (fun hc => hs.1 hc.symm), ih hs.2]
      rfl

/-- A reference begins with a dollar sign. -/
theorem readReference?_of_ne {c : Char} (hc : c ≠ '$') (cs : Text) :
    readReference? (c :: cs) = none := by
  unfold readReference?
  split
  · rename_i heq
    exact absurd (List.cons.inj heq).1 hc
  · rfl

/-- A group begins with its opening bracket. -/
theorem readGroup?_of_ne {opening closing c : Char} (hc : c ≠ opening) (cs : Text) :
    readGroup? opening closing (c :: cs) = none := by
  rw [readGroup?, if_neg hc]

/-! ## Classification -/

/-- Text without the marks of variables and groups falls under a rule for the whole text. -/
theorem classify_of_no_marks {s : Text} (hdollar : '$' ∉ s) (hround : '(' ∉ s) (hsquare : '[' ∉ s) :
    classify s =
      if isBody false s then .whole .vanilla s
      else if isBody true s then .whole .bare s
      else if isSynonymLine s then .whole .synonym s
      else .whole .unrecognized s := by
  rw [classify, findFirst_eq_none_of_notMem (fun _ cs hc => readReference?_of_ne hc cs) hdollar,
    findFirst_eq_none_of_notMem (fun _ cs hc => readGroup?_of_ne hc cs) hround,
    findFirst_eq_none_of_notMem (fun _ cs hc => readGroup?_of_ne hc cs) hsquare]

/-- **A run is a sentence if it has no bars**, and a choice between its pieces if it has. -/
theorem classify_of_isRun {s : Text} (h : IsRun true s) (hne : s ≠ []) :
    classify s = if '|' ∈ s then .whole .bare s else .whole .vanilla s := by
  rw [classify_of_no_marks (notMem_of_isRun h (by decide) (by decide))
    (notMem_of_isRun h (by decide) (by decide)) (notMem_of_isRun h (by decide) (by decide))]
  by_cases hbar : '|' ∈ s
  · have hvanilla : ¬ isBody false s = true := by
      intro hbody
      exact bar_notMem_of_isRun ((isBody_iff false s).mp hbody).1 hbar
    rw [if_neg hvanilla, if_pos ((isBody_iff true s).mpr ⟨h, hne⟩), if_pos hbar]
  · have hpieces : s ∈ pieces '|' s := by
      rw [pieces_of_notMem hbar]
      exact List.mem_singleton_self s
    rw [if_pos ((isBody_iff false s).mpr ⟨isRun_of_mem_pieces h hpieces, hne⟩), if_neg hbar]

/-- The empty text fits no rule. -/
theorem classify_nil : classify [] = .whole .unrecognized [] := by
  have hbody : ∀ bars, isBody bars [] = false := by
    intro bars
    rw [isBody, splitBody_nil]
  rw [classify_of_no_marks List.not_mem_nil List.not_mem_nil List.not_mem_nil, hbody, hbody]
  rfl

end Phrasing.Grammar
