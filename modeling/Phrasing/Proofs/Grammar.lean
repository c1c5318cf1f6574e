import Mathlib.Data.List.TakeWhile
import Phrasing.Template.Classification

/-!
# `Proofs.Grammar` — the language of templates, apart from its readers

Names, slots and bodies as inductive languages, with every character class spelled out, and what the
readers of `Template` make of them.

## Contents
- **Character classes.** `IsPlain`, `IsNameStart`, `IsNameRest` and the tests for them.
- **`IsName`, `IsSlot`, `IsUnit`, `IsRun`**: the languages. A run is a concatenation of units, and a
  unit is a plain character, a slot or, where bars may stand, a bar.
- **Readers.** `readName?_eq_some_iff`, `read?_eq_some_iff`, `splitBody_append_of_isRun`, `isBody_iff`
  and `readGroup?_eq_some_iff` say that each reader reads its language.
- **Left-most constructs.** `findFirst_eq_some_iff` and `findFirst_eq_none_iff`.
-/

namespace Phrasing.Grammar

open Text

/-! ## Character classes -/

/-- `[a-zA-Z]` -/
def IsLetter (c : Char) : Prop := ('a' ≤ c ∧ c ≤ 'z') ∨ ('A' ≤ c ∧ c ≤ 'Z')

/-- `[0-9]` -/
def IsDigit (c : Char) : Prop := '0' ≤ c ∧ c ≤ '9'

/-- `[a-zA-Z0-9 '-]` -/
def IsPlain (c : Char) : Prop := IsLetter c ∨ IsDigit c ∨ c = ' ' ∨ c = '\'' ∨ c = '-'

/-- `[a-zA-Z_]` -/
def IsNameStart (c : Char) : Prop := IsLetter c ∨ c = '_'

/-- `[a-zA-Z0-9_-]` -/
def IsNameRest (c : Char) : Prop := IsLetter c ∨ IsDigit c ∨ c = '_' ∨ c = '-'

theorem isAlpha_iff (c : Char) : c.isAlpha = true ↔ IsLetter c := by
  show (decide ('A' ≤ c ∧ c ≤ 'Z') || (decide ('a' ≤ c) && decide (c ≤ 'z'))) = true ↔ IsLetter c
  rw [Bool.or_eq_true, Bool.and_eq_true, decide_eq_true_eq, decide_eq_true_eq, decide_eq_true_eq]
  exact or_comm

theorem isAlphanum_iff (c : Char) : c.isAlphanum = true ↔ IsLetter c ∨ IsDigit c := by
  rw [Char.isAlphanum, Bool.or_eq_true, isAlpha_iff]
  simp only [Char.isDigit, IsDigit, Bool.and_eq_true, decide_eq_true_eq]
  exact Iff.rfl

theorem isPlain_iff (c : Char) : isPlain c = true ↔ IsPlain c := by
  simp only [isPlain, IsPlain, Bool.or_eq_true, isAlphanum_iff, beq_iff_eq, or_assoc]

theorem isNameStart_iff (c : Char) : isNameStart c = true ↔ IsNameStart c := by
  simp only [isNameStart, IsNameStart, Bool.or_eq_true, isAlpha_iff, beq_iff_eq]

theorem isNameRest_iff (c : Char) : isNameRest c = true ↔ IsNameRest c := by
  simp only [isNameRest, IsNameRest, Bool.or_eq_true, isAlphanum_iff, beq_iff_eq, or_assoc]

/-! ## Names, slots and runs -/

/-- `[a-zA-Z_][a-zA-Z0-9_-]*` -/
inductive IsName : Text → Prop
  | mk {c : Char} {cs : Text} : IsNameStart c → (∀ d ∈ cs, IsNameRest d) → IsName (c :: cs)

/-- `<name>` or `<name~sample>`, the sample being one or more plain characters. -/
inductive IsSlot : Text → Prop
  | bare {name : Text} : IsName name → IsSlot ('<' :: name ++ ['>'])
  | sampled {name sample : Text} : IsName name → sample ≠ [] → (∀ c ∈ sample, IsPlain c) →
      IsSlot ('<' :: name ++ '~' :: sample ++ ['>'])

/-- A plain character, a slot or, with `bars`, a bar. -/
inductive IsUnit (bars : Bool) : Text → Prop
  | plain {c : Char} : IsPlain c → IsUnit bars [c]
  | bar : bars = true → IsUnit bars ['|']
  | slot {text : Text} : IsSlot text → IsUnit bars text

/-- A concatenation of units. -/
inductive IsRun (bars : Bool) : Text → Prop
  | nil : IsRun bars []
  | cons {first rest : Text} : IsUnit bars first → IsRun bars rest → IsRun bars (first ++ rest)

/-! ## Reading a name -/

/-- A scan stops where the first list ends. -/
theorem span_append {α : Type} {p : α → Bool} {xs ys : List α} (hxs : ∀ x ∈ xs, p x = true)
    (hys : ∀ y ∈ ys.head?, p y = false) :
    (xs ++ ys).takeWhile p = xs ∧ (xs ++ ys).dropWhile p = ys := by
  rw [List.takeWhile_append_of_pos hxs, List.dropWhile_append_of_pos hxs]
  cases ys with
  | nil => simp
  | cons y ys =>
      have hy : p y = false := hys y (by simp)
      simp [hy]

theorem head?_dropWhile {α : Type} (p : α → Bool) (xs : List α) :
    ∀ y ∈ (xs.dropWhile p).head?, p y = false := by
  intro y hy
  have hnot := List.head?_dropWhile_not p xs
  rw [Option.mem_def] at hy
  rw [hy] at hnot
  simpa using hnot

/-- A name is read up to the first character that cannot go on with it. -/
theorem readName?_eq_some_iff {s name rest : Text} :
    readName? s = some (name, rest) ↔
      s = name ++ rest ∧ IsName name ∧ ∀ c ∈ rest.head?, ¬ IsNameRest c := by
  constructor
  · intro h
    refine ⟨readName?_eq_some h, ?_⟩
    unfold readName? at h
    split at h
    · exact absurd h (by simp)
    · rename_i c cs
      split at h
      · rename_i hc
        simp only [Option.some.injEq, Prod.mk.injEq] at h
        obtain ⟨rfl, rfl⟩ := h
        refine ⟨.mk ((isNameStart_iff c).mp hc) ?_, ?_⟩
        · intro d hd
          exact (isNameRest_iff d).mp (List.mem_takeWhile_imp hd)
        · intro d hd hrest
          have hfalse := head?_dropWhile isNameRest cs d hd
          rw [(isNameRest_iff d).mpr hrest] at hfalse
          exact absurd hfalse (by simp)
      · exact absurd h (by simp)
  · rintro ⟨rfl, hname, hstop⟩
    cases hname with
    | @mk c cs hc hcs =>
        have hspan : (cs ++ rest).takeWhile isNameRest = cs ∧
            (cs ++ rest).dropWhile isNameRest = rest :=
          span_append (fun d hd => (isNameRest_iff d).mpr (hcs d hd))
            (fun d hd => Bool.eq_false_iff.mpr fun h => hstop d hd ((isNameRest_iff d).mp h))
        rw [List.cons_append, readName?, if_pos ((isNameStart_iff c).mpr hc), hspan.1, hspan.2]

/-! ## Reading a slot -/

theorem not_isNameRest_close : ¬ IsNameRest '>' := by
  rw [← isNameRest_iff]
  decide

theorem not_isNameRest_tilde : ¬ IsNameRest '~' := by
  rw [← isNameRest_iff]
  decide

/-- A slot that can be written: its name is one, and its sample is one or more plain characters. -/
structure WellFormed (slot : Slot) : Prop where
  name : IsName slot.name
  sample : ∀ text ∈ slot.sample, text ≠ [] ∧ ∀ c ∈ text, IsPlain c

/-- The written forms of these slots are those of the grammar. -/
theorem isSlot_iff {t : Text} : IsSlot t ↔ ∃ slot : Slot, WellFormed slot ∧ slot.render = t := by
  constructor
  · intro h
    cases h with
    | @bare name hname => exact ⟨⟨name, none⟩, ⟨hname, by simp⟩, rfl⟩
    | @sampled name sample hname hne hsample =>
        exact ⟨⟨name, some sample⟩, ⟨hname, by simpa using ⟨hne, hsample⟩⟩, rfl⟩
  · rintro ⟨⟨name, sample⟩, ⟨hname, hsample⟩, rfl⟩
    cases sample with
    | none => exact .bare hname
    | some sample =>
        obtain ⟨hne, hplain⟩ := hsample sample rfl
        exact .sampled hname hne hplain

theorem wellFormed_of_readTail? {name s rest : Text} {slot : Slot} (hname : IsName name)
    (h : Slot.readTail? name s = some (slot, rest)) : WellFormed slot := by
  unfold Slot.readTail? at h
  split at h
  · simp only [Option.some.injEq, Prod.mk.injEq] at h
    obtain ⟨rfl, rfl⟩ := h
    exact ⟨hname, by simp⟩
  · rename_i tail
    split at h
    · rename_i c cs after htake hdrop
      simp only [Option.some.injEq, Prod.mk.injEq] at h
      obtain ⟨rfl, rfl⟩ := h
      refine ⟨hname, ?_⟩
      intro text htext
      obtain rfl := Option.mem_some.mp htext
      refine ⟨List.cons_ne_nil c cs, ?_⟩
      intro d hd
      rw [← htake] at hd
      exact (isPlain_iff d).mp (List.mem_takeWhile_imp hd)
    · exact absurd h (by simp)
  · exact absurd h (by simp)

/-- What is read as a slot is one. -/
theorem wellFormed_of_read? {s rest : Text} {slot : Slot}
    (h : Slot.read? s = some (slot, rest)) : WellFormed slot := by
  unfold Slot.read? at h
  split at h
  · split at h
    · rename_i name after hname
      exact wellFormed_of_readTail? (readName?_eq_some_iff.mp hname).2.1 h
    · exact absurd h (by simp)
  · exact absurd h (by simp)

theorem isSlot_render_of_read? {s rest : Text} {slot : Slot}
    (h : Slot.read? s = some (slot, rest)) : IsSlot slot.render :=
  isSlot_iff.mpr ⟨slot, wellFormed_of_read? h, rfl⟩

/-- A slot is read whole, whatever follows it. -/
theorem read?_render_append {slot : Slot} (h : WellFormed slot) (rest : Text) :
    Slot.read? (slot.render ++ rest) = some (slot, rest) := by
  obtain ⟨name, sample⟩ := slot
  obtain ⟨hname, hsample⟩ := h
  cases sample with
  | none =>
      have hread : readName? (name ++ '>' :: rest) = some (name, '>' :: rest) :=
        readName?_eq_some_iff.mpr ⟨rfl, hname, by simp [not_isNameRest_close]⟩
      simp [Slot.render, Slot.read?, hread, Slot.readTail?]
  | some sample =>
      obtain ⟨hne, hplain⟩ := hsample sample rfl
      have hread : readName? (name ++ '~' :: (sample ++ '>' :: rest)) =
          some (name, '~' :: (sample ++ '>' :: rest)) :=
        readName?_eq_some_iff.mpr ⟨rfl, hname, by simp [not_isNameRest_tilde]⟩
      have hspan : (sample ++ '>' :: rest).takeWhile isPlain = sample ∧
          (sample ++ '>' :: rest).dropWhile isPlain = '>' :: rest :=
        span_append (fun d hd => (isPlain_iff d).mpr (hplain d hd)) (by simp; decide)
      -- the name stops at the tilde, and the sample at the closing bracket
      have htext : Slot.render ⟨name, some sample⟩ ++ rest =
          '<' :: (name ++ '~' :: (sample ++ '>' :: rest)) := by simp [Slot.render]
      obtain ⟨c, cs, rfl⟩ := List.exists_cons_of_ne_nil hne
      rw [htext, Slot.read?, hread]
      simp only [Slot.readTail?, hspan]

/-- A slot is read where the text begins with its written form. -/
theorem read?_eq_some_iff {s rest : Text} {slot : Slot} :
    Slot.read? s = some (slot, rest) ↔ WellFormed slot ∧ s = slot.render ++ rest := by
  constructor
  · intro h
    exact ⟨wellFormed_of_read? h, Slot.read?_eq_some h⟩
  · rintro ⟨hslot, rfl⟩
    exact read?_render_append hslot rest

theorem read?_append_of_isSlot {t : Text} (h : IsSlot t) :
    ∃ slot : Slot, slot.render = t ∧ ∀ rest, Slot.read? (t ++ rest) = some (slot, rest) := by
  obtain ⟨slot, hslot, rfl⟩ := isSlot_iff.mp h
  exact ⟨slot, rfl, read?_render_append hslot⟩

/-! ## Reading a run -/

theorem isBodyChar_iff (bars : Bool) (c : Char) :
    isBodyChar bars c = true ↔ IsPlain c ∨ (bars = true ∧ c = '|') := by
  simp only [isBodyChar, Bool.or_eq_true, Bool.and_eq_true, isPlain_iff, beq_iff_eq]

theorem isUnit_of_isBodyChar {bars : Bool} {c : Char} (h : isBodyChar bars c = true) :
    IsUnit bars [c] := by
  rcases (isBodyChar_iff bars c).mp h with hplain | ⟨hbars, rfl⟩
  · exact .plain hplain
  · exact .bar hbars

theorem IsRun.append {bars : Bool} {s t : Text} (hs : IsRun bars s) (ht : IsRun bars t) :
    IsRun bars (s ++ t) := by
  induction hs with
  | nil => exact ht
  | cons hfirst _ ih =>
      rw [List.append_assoc]
      exact .cons hfirst ih

/-- Every slot opens with an angle bracket, which stands for itself nowhere. -/
theorem IsSlot.exists_cons {t : Text} (h : IsSlot t) : ∃ cs, t = '<' :: cs := by
  cases h <;> exact ⟨_, rfl⟩

theorem isBodyChar_open (bars : Bool) : isBodyChar bars '<' = false := by
  cases bars <;> decide

/-- A unit at the start of a text goes to the body. -/
theorem splitBody_append_of_isUnit {bars : Bool} {u : Text} (h : IsUnit bars u) (t : Text) :
    splitBody bars (u ++ t) = (u ++ (splitBody bars t).1, (splitBody bars t).2) := by
  cases h with
  | plain hc => exact splitBody_cons ((isBodyChar_iff bars _).mpr (Or.inl hc)) t
  | bar hbars => exact splitBody_cons ((isBodyChar_iff bars _).mpr (Or.inr ⟨hbars, rfl⟩)) t
  | slot hslot =>
      obtain ⟨slot, hrender, hread⟩ := read?_append_of_isSlot hslot
      obtain ⟨cs, rfl⟩ := hslot.exists_cons
      have hsplit := splitBody_slot (isBodyChar_open bars) (hread t)
      rw [hrender] at hsplit
      exact hsplit

/-- A run at the start of a text goes to the body. -/
theorem splitBody_append_of_isRun {bars : Bool} {s : Text} (h : IsRun bars s) (t : Text) :
    splitBody bars (s ++ t) = (s ++ (splitBody bars t).1, (splitBody bars t).2) := by
  induction h with
  | nil => rfl
  | cons hfirst _ ih => rw [List.append_assoc, splitBody_append_of_isUnit hfirst, ih,
      List.append_assoc]

/-- What is read as a body is a run. -/
theorem isRun_splitBody (bars : Bool) (s : Text) : IsRun bars (splitBody bars s).1 := by
  fun_induction splitBody bars s with
  | case1 => exact .nil
  | case2 c cs hc halves ih => exact .cons (isUnit_of_isBodyChar hc) ih
  | case3 c cs hc slot rest hread halves ih => exact .cons (.slot (isSlot_render_of_read? hread)) ih
  | case4 c cs hc hread => exact .nil

theorem isBody_iff (bars : Bool) (s : Text) : isBody bars s = true ↔ IsRun bars s ∧ s ≠ [] := by
  constructor
  · intro h
    obtain ⟨hsplit, hne⟩ := splitBody_of_isBody h
    have hrun := isRun_splitBody bars s
    rw [hsplit] at hrun
    exact ⟨hrun, hne⟩
  · rintro ⟨hrun, hne⟩
    have hsplit := splitBody_append_of_isRun hrun []
    rw [List.append_nil, splitBody_nil, List.append_nil] at hsplit
    obtain ⟨c, cs, rfl⟩ := List.exists_cons_of_ne_nil hne
    rw [isBody, hsplit]

/-- A body stops at a character that is neither part of one nor opens a slot. -/
theorem splitBody_of_stop {bars : Bool} {d : Char} (hd : isBodyChar bars d = false) (hopen : d ≠ '<')
    (rest : Text) : splitBody bars (d :: rest) = ([], d :: rest) := by
  refine splitBody_stop hd ?_
  unfold Slot.read?
  split
  · rename_i heq
    exact absurd (List.cons.inj heq).1 hopen
  · rfl

/-- A group is a bracket, a run of one unit or more, and the other bracket. -/
theorem readGroup?_eq_some_iff {opening closing : Char} (hbody : isBodyChar true closing = false)
    (hopen : closing ≠ '<') {s body rest : Text} :
    readGroup? opening closing s = some (body, rest) ↔
      s = opening :: body ++ closing :: rest ∧ body ≠ [] ∧ IsRun true body := by
  constructor
  · intro h
    have htext := readGroup?_eq_some h
    refine ⟨by simpa using htext, ?_⟩
    unfold readGroup? at h
    split at h
    · exact absurd h (by simp)
    · rename_i c cs
      split at h
      · split at h
        · rename_i b bs d tail hsplit
          split at h
          · simp only [Option.some.injEq, Prod.mk.injEq] at h
            obtain ⟨rfl, rfl⟩ := h
            have hrun := isRun_splitBody true cs
            rw [hsplit] at hrun
            exact ⟨by simp, hrun⟩
          · exact absurd h (by simp)
        · exact absurd h (by simp)
      · exact absurd h (by simp)
  · rintro ⟨rfl, hne, hrun⟩
    -- the run is taken whole, and the closing bracket cannot go on with it
    have hsplit := splitBody_append_of_isRun hrun (closing :: rest)
    rw [splitBody_of_stop hbody hopen, List.append_nil] at hsplit
    obtain ⟨b, bs, rfl⟩ := List.exists_cons_of_ne_nil hne
    rw [List.cons_append, readGroup?, if_pos rfl, hsplit]
    simp

/-! ## Left-most constructs -/

section FindFirst

variable {read? : Text → Option (Text × Text)}

/-- **Nothing is found exactly where nothing can be read.** -/
theorem findFirst_eq_none_iff (hnil : read? [] = none) {s : Text} :
    findFirst read? s = none ↔ ∀ before rest, s = before ++ rest → read? rest = none := by
  induction s with
  | nil =>
      refine ⟨fun _ before rest h => ?_, fun _ => rfl⟩
      obtain ⟨_, rfl⟩ := List.append_eq_nil_iff.mp h.symm
      exact hnil
  | cons c cs ih =>
      constructor
      · intro h before rest hs
        unfold findFirst at h
        split at h
        · exact absurd h (by simp)
        · rename_i hread
          cases before with
          | nil =>
              rw [List.nil_append] at hs
              rw [← hs]
              exact hread
          | cons d before =>
              rw [List.cons_append, List.cons.injEq] at hs
              exact ih.mp (Option.map_eq_none_iff.mp h) before rest hs.2
      · intro h
        unfold findFirst
        rw [h [] (c :: cs) rfl]
        have hrest : findFirst read? cs = none :=
          ih.mpr fun before rest hs => h (c :: before) rest (by rw [hs, List.cons_append])
        simp [hrest]

/-- **What is found is read at the left-most place where something can be read.** -/
theorem findFirst_eq_some_iff {s : Text} {occurrence : Occurrence} (hnil : read? [] = none) :
    findFirst read? s = some occurrence ↔
      ∃ found, s = occurrence.before ++ found ∧
        read? found = some (occurrence.body, occurrence.after) ∧
        ∀ before rest, s = before ++ rest → before.length < occurrence.before.length →
          read? rest = none := by
  induction s generalizing occurrence with
  | nil =>
      constructor
      · intro h
        exact absurd h (by simp [findFirst])
      · rintro ⟨found, hs, hread, _⟩
        obtain ⟨_, rfl⟩ := List.append_eq_nil_iff.mp hs.symm
        rw [hnil] at hread
        exact absurd hread (by simp)
  | cons c cs ih =>
      constructor
      · intro h
        unfold findFirst at h
        split at h
        · rename_i body rest hread
          rw [Option.some.injEq] at h
          subst h
          exact ⟨c :: cs, rfl, hread, fun _ _ _ hlt => absurd hlt (Nat.not_lt_zero _)⟩
        · rename_i hread
          obtain ⟨inner, hinner, rfl⟩ := Option.map_eq_some_iff.mp h
          obtain ⟨found, hcs, hfound, hfirst⟩ := ih.mp hinner
          refine ⟨found, by simp [Occurrence.shift, ← hcs], hfound, ?_⟩
          intro before rest hs hlt
          cases before with
          | nil =>
              rw [List.nil_append] at hs
              rw [← hs]
              exact hread
          | cons d before =>
              rw [List.cons_append, List.cons.injEq] at hs
              exact hfirst before rest hs.2 (Nat.lt_of_succ_lt_succ hlt)
      · obtain ⟨front, body, after⟩ := occurrence
        rintro ⟨found, hs, hread, hfirst⟩
        unfold findFirst
        cases front with
        | nil =>
            rw [List.nil_append] at hs
            rw [hs, hread]
        | cons d front =>
            rw [List.cons_append, List.cons.injEq] at hs
            obtain ⟨rfl, hs⟩ := hs
            have hinner : findFirst read? cs = some ⟨front, body, after⟩ := by
              refine ih.mpr ⟨found, hs, hread, ?_⟩
              intro before rest hcs hlt
              exact hfirst (c :: before) rest (by rw [hcs, List.cons_append])
                (Nat.succ_lt_succ hlt)
            rw [hfirst [] (c :: cs) rfl (Nat.succ_pos _), hinner]
            rfl

end FindFirst

end Phrasing.Grammar
