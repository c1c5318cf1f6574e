/-!
# `Phrasing.Text` — text, measured in bytes

A text is a list of Unicode characters. Places in a text are counted in bytes of its UTF-8 form, so
this module measures texts in bytes and cuts them at byte offsets.

## Contents
- **`Text`**, **`Text.byteSize`**: a text and its length in UTF-8.
- **`Text.cutAt?`**: the two halves of a text at a byte offset, if the offset is a character
  boundary; `cutAt?_eq_some_iff` says exactly which offsets and halves these are.
- **`Text.excerpt?`**: the part between two offsets; `excerpt?_middle` gives it.
- **`Text.ofNat`**, **`Text.lines`**: numbers in decimal, and texts written one a line.
-/

namespace Phrasing

/-- A text: its characters in order. -/
abbrev Text := List Char

namespace Text

/-- Length of a text in UTF-8 bytes. -/
def byteSize : Text → Nat
  | [] => 0
  | c :: cs => c.utf8Size + byteSize cs

/-- The halves of a text before and after a byte offset. There are none when the offset lies beyond
    the text or inside a character. -/
def cutAt? : Text → Nat → Option (Text × Text)
  | s, 0 => some ([], s)
  | [], _ + 1 => none
  | c :: cs, n + 1 =>
      if c.utf8Size ≤ n + 1 then
        (cutAt? cs (n + 1 - c.utf8Size)).map fun halves => (c :: halves.1, halves.2)
      else none

/-- The part of a text between two byte offsets. There is none when one of them lies beyond the text
    or inside a character, or the second before the first. -/
def excerpt? (s : Text) (start stop : Nat) : Option Text := do
  let (head, _) ← cutAt? s stop
  let (_, part) ← cutAt? head start
  return part

/-- A number in decimal digits. -/
def ofNat (n : Nat) : Text := Nat.toDigits 10 n

/-- The texts one after the other, each followed by a line feed. -/
def lines (texts : List Text) : Text := texts.flatMap (· ++ ['\n'])

/-! ## Byte sizes -/

@[simp] theorem byteSize_nil : byteSize [] = 0 := rfl

@[simp] theorem byteSize_cons (c : Char) (cs : Text) :
    byteSize (c :: cs) = c.utf8Size + byteSize cs := rfl

@[simp] theorem byteSize_append (s t : Text) : byteSize (s ++ t) = byteSize s + byteSize t := by
  induction s with
  | nil => simp
  | cons c cs ih => simp [ih, Nat.add_assoc]

/-- What is left of a text takes no more bytes than the text. -/
theorem byteSize_le_of_sublist {s t : Text} (h : s.Sublist t) : byteSize s ≤ byteSize t := by
  induction h with
  | slnil => exact Nat.le_refl _
  | cons c _ ih =>
      rw [byteSize_cons]
      omega
  | cons_cons c _ ih =>
      rw [byteSize_cons, byteSize_cons]
      omega

/-- What is left of a text takes fewer bytes, if it is shorter. -/
theorem byteSize_lt_of_sublist {s t : Text} (h : s.Sublist t) (hlt : s.length < t.length) :
    byteSize s < byteSize t := by
  induction h with
  | slnil => exact absurd hlt (Nat.lt_irrefl _)
  | cons c hsub _ =>
      have hle := byteSize_le_of_sublist hsub
      have hc := c.utf8Size_pos
      rw [byteSize_cons]
      omega
  | cons_cons c _ ih =>
      have hrest := ih (Nat.lt_of_succ_lt_succ hlt)
      rw [byteSize_cons, byteSize_cons]
      omega

/-- Every character takes a byte or more. -/
theorem length_le_byteSize (s : Text) : s.length ≤ byteSize s := by
  induction s with
  | nil => simp
  | cons c cs ih =>
      have hc := c.utf8Size_pos
      simp only [List.length_cons, byteSize_cons]
      omega

/-! ## Cutting at an offset -/

/-- A cut gives back the text, and its first half is as long as the offset says. -/
theorem cutAt?_eq_some {s : Text} {n : Nat} {head tail : Text}
    (h : cutAt? s n = some (head, tail)) : s = head ++ tail ∧ byteSize head = n := by
  induction s generalizing n head with
  | nil =>
      cases n with
      | zero => simp_all [cutAt?]
      | succ n => simp [cutAt?] at h
  | cons c cs ih =>
      cases n with
      | zero => simp_all [cutAt?]
      | succ n =>
          rw [cutAt?] at h
          split at h
          · rename_i hc
            obtain ⟨⟨a, b⟩, hab, heq⟩ := Option.map_eq_some_iff.mp h
            simp only [Prod.mk.injEq] at heq
            obtain ⟨rfl, rfl⟩ := heq
            obtain ⟨hcs, ha⟩ := ih hab
            refine ⟨by simp [hcs], ?_⟩
            simp only [byteSize_cons]
            omega
          · exact absurd h (by simp)

/-- Cutting after the bytes of a first half gives that half and the rest. -/
theorem cutAt?_append (head tail : Text) :
    cutAt? (head ++ tail) (byteSize head) = some (head, tail) := by
  induction head with
  | nil => simp [cutAt?]
  | cons c cs ih =>
      have hc := c.utf8Size_pos
      obtain ⟨n, hn⟩ : ∃ n, byteSize (c :: cs) = n + 1 :=
        ⟨byteSize (c :: cs) - 1, by simp only [byteSize_cons]; omega⟩
      have hle : c.utf8Size ≤ n + 1 := by
        rw [← hn]
        simp
      have hsub : n + 1 - c.utf8Size = byteSize cs := by
        rw [← hn]
        simp
      rw [List.cons_append, hn, cutAt?, if_pos hle, hsub, ih]
      rfl

/-- An offset cuts a text exactly at the boundaries between its characters. -/
theorem cutAt?_eq_some_iff {s : Text} {n : Nat} {head tail : Text} :
    cutAt? s n = some (head, tail) ↔ s = head ++ tail ∧ byteSize head = n := by
  constructor
  · exact cutAt?_eq_some
  · rintro ⟨rfl, rfl⟩
    exact cutAt?_append head tail

/-- The part between the ends of two pieces is the piece in the middle. -/
theorem excerpt?_middle (head middle tail : Text) :
    excerpt? (head ++ middle ++ tail) (byteSize head) (byteSize head + byteSize middle) =
      some middle := by
  rw [excerpt?, ← byteSize_append, cutAt?_append]
  simp [cutAt?_append]

end Text

end Phrasing
