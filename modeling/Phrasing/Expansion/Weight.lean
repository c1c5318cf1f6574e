import Phrasing.Text

/-!
# `Phrasing.Expansion.Weight` — a measure of the work left to do

A choice gives way to shorter texts, and to no more of them than it has characters and one. A
substitution gives way to a single text that may be longer by a fixed amount, but leaves one
substitution less to do. `weight` falls in both cases, for all variants taken together.

## Contents
- **`total`**: a measure summed up over a list.
- **`climb`**: a measure by length that exceeds `base` and absorbs choices (`total_climb_lt`).
- **`weight`**: the measure by substitutions left and length (`weight_growth_lt`,
  `total_weight_lt`).
-/

namespace Phrasing

/-! ## Sums -/

/-- The sum of a measure over a list. -/
def total {α : Type} (measure : α → Nat) : List α → Nat
  | [] => 0
  | x :: xs => measure x + total measure xs

@[simp] theorem total_nil {α : Type} (measure : α → Nat) : total measure [] = 0 := rfl

@[simp] theorem total_cons {α : Type} (measure : α → Nat) (x : α) (xs : List α) :
    total measure (x :: xs) = measure x + total measure xs := rfl

@[simp] theorem total_append {α : Type} (measure : α → Nat) (xs ys : List α) :
    total measure (xs ++ ys) = total measure xs + total measure ys := by
  induction xs with
  | nil => simp
  | cons x xs ih =>
      rw [List.cons_append, total_cons, total_cons, ih]
      omega

@[simp] theorem total_reverse {α : Type} (measure : α → Nat) (xs : List α) :
    total measure xs.reverse = total measure xs := by
  induction xs with
  | nil => rfl
  | cons x xs ih =>
      rw [List.reverse_cons, total_append, ih, total_cons, total_cons, total_nil]
      omega

@[simp] theorem total_map {α β : Type} (measure : β → Nat) (f : α → β) (xs : List α) :
    total measure (xs.map f) = total (fun x => measure (f x)) xs := by
  induction xs with
  | nil => rfl
  | cons x xs ih => rw [List.map_cons, total_cons, total_cons, ih]

/-! ## Weights -/

/-- Grows fast enough with the length to cover all choices of a text, and exceeds `base`. -/
def climb (base : Nat → Nat) : Nat → Nat
  | 0 => base 0 + 1
  | n + 1 => (n + 2) * climb base n + base (n + 1) + 1

/-- Work that a text of the given length stands for, when so many substitutions are left and each
    may lengthen the text by `growth`. -/
def weight (growth : Nat) : Nat → Nat → Nat
  | 0 => climb fun _ => 0
  | left + 1 => climb fun n => weight growth left (n + growth)

theorem base_lt_climb (base : Nat → Nat) (n : Nat) : base n < climb base n := by
  cases n with
  | zero => simp [climb]
  | succ n =>
      rw [climb]
      omega

theorem climb_le_climb (base : Nat → Nat) {m n : Nat} (h : m ≤ n) :
    climb base m ≤ climb base n := by
  induction h with
  | refl => exact Nat.le_refl _
  | step _ ih =>
      rename_i k _
      have hmul : climb base k ≤ (k + 2) * climb base k := Nat.le_mul_of_pos_left _ (by omega)
      rw [climb]
      omega

/-- Fewer than `n + 2` lengths below `n` weigh less than `n` together. -/
theorem total_climb_lt (base : Nat → Nat) {n : Nat} {lengths : List Nat}
    (hlt : ∀ m ∈ lengths, m < n) (hcount : lengths.length ≤ n + 1) :
    total (climb base) lengths < climb base n := by
  cases n with
  | zero =>
      cases lengths with
      | nil => simp [climb]
      | cons m rest => exact absurd (hlt m (by simp)) (by omega)
  | succ n =>
      have htotal : total (climb base) lengths ≤ lengths.length * climb base n := by
        clear hcount
        induction lengths with
        | nil => simp
        | cons m rest ih =>
            have hm := climb_le_climb base (Nat.le_of_lt_succ (hlt m (by simp)))
            have hrest := ih (fun k hk => hlt k (by simp [hk]))
            rw [total_cons, List.length_cons, Nat.succ_mul]
            omega
      have hmul : lengths.length * climb base n ≤ (n + 2) * climb base n :=
        Nat.mul_le_mul_right _ hcount
      rw [climb]
      omega

theorem weight_pos (growth left n : Nat) : 0 < weight growth left n := by
  cases left <;> exact Nat.lt_of_le_of_lt (Nat.zero_le _) (base_lt_climb _ n)

theorem weight_le_weight (growth left : Nat) {m n : Nat} (h : m ≤ n) :
    weight growth left m ≤ weight growth left n := by
  cases left <;> exact climb_le_climb _ h

/-- A substitution lightens a text, however much it lengthens it within the bound. -/
theorem weight_growth_lt {growth left m n : Nat} (h : m ≤ n + growth) :
    weight growth left m < weight growth (left + 1) n :=
  Nat.lt_of_le_of_lt (weight_le_weight growth left h)
    (base_lt_climb (fun n => weight growth left (n + growth)) n)

/-- The choices of a text weigh less than the text. -/
theorem total_weight_lt (growth left : Nat) {n : Nat} {lengths : List Nat}
    (hlt : ∀ m ∈ lengths, m < n) (hcount : lengths.length ≤ n + 1) :
    total (weight growth left) lengths < weight growth left n := by
  cases left <;> exact total_climb_lt _ hlt hcount

end Phrasing
