import Phrasing.Template.Slot

/-!
# `Phrasing.Template.Body` — bodies of literal text

A body is a run of plain characters and slots; where a choice may stand, also of bars.

## Contents
- **`splitBody`**: the longest body that a text begins with, and the rest. `splitBody_append` puts
  the text together again; `splitBody_cons`, `splitBody_slot`, `splitBody_stop` compute it.
- **`isBody`**: whether a text is nothing but a body.
-/

namespace Phrasing

/-- Whether a character stands for itself in a body: a plain one or, with `bars`, also a bar. -/
def isBodyChar (bars : Bool) (c : Char) : Bool :=
  isPlain c || (bars && c == '|')

/-- The longest body at the start of a text, and the rest of the text. -/
def splitBody (bars : Bool) (s : Text) : Text × Text :=
  match s with
  | [] => ([], [])
  | c :: cs =>
      if isBodyChar bars c then
        let halves := splitBody bars cs
        (c :: halves.1, halves.2)
      else
        match _ : Slot.read? (c :: cs) with
        | some (slot, rest) =>
            let halves := splitBody bars rest
            (slot.render ++ halves.1, halves.2)
        | none => ([], c :: cs)
termination_by s.length
decreasing_by
  · simp
  · exact Slot.length_lt_of_read? (by assumption)

/-- Whether all of a text is one body, and not an empty one. -/
def isBody (bars : Bool) (s : Text) : Bool :=
  match splitBody bars s with
  | (_ :: _, []) => true
  | _ => false

/-! ## Computing a body -/

theorem splitBody_nil (bars : Bool) : splitBody bars [] = ([], []) := by
  rw [splitBody]

theorem splitBody_cons {bars : Bool} {c : Char} (hc : isBodyChar bars c = true) (cs : Text) :
    splitBody bars (c :: cs) = (c :: (splitBody bars cs).1, (splitBody bars cs).2) := by
  rw [splitBody, if_pos hc]

theorem splitBody_slot {bars : Bool} {c : Char} {cs rest : Text} {slot : Slot}
    (hc : isBodyChar bars c = false) (h : Slot.read? (c :: cs) = some (slot, rest)) :
    splitBody bars (c :: cs) =
      (slot.render ++ (splitBody bars rest).1, (splitBody bars rest).2) := by
  rw [splitBody, if_neg (by simp [hc])]
  split
  · rename_i slot' rest' h'
    rw [h, Option.some.injEq, Prod.mk.injEq] at h'
    obtain ⟨rfl, rfl⟩ := h'
    rfl
  · rename_i h'
    rw [h] at h'
    exact absurd h' (by simp)

theorem splitBody_stop {bars : Bool} {c : Char} {cs : Text} (hc : isBodyChar bars c = false)
    (h : Slot.read? (c :: cs) = none) : splitBody bars (c :: cs) = ([], c :: cs) := by
  rw [splitBody, if_neg (by simp [hc])]
  split
  · rename_i h'
    rw [h] at h'
    exact absurd h' (by simp)
  · rfl

/-- The body and the rest make up the text. -/
theorem splitBody_append (bars : Bool) (s : Text) :
    (splitBody bars s).1 ++ (splitBody bars s).2 = s := by
  fun_induction splitBody bars s with
  | case1 => rfl
  | case2 c cs hc halves ih => simpa [halves] using ih
  | case3 c cs hc slot rest h halves ih =>
      rw [Slot.read?_eq_some h]
      simpa [halves] using ih
  | case4 c cs hc h => rfl

/-- A text that is one body is all body. -/
theorem splitBody_of_isBody {bars : Bool} {s : Text} (h : isBody bars s = true) :
    splitBody bars s = (s, []) ∧ s ≠ [] := by
  have happend := splitBody_append bars s
  unfold isBody at h
  split at h
  · rename_i c cs hsplit
    rw [hsplit, List.append_nil] at happend
    subst happend
    exact ⟨hsplit, by simp⟩
  · exact absurd h (by simp)

/-- A body without a bar is a body of literal text alone. -/
theorem splitBody_false_of_no_bar {s : Text} (h : splitBody true s = (s, [])) (hbar : '|' ∉ s) :
    splitBody false s = (s, []) := by
  fun_induction splitBody true s with
  | case1 => exact splitBody_nil false
  | case2 c cs hc halves ih =>
      have hne : c ≠ '|' := fun heq => hbar (by simp [heq])
      have hplain : isBodyChar false c = true := by simpa [isBodyChar, hne] using hc
      simp only [halves, Prod.mk.injEq, List.cons.injEq, true_and] at h
      have hcs := ih (Prod.ext h.1 h.2) (fun hmem => hbar (by simp [hmem]))
      rw [splitBody_cons hplain, hcs]
  | case3 c cs hc slot rest hread halves ih =>
      have hplain : isBodyChar false c = false := by
        simp only [isBodyChar, Bool.or_eq_true, not_or, Bool.not_eq_true] at hc
        simp [isBodyChar, hc.1]
      have htext := Slot.read?_eq_some hread
      simp only [halves, Prod.mk.injEq] at h
      have hrest : (splitBody true rest).1 = rest := by
        have happend := splitBody_append true rest
        rwa [h.2, List.append_nil] at happend
      have hno : '|' ∉ rest := fun hmem => hbar (by rw [htext]; simp [hmem])
      rw [splitBody_slot hplain hread, ih (Prod.ext hrest h.2) hno, htext]
  | case4 c cs hc hread => simp at h

end Phrasing
