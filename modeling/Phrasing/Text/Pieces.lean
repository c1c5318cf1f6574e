import Phrasing.Text

/-!
# `Phrasing.Text.Pieces` — a text between its marks

Bars separate alternatives, slashes the parts of a path, commas the rules of a filter. A text is cut
at such a mark, and put together again.

## Contents
- **`pieces`**, **`join`**: `join_pieces` says that cutting loses nothing.
- **`length_pieces`**, **`length_add_count_le`**: how many pieces there are and how long they are.
- **`sublist_of_mem_pieces`**: a piece is what is left of the text without some characters.
- **`pieces_of_notMem`**, **`pieces_append_mark`**: cutting at the first mark, if there is one.
- **`pieces_lines`**: lines come back from the text that they make.
-/

namespace Phrasing.Text

/-- The parts of a text between its marks; a text without a mark is its own only part. -/
def pieces (mark : Char) : Text → List Text
  | [] => [[]]
  | c :: cs =>
      if c = mark then [] :: pieces mark cs
      else
        match pieces mark cs with
        | [] => [[c]]
        | part :: parts => (c :: part) :: parts

/-- The texts with a mark between each and the next. -/
def join (mark : Char) : List Text → Text
  | [] => []
  | [part] => part
  | part :: parts => part ++ mark :: join mark parts

theorem pieces_ne_nil (mark : Char) (s : Text) : pieces mark s ≠ [] := by
  cases s with
  | nil => simp [pieces]
  | cons c cs =>
      unfold pieces
      split
      · simp
      · split <;> simp

/-- Joining the pieces gives the text back. -/
theorem join_pieces (mark : Char) (s : Text) : join mark (pieces mark s) = s := by
  induction s with
  | nil => rfl
  | cons c cs ih =>
      have hne := pieces_ne_nil mark cs
      unfold pieces
      split
      · rename_i hc
        cases halt : pieces mark cs with
        | nil => exact absurd halt hne
        | cons part parts =>
            rw [halt] at ih
            simp [join, ih, hc]
      · split
        · rename_i halt
          exact absurd halt hne
        · rename_i part parts halt
          rw [halt] at ih
          cases parts with
          | nil => simpa [join] using ih
          | cons next others => simpa [join] using ih

/-- There is one piece more than there are marks. -/
theorem length_pieces (mark : Char) (s : Text) : (pieces mark s).length = s.count mark + 1 := by
  induction s with
  | nil => rfl
  | cons c cs ih =>
      unfold pieces
      split
      · rename_i hc
        simp [ih, hc]
      · rename_i hc
        rw [List.count_cons_of_ne (fun heq => hc heq)]
        split
        · rename_i halt
          exact absurd halt (pieces_ne_nil mark cs)
        · rename_i part parts halt
          rw [halt] at ih
          simpa using ih

/-- A piece is no longer than its text, and shorter if the text has a mark. -/
theorem length_add_count_le {mark : Char} {s part : Text} (h : part ∈ pieces mark s) :
    part.length + s.count mark ≤ s.length := by
  induction s generalizing part with
  | nil =>
      simp only [pieces, List.mem_singleton] at h
      simp [h]
  | cons c cs ih =>
      unfold pieces at h
      split at h
      · rename_i hc
        simp only [hc, List.count_cons_self, List.length_cons]
        rcases List.mem_cons.mp h with rfl | h
        · have hcount := List.count_le_length (a := mark) (l := cs)
          simp only [List.length_nil]
          omega
        · have hlen := ih h
          omega
      · rename_i hc
        rw [List.count_cons_of_ne (fun heq => hc heq), List.length_cons]
        split at h
        · rename_i halt
          exact absurd halt (pieces_ne_nil mark cs)
        · rename_i first others halt
          rcases List.mem_cons.mp h with rfl | h
          · have hlen : first.length + cs.count mark ≤ cs.length := ih (by simp [halt])
            simp only [List.length_cons]
            omega
          · have hlen : part.length + cs.count mark ≤ cs.length := ih (by simp [halt, h])
            omega

/-- A piece has characters of its text, in their order. -/
theorem sublist_of_mem_pieces {mark : Char} {s part : Text} (h : part ∈ pieces mark s) :
    part.Sublist s := by
  induction s generalizing part with
  | nil =>
      obtain rfl : part = [] := List.mem_singleton.mp h
      exact List.nil_sublist []
  | cons c cs ih =>
      unfold pieces at h
      split at h
      · rcases List.mem_cons.mp h with rfl | h
        · exact List.nil_sublist _
        · exact (ih h).cons c
      · split at h
        · rename_i halt
          exact absurd halt (pieces_ne_nil mark cs)
        · rename_i first others halt
          rcases List.mem_cons.mp h with rfl | h
          · have hfirst : first ∈ pieces mark cs := by simp [halt]
            exact (ih hfirst).cons_cons c
          · have hpart : part ∈ pieces mark cs := by simp [halt, h]
            exact (ih hpart).cons c

/-- Where there is no mark, nothing is cut. -/
theorem pieces_of_notMem {mark : Char} {s : Text} (h : mark ∉ s) : pieces mark s = [s] := by
  induction s with
  | nil => rfl
  | cons c cs ih =>
      rw [List.mem_cons, not_or] at h
      rw [pieces, if_neg (fun hc => h.1 hc.symm), ih h.2]

/-- The first piece ends at the first mark. -/
theorem pieces_append_mark {mark : Char} {s : Text} (h : mark ∉ s) (t : Text) :
    pieces mark (s ++ mark :: t) = s :: pieces mark t := by
  induction s with
  | nil => rw [List.nil_append, pieces, if_pos rfl]
  | cons c cs ih =>
      rw [List.mem_cons, not_or] at h
      rw [List.cons_append, pieces, if_neg (fun hc => h.1 hc.symm), ih h.2]

/-- Lines are cut where they end, and an empty piece is left behind the last. -/
theorem pieces_lines {texts : List Text} (h : ∀ line ∈ texts, '\n' ∉ line) :
    pieces '\n' (lines texts) = texts ++ [[]] := by
  induction texts with
  | nil => rfl
  | cons line rest ih =>
      rw [List.forall_mem_cons] at h
      have hlines : lines (line :: rest) = line ++ '\n' :: lines rest := by simp [lines]
      rw [hlines, pieces_append_mark h.1, ih h.2]
      rfl

end Phrasing.Text
