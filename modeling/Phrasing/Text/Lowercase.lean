import Phrasing.Text.Blank
import Phrasing.Text.CaseTable

/-!
# `Phrasing.Text.Lowercase` — full Unicode lower-casing

Lower-casing works character by character, with two exceptions of the Unicode standard: a capital I
with a dot becomes two characters, and a capital sigma at the end of a word takes its final form.

## Contents
- **`lower`**: the lower-case form of a text.
- **`lower_lower`**: a lower-case form is its own lower-case form.
-/

namespace Phrasing.Text

/-- Capital I with a dot above. -/
def dottedCapitalI : Char := '\u0130'

/-- Greek capital sigma. -/
def capitalSigma : Char := '\u03A3'

/-- The code point of the single lower-case character. -/
def lowerCode (code : Nat) : Nat :=
  match lowerRuns.find? (·.covers code) with
  | some run => (code + run.shift).toNat
  | none => code

/-- The lower-case form of a character that stands alone. -/
def lowerChar (c : Char) : Text :=
  if c = dottedCapitalI then ['i', '\u0307'] else [Char.ofNat (lowerCode c.toNat)]

/-- Whether the next character that is not passed over is a cased letter. -/
def meetsCased (s : Text) : Bool :=
  match s.dropWhile fun c => inRanges caseIgnorableRanges c.toNat with
  | [] => false
  | c :: _ => inRanges casedRanges c.toNat

/-- The lower-case form of a capital sigma, between the reversed text before it and the text after
    it: the final form where a word ends, the common form elsewhere. -/
def lowerSigma (before after : Text) : Char :=
  if meetsCased before && !meetsCased after then '\u03C2' else '\u03C3'

/-- The lower-case form of a text that follows the reversed text `before`. -/
def lowerAfter (before : Text) : Text → Text
  | [] => []
  | c :: cs =>
      (if c = capitalSigma then [lowerSigma before cs] else lowerChar c) ++ lowerAfter (c :: before) cs

/-- The lower-case form of a text. -/
def lower (s : Text) : Text := lowerAfter [] s

/-! ## Lower-case forms stay as they are -/

/-- Whether the images of one run lie outside another, by their bounds or by their parity. -/
def LowerRun.imageMisses (run other : LowerRun) : Bool :=
  Nat.blt (run.last + run.shift).toNat other.first ||
    Nat.blt other.last (run.first + run.shift).toNat ||
    ((Nat.beq run.stride 2 || Nat.beq run.first run.last) && Nat.beq other.stride 2 &&
      Nat.beq (((run.first + run.shift).toNat + other.first) % 2) 1)

/-- Whether the images of a run are code points of characters. -/
def LowerRun.imageValid (run : LowerRun) : Bool :=
  decide (0 ≤ run.first + run.shift ∧ (run.last + run.shift < 0xD800 ∨
    0xE000 ≤ run.first + run.shift ∧ run.last + run.shift < 0x110000))

theorem lowerRuns_imageMisses :
    (lowerRuns.all fun run => (⟨0x130, 0x130, 2, 0⟩ :: lowerRuns).all run.imageMisses) = true := by
  decide +kernel

theorem lowerRuns_imageValid : lowerRuns.all LowerRun.imageValid = true := by
  decide +kernel

theorem LowerRun.covers_image_eq_false {run other : LowerRun} {code : Nat}
    (hvalid : 0 ≤ run.first + run.shift) (hmisses : run.imageMisses other = true)
    (hcovers : run.covers code = true) : other.covers (code + run.shift).toNat = false := by
  simp only [LowerRun.covers, Bool.and_eq_true, Nat.ble_eq, Nat.beq_eq] at hcovers
  simp only [LowerRun.imageMisses, Bool.or_eq_true, Bool.and_eq_true, Nat.blt_eq, Nat.beq_eq]
    at hmisses
  rw [← Bool.not_eq_true]
  intro himage
  simp only [LowerRun.covers, Bool.and_eq_true, Nat.ble_eq, Nat.beq_eq] at himage
  rcases hmisses with (hmisses | hmisses) | ⟨⟨hrun, hother⟩, hparity⟩
  · omega
  · omega
  · rw [hother] at himage
    rcases hrun with hrun | hrun
    · rw [hrun] at hcovers
      omega
    · omega

/-- A code point of a character that lower-casing leaves alone wherever it stands. -/
def Settled (code : Nat) : Prop :=
  code.isValidChar ∧ lowerCode code = code ∧ code ≠ capitalSigma.toNat ∧
    code ≠ dottedCapitalI.toNat

/-- The image of a code point under its run is settled. -/
theorem LowerRun.settled_of_covers {run : LowerRun} {code : Nat} (hrun : run ∈ lowerRuns)
    (hcovers : run.covers code = true) : Settled (code + run.shift).toNat := by
  have hvalid := List.all_eq_true.mp lowerRuns_imageValid run hrun
  simp only [LowerRun.imageValid, decide_eq_true_eq] at hvalid
  have hmisses : ∀ other ∈ (⟨0x130, 0x130, 2, 0⟩ :: lowerRuns),
      other.covers (code + run.shift).toNat = false := by
    intro other hother
    exact covers_image_eq_false hvalid.1 (List.all_eq_true.mp
      (List.all_eq_true.mp lowerRuns_imageMisses run hrun) other hother) hcovers
  simp only [LowerRun.covers, Bool.and_eq_true, Nat.ble_eq] at hcovers
  refine ⟨?_, ?_, ?_, ?_⟩
  · simp only [Nat.isValidChar]
    omega
  · have hnone : lowerRuns.find? (·.covers (code + run.shift).toNat) = none := by
      rw [List.find?_eq_none]
      intro other hother
      simp [hmisses other (List.mem_cons_of_mem _ hother)]
    rw [lowerCode, hnone]
  · intro heq
    have hsigma := hmisses ⟨0x3A3, 0x3AB, 1, 32⟩ (List.mem_cons_of_mem _ (by decide +kernel))
    rw [heq] at hsigma
    exact absurd hsigma (by decide)
  · intro heq
    have hdotted := hmisses ⟨0x130, 0x130, 2, 0⟩ List.mem_cons_self
    rw [heq] at hdotted
    exact absurd hdotted (by decide)

/-- A code point is the number of the character it stands for. -/
theorem toNat_ofNat {code : Nat} (h : code.isValidChar) : (Char.ofNat code).toNat = code := by
  rw [Char.ofNat, dif_pos h]
  rfl

/-- The lower-case form of a character that stands alone consists of settled characters. -/
theorem settled_of_mem_lowerChar {c d : Char} (hc : c ≠ capitalSigma) (hd : d ∈ lowerChar c) :
    Settled d.toNat := by
  unfold lowerChar at hd
  split at hd
  · simp only [List.mem_cons, List.not_mem_nil, or_false] at hd
    rcases hd with rfl | rfl <;> (unfold Settled; decide +kernel)
  · rename_i hdotted
    simp only [List.mem_singleton] at hd
    subst hd
    have hcode : Settled (lowerCode c.toNat) := by
      unfold lowerCode
      split
      · rename_i run hrun
        exact LowerRun.settled_of_covers (List.mem_of_find?_eq_some hrun)
          (List.find?_some (p := fun run => LowerRun.covers run c.toNat) hrun)
      · rename_i hrun
        refine ⟨c.valid, ?_, fun h => hc (Char.toNat_inj.mp h), fun h => hdotted (Char.toNat_inj.mp h)⟩
        rw [lowerCode, hrun]
    rwa [toNat_ofNat hcode.1]

/-- A text of settled characters is its own lower-case form. -/
theorem lowerAfter_of_settled {before s : Text} (hs : ∀ c ∈ s, Settled c.toNat) :
    lowerAfter before s = s := by
  induction s generalizing before with
  | nil => rfl
  | cons c cs ih =>
      obtain ⟨_, hcode, hsigma, hdotted⟩ := hs c (by simp)
      rw [ne_eq, Char.toNat_inj] at hsigma hdotted
      rw [lowerAfter, if_neg hsigma, lowerChar, if_neg hdotted, hcode,
        ih (fun d hd => hs d (by simp [hd]))]
      simp

/-- Lower-case forms consist of settled characters. -/
theorem settled_of_mem_lowerAfter {before s : Text} {d : Char} (hd : d ∈ lowerAfter before s) :
    Settled d.toNat := by
  induction s generalizing before with
  | nil => simp [lowerAfter] at hd
  | cons c cs ih =>
      rw [lowerAfter, List.mem_append] at hd
      rcases hd with hd | hd
      · split at hd
        · simp only [List.mem_singleton, lowerSigma] at hd
          subst hd
          split <;> (unfold Settled; decide +kernel)
        · rename_i hc
          exact settled_of_mem_lowerChar hc hd
      · exact ih hd

/-- A lower-case form is its own lower-case form. -/
theorem lower_lower (s : Text) : lower (lower s) = lower s :=
  lowerAfter_of_settled fun _ hd => settled_of_mem_lowerAfter hd

end Phrasing.Text
