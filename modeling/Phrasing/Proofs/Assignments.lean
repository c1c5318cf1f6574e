import Mathlib.Data.List.TakeWhile
import Phrasing.Variables

/-!
# `Proofs.Assignments` — what an assignment is, and the first text that is none

An assignment is a name and a value with an equals sign between them, the first of the text. The name
may stand in white space, but not be all white space; the value is any text, the empty one included.

## Contents
- **`IsAssignment`**, `readAssignment?_eq_none_iff`: the texts that are assignments.
- **`Assigns`**: the name and the value of an assignment; `Variables.isAssignment_iff`: exactly
  assignments have them.
- **`Variables.assignAll_cases`**: assignments are carried out up to the first text that is none.
-/

namespace Phrasing

open Text

/-- Nothing is left of a text exactly if all of it is white space. -/
theorem trim_eq_nil_iff {s : Text} : trim s = [] ↔ ∀ c ∈ s, isBlank c = true := by
  rw [trim, List.reverse_eq_nil_iff, List.dropWhile_eq_nil_iff]
  constructor
  · intro h c hc
    rw [← @List.takeWhile_append_dropWhile _ isBlank s] at hc
    rcases List.mem_append.mp hc with hc | hc
    · exact List.mem_takeWhile_imp hc
    · exact h c (List.mem_reverse.mpr hc)
  · intro h c hc
    rw [List.mem_reverse] at hc
    exact h c (List.dropWhile_subset _ hc)

/-- The parts of a text before and behind its first mark. -/
theorem eq_append_mark_iff {mark : Char} {s key value : Text} :
    s = key ++ mark :: value ∧ mark ∉ key ↔
      s.takeWhile (· != mark) = key ∧ s.dropWhile (· != mark) = mark :: value := by
  constructor
  · rintro ⟨rfl, hkey⟩
    have hpass : ∀ c ∈ key, (c != mark) = true := by
      intro c hc
      rw [bne_iff_ne]
      rintro rfl
      exact hkey hc
    rw [List.takeWhile_append_of_pos hpass, List.dropWhile_append_of_pos hpass]
    simp
  · rintro ⟨hkey, hvalue⟩
    refine ⟨by rw [← hkey, ← hvalue, List.takeWhile_append_dropWhile], ?_⟩
    intro hmem
    rw [← hkey] at hmem
    exact absurd (List.mem_takeWhile_imp hmem) (by simp)

/-- **An assignment**: a name that is not all white space, the first equals sign, and a value. -/
def IsAssignment (s : Text) : Prop :=
  ∃ key value, s = key ++ '=' :: value ∧ '=' ∉ key ∧ ∃ c ∈ key, isBlank c = false

/-- **The name and the value that a text assigns**: the name is what stands before the first equals
    sign, trimmed, and the value all that stands behind it, as it is. -/
def Assigns (s : Text) (entry : Text × Text) : Prop :=
  ∃ key, s = key ++ '=' :: entry.2 ∧ '=' ∉ key ∧ trim key = entry.1 ∧ entry.1 ≠ []

namespace Variables

/-- An assignment is read as its name, trimmed, and its value. -/
theorem readAssignment?_eq_some_iff {s name value : Text} :
    readAssignment? s = some (name, value) ↔ Assigns s (name, value) := by
  constructor
  · intro h
    unfold readAssignment? at h
    split at h
    · exact absurd h (by simp)
    · rename_i mark rest hdrop
      split at h
      · exact absurd h (by simp)
      · rename_i c cs htrim
        rw [Option.some.injEq, Prod.mk.injEq] at h
        obtain ⟨rfl, rfl⟩ := h
        have hmark : mark = '=' := by
          have hhead := List.head?_dropWhile_not (· != '=') s
          rw [hdrop] at hhead
          simpa using hhead
        subst hmark
        obtain ⟨htext, hkey⟩ := eq_append_mark_iff.mpr ⟨rfl, hdrop⟩
        exact ⟨_, htext, hkey, htrim, List.cons_ne_nil c cs⟩
  · rintro ⟨key, htext, hkey, htrim, hne⟩
    obtain ⟨htake, hdrop⟩ := eq_append_mark_iff.mp ⟨htext, hkey⟩
    obtain ⟨c, cs, rfl⟩ := List.exists_cons_of_ne_nil hne
    rw [readAssignment?, hdrop, htake]
    simp only [htrim]

/-- Nothing is read exactly of a text that is no assignment. -/
theorem readAssignment?_eq_none_iff {s : Text} : readAssignment? s = none ↔ ¬ IsAssignment s := by
  constructor
  · rintro h ⟨key, value, htext, hkey, c, hc, hblank⟩
    have hne : trim key ≠ [] := by
      intro htrim
      rw [trim_eq_nil_iff.mp htrim c hc] at hblank
      exact absurd hblank (by simp)
    have hread := readAssignment?_eq_some_iff.mpr ⟨key, htext, hkey, rfl, hne⟩
    rw [h] at hread
    exact absurd hread (by simp)
  · intro h
    rw [Option.eq_none_iff_forall_ne_some]
    rintro ⟨name, value⟩ hread
    obtain ⟨key, htext, hkey, htrim, hne⟩ := readAssignment?_eq_some_iff.mp hread
    refine h ⟨key, value, htext, hkey, ?_⟩
    -- otherwise nothing would be left of the name
    refine Classical.byContradiction fun hall => hne ?_
    rw [← htrim, trim_eq_nil_iff]
    intro c hc
    refine Classical.byContradiction fun hblank => hall ⟨c, hc, ?_⟩
    simpa using hblank

/-- **Exactly assignments assign a value to a name.** -/
theorem isAssignment_iff {s : Text} : IsAssignment s ↔ ∃ entry, Assigns s entry := by
  constructor
  · intro h
    cases hread : readAssignment? s with
    | none => exact absurd h (readAssignment?_eq_none_iff.mp hread)
    | some entry => exact ⟨entry, readAssignment?_eq_some_iff.mp hread⟩
  · rintro ⟨entry, h⟩
    have hread := readAssignment?_eq_some_iff.mpr h
    refine Classical.byContradiction fun hnot => ?_
    rw [readAssignment?_eq_none_iff.mpr hnot] at hread
    exact absurd hread (by simp)

/-- A text that assigns a value to a name is carried out as an insertion. -/
theorem assign_of_assigns {s : Text} {entry : Text × Text} (h : Assigns s entry) (vars : Variables) :
    vars.assign s = .ok (vars.insert entry.1 entry.2) := by
  have hread : readAssignment? s = some (entry.1, entry.2) := readAssignment?_eq_some_iff.mpr h
  rw [assign, hread]

/-- Any other text is refused. -/
theorem assign_of_not_isAssignment {s : Text} (h : ¬ IsAssignment s) (vars : Variables) :
    vars.assign s = .error (.invalidAssignment s) := by
  rw [assign, readAssignment?_eq_none_iff.mpr h]

/-- One assignment: carried out, or refused as what it is. -/
theorem assign_cases (vars : Variables) (s : Text) :
    (IsAssignment s ∧ ∃ table, vars.assign s = .ok table) ∨
      (¬ IsAssignment s ∧ vars.assign s = .error (.invalidAssignment s)) := by
  by_cases hs : IsAssignment s
  · obtain ⟨entry, hentry⟩ := isAssignment_iff.mp hs
    exact Or.inl ⟨hs, _, assign_of_assigns hentry vars⟩
  · exact Or.inr ⟨hs, assign_of_not_isAssignment hs vars⟩

/-- **Up to the first that is none.** Either all texts are assignments, and they are carried out; or
    the first that is none is refused. -/
theorem assignAll_cases (vars : Variables) (assignments : List Text) :
    ((∀ s ∈ assignments, IsAssignment s) ∧ ∃ table, vars.assignAll assignments = .ok table) ∨
      ∃ earlier s later, assignments = earlier ++ s :: later ∧
        (∀ other ∈ earlier, IsAssignment other) ∧ ¬ IsAssignment s ∧
        vars.assignAll assignments = .error (.invalidAssignment s) := by
  induction assignments generalizing vars with
  | nil => exact Or.inl ⟨by simp, vars, rfl⟩
  | cons first rest ih =>
      rcases vars.assign_cases first with ⟨hfirst, table, htable⟩ | ⟨hfirst, hrefused⟩
      · rcases ih table with ⟨hrest, last, hlast⟩ | ⟨earlier, s, later, rfl, hearlier, hs, hrefused⟩
        · refine Or.inl ⟨List.forall_mem_cons.mpr ⟨hfirst, hrest⟩, last, ?_⟩
          rw [assignAll, htable]
          exact hlast
        · refine Or.inr ⟨first :: earlier, s, later, rfl,
            List.forall_mem_cons.mpr ⟨hfirst, hearlier⟩, hs, ?_⟩
          rw [assignAll, htable]
          exact hrefused
      · refine Or.inr ⟨[], first, rest, rfl, by simp, hfirst, ?_⟩
        rw [assignAll, hrefused]

end Variables

end Phrasing
