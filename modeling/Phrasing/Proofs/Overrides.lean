import Phrasing.Proofs.Commands
import Phrasing.Proofs.LastWritten

/-!
# `Proofs.Overrides` — the variables that a command gathers

A command takes its variables from a file, if one is named, and from assignments, which win over the
file and over earlier ones. It gathers all of them or none: the file is loaded first, and after it the
first text that is no assignment is what the command reports.

## Contents
- **`Variables.assignAll_of_assigns`**: assignments are insertions of what they assign.
- **`Files.Provides`**: the variables that the assignments are carried out on.
- **`gatherVariables_overrides`**.
-/

namespace Phrasing

open Text

/-! ## Assignments in order -/

theorem exists_assigns {assignments : List Text} (h : ∀ s ∈ assignments, IsAssignment s) :
    ∃ log, List.Forall₂ Assigns assignments log := by
  induction assignments with
  | nil => exact ⟨[], .nil⟩
  | cons s rest ih =>
      rw [List.forall_mem_cons] at h
      obtain ⟨entry, hentry⟩ := Variables.isAssignment_iff.mp h.1
      obtain ⟨log, hlog⟩ := ih h.2
      exact ⟨entry :: log, .cons hentry hlog⟩

/-- **Assignments are insertions** of the names and values that they assign. -/
theorem Variables.assignAll_of_assigns {assignments : List Text} {log : List (Text × Text)}
    (h : List.Forall₂ Assigns assignments log) (vars : Variables) :
    vars.assignAll assignments = .ok (vars.insertAll log) := by
  induction h generalizing vars with
  | nil => rfl
  | cons hfirst _ ih =>
      rw [assignAll, assign_of_assigns hfirst]
      exact ih _

/-! ## Files and assignments -/

/-- **The variables that a command begins with**: those of the file, if one is named, otherwise none. -/
def Files.Provides (files : Files) : Option Text → Variables → Prop
  | none, vars => vars = .empty
  | some path, vars => files.loadVariables path = .ok vars

section Gathering

variable {files : Files} {path : Option Text} {vars : Variables}

theorem fileVariables_of_provides (h : files.Provides path vars) :
    fileVariables files path = .ok vars := by
  cases path with
  | none =>
      obtain rfl : vars = .empty := h
      rfl
  | some path =>
      have hload : files.loadVariables path = .ok vars := h
      rw [fileVariables, hload]

/-- Assignments are carried out on what the file provides. -/
theorem gatherVariables_eq_ok_iff (h : files.Provides path vars) {assignments : List Text}
    {table : Variables} :
    gatherVariables files assignments path = .ok table ↔ vars.assignAll assignments = .ok table := by
  simp only [gatherVariables, fileVariables_of_provides h]
  cases vars.assignAll assignments with
  | ok table' => simp
  | error failure => simp

/-- And they fail as they do there. -/
theorem gatherVariables_eq_error_iff (h : files.Provides path vars) {assignments : List Text}
    {complaint : Complaint} :
    gatherVariables files assignments path = .error complaint ↔
      ∃ failure, vars.assignAll assignments = .error failure ∧ complaint = .notAssigned failure := by
  simp only [gatherVariables, fileVariables_of_provides h]
  cases vars.assignAll assignments with
  | ok table' => simp
  | error failure => simp [eq_comm]

end Gathering

/-- **Assignments win over a file, and all are carried out or none.** A file that cannot be loaded is
    reported, whatever the assignments are. Otherwise variables are gathered exactly if all texts are
    assignments: a name then has the value last assigned to it, and the value in the file if none is.
    If some text is no assignment, the first such text is reported. -/
theorem gatherVariables_overrides (files : Files) (assignments : List Text) (path : Option Text) :
    (∀ named failure, path = some named → files.loadVariables named = .error failure →
      gatherVariables files assignments path = .error (.variablesNotLoaded named failure)) ∧
    ∀ vars, files.Provides path vars →
      ((∃ table, gatherVariables files assignments path = .ok table) ↔
        ∀ s ∈ assignments, IsAssignment s) ∧
      (∀ table, gatherVariables files assignments path = .ok table →
        ∃ log, List.Forall₂ Assigns assignments log ∧
          ∀ name, table.get? name = (lastWritten log name).or (vars.get? name)) ∧
      ∀ complaint, gatherVariables files assignments path = .error complaint ↔
        ∃ earlier s later, assignments = earlier ++ s :: later ∧
          (∀ other ∈ earlier, IsAssignment other) ∧ ¬ IsAssignment s ∧
          complaint = .notAssigned (.invalidAssignment s) := by
  refine ⟨?_, fun vars hvars => ⟨?_, ?_, ?_⟩⟩
  · rintro named failure rfl hload
    rw [gatherVariables, fileVariables, hload]
  · simp only [gatherVariables_eq_ok_iff hvars]
    rcases vars.assignAll_cases assignments with
      ⟨hall, hcarried⟩ | ⟨earlier, s, later, rfl, -, hs, hrefused⟩
    · exact iff_of_true hcarried hall
    · refine iff_of_false ?_ fun hall => hs (hall s (by simp))
      rintro ⟨table, htable⟩
      rw [hrefused] at htable
      exact absurd htable (by simp)
  · intro table htable
    rw [gatherVariables_eq_ok_iff hvars] at htable
    have hall : ∀ s ∈ assignments, IsAssignment s := by
      rcases vars.assignAll_cases assignments with
        ⟨hall, -⟩ | ⟨earlier, s, later, -, -, -, hrefused⟩
      · exact hall
      · rw [hrefused] at htable
        exact absurd htable (by simp)
    obtain ⟨log, hlog⟩ := exists_assigns hall
    rw [Variables.assignAll_of_assigns hlog, Except.ok.injEq] at htable
    subst htable
    exact ⟨log, hlog, vars.get?_insertAll log⟩
  · intro complaint
    rw [gatherVariables_eq_error_iff hvars]
    simp only [Variables.assignAll_eq_error_iff]
    constructor
    · rintro ⟨failure, ⟨earlier, s, later, hcut, hearlier, hs, rfl⟩, rfl⟩
      exact ⟨earlier, s, later, hcut, hearlier, hs, rfl⟩
    · rintro ⟨earlier, s, later, hcut, hearlier, hs, rfl⟩
      exact ⟨_, ⟨earlier, s, later, hcut, hearlier, hs, rfl⟩, rfl⟩

/-- A file with the values of two variables, and nothing else. -/
def drinksFile : Files := fun path =>
  if path = "d.json".toList then
    .ok (.file "\x7b\"ΑΣ\":\"tea\",\"b\":\"2\"\x7d".toUTF8)
  else .error .notFound

/-- One variable of the file is assigned a value twice, in two letter cases, the other never; a name that
    is white space is refused, and a file that is missing is reported before that. -/
theorem gatherVariables_overrides_drinksFile :
    (∃ table, gatherVariables drinksFile ["b=1".toList, "\u3000ας ==x ".toList]
        (some "d.json".toList) = .ok table ∧
      table.get? "ΑΣ".toList = some "=x ".toList ∧ table.get? "B".toList = some "1".toList) ∧
    gatherVariables drinksFile ["b=1".toList, "\u3000=2".toList, "b".toList]
        (some "d.json".toList) =
      .error (.notAssigned (.invalidAssignment "\u3000=2".toList)) ∧
    gatherVariables drinksFile ["b".toList] (some "e.json".toList) =
      .error (.variablesNotLoaded "e.json".toList (.unreadable .notFound)) := by
  have hfile : drinksFile.Provides (some "d.json".toList)
      (.ofPairs [("ΑΣ".toList, "tea".toList), ("b".toList, "2".toList)]) := by
    show drinksFile.loadVariables "d.json".toList = _
    decide +kernel
  have hread : ∀ s name value : Text, Variables.readAssignment? s = some (name, value) →
      IsAssignment s ∧ ∀ entry, Assigns s entry → entry = (name, value) := by
    intro s name value hread
    refine ⟨Variables.isAssignment_iff.mpr
      ⟨(name, value), Variables.readAssignment?_eq_some_iff.mp hread⟩, ?_⟩
    intro entry hentry
    have hsame := Variables.readAssignment?_eq_some_iff.mpr hentry
    exact Option.some.inj (hsame.symm.trans hread)
  obtain ⟨hfirst, hfirstOnly⟩ := hread "b=1".toList "b".toList "1".toList (by decide +kernel)
  obtain ⟨hsecond, hsecondOnly⟩ :=
    hread "\u3000ας ==x ".toList "ας".toList "=x ".toList (by decide +kernel)
  refine ⟨?_, ?_, ?_⟩
  · obtain ⟨-, hprovided⟩ := gatherVariables_overrides drinksFile
      ["b=1".toList, "\u3000ας ==x ".toList] (some "d.json".toList)
    obtain ⟨hgathers, hvalues, -⟩ := hprovided _ hfile
    obtain ⟨table, htable⟩ := hgathers.mpr
      (List.forall_mem_cons.mpr ⟨hfirst, List.forall_mem_singleton.mpr hsecond⟩)
    obtain ⟨log, hlog, hget⟩ := hvalues table htable
    have hwritten : log = [("b".toList, "1".toList), ("ας".toList, "=x ".toList)] := by
      cases hlog with
      | cons hassigns hrest =>
          cases hrest with
          | cons hassigns' hnone =>
              cases hnone
              rw [hfirstOnly _ hassigns, hsecondOnly _ hassigns']
    refine ⟨table, htable, ?_, ?_⟩
    · rw [hget, hwritten]
      decide +kernel
    · rw [hget, hwritten]
      decide +kernel
  · obtain ⟨-, hprovided⟩ := gatherVariables_overrides drinksFile
      ["b=1".toList, "\u3000=2".toList, "b".toList] (some "d.json".toList)
    refine ((hprovided _ hfile).2.2 _).mpr
      ⟨["b=1".toList], "\u3000=2".toList, ["b".toList], rfl, ?_, ?_, rfl⟩
    · exact List.forall_mem_singleton.mpr hfirst
    · exact Variables.readAssignment?_eq_none_iff.mp (by decide +kernel)
  · exact (gatherVariables_overrides drinksFile ["b".toList] (some "e.json".toList)).1 _ _ rfl
      (by decide +kernel)

end Phrasing
