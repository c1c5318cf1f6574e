import Phrasing.Failure
import Phrasing.Text.Lowercase

/-!
# `Phrasing.Variables` — the values of variables

A table of variables maps names to texts. Names that differ only in letter case are one name, so the
table is kept by lower-case names. Its entries are sorted, so tables with the same entries are equal.

## Contents
- **`Variables`**: the sorted table; `put`, `find?` work on keys as they are, `insert` and `get?` on
  names in any letter case. `find?_put` is the law of the table.
- **`Variables.assign`**: insertion of an assignment `NAME=VALUE`.
- **`Variables.extend`**, **`Variables.ofPairs`**: tables made of others, later entries winning.
- **`Variables.longest`**: a bound on the length of the values (`length_le_longest`).
-/

namespace Phrasing

open Text

/-! ## Sorted entries -/

/-- The entries with the key's value set, the others as they were. -/
def putEntry (key value : Text) : List (Text × Text) → List (Text × Text)
  | [] => [(key, value)]
  | (k, v) :: rest =>
      if k = key then (key, value) :: rest
      else if key < k then (key, value) :: (k, v) :: rest
      else (k, v) :: putEntry key value rest

/-- The value of a key. -/
def findEntry (key : Text) : List (Text × Text) → Option Text
  | [] => none
  | (k, v) :: rest => if k = key then some v else findEntry key rest

theorem mem_putEntry {key value : Text} {entries : List (Text × Text)} {entry : Text × Text}
    (h : entry ∈ putEntry key value entries) : entry = (key, value) ∨ entry ∈ entries := by
  induction entries with
  | nil => simpa [putEntry] using h
  | cons first rest ih =>
      obtain ⟨k, v⟩ := first
      unfold putEntry at h
      split at h
      · rcases List.mem_cons.mp h with h | h
        · exact Or.inl h
        · exact Or.inr (List.mem_cons_of_mem _ h)
      · split at h
        · rcases List.mem_cons.mp h with h | h
          · exact Or.inl h
          · exact Or.inr h
        · rcases List.mem_cons.mp h with h | h
          · exact Or.inr (h ▸ List.mem_cons_self)
          · rcases ih h with h | h
            · exact Or.inl h
            · exact Or.inr (List.mem_cons_of_mem _ h)

theorem pairwise_putEntry (key value : Text) {entries : List (Text × Text)}
    (h : entries.Pairwise fun a b => a.1 < b.1) :
    (putEntry key value entries).Pairwise fun a b => a.1 < b.1 := by
  induction entries with
  | nil => simp [putEntry]
  | cons first rest ih =>
      obtain ⟨k, v⟩ := first
      rw [List.pairwise_cons] at h
      unfold putEntry
      split
      · rename_i hk
        subst hk
        exact List.pairwise_cons.mpr h
      · rename_i hk
        split
        · rename_i hlt
          refine List.pairwise_cons.mpr ⟨?_, List.pairwise_cons.mpr h⟩
          intro entry hentry
          rcases List.mem_cons.mp hentry with rfl | hentry
          · exact hlt
          · exact List.lt_trans hlt (h.1 entry hentry)
        · rename_i hlt
          refine List.pairwise_cons.mpr ⟨?_, ih h.2⟩
          intro entry hentry
          rcases mem_putEntry hentry with rfl | hentry
          · refine Classical.byContradiction fun hnot => hk ?_
            exact List.le_antisymm (List.not_lt.mp hlt) (List.not_lt.mp hnot)
          · exact h.1 entry hentry

theorem findEntry_putEntry (key value other : Text) (entries : List (Text × Text)) :
    findEntry other (putEntry key value entries) =
      if key = other then some value else findEntry other entries := by
  induction entries with
  | nil => simp [putEntry, findEntry]
  | cons first rest ih =>
      obtain ⟨k, v⟩ := first
      unfold putEntry
      split
      · rename_i hk
        subst hk
        simp only [findEntry]
        split <;> rfl
      · rename_i hk
        split
        · simp only [findEntry]
        · simp only [findEntry, ih]
          split
          · rename_i hother
            rw [if_neg (fun heq => hk (by rw [hother, heq]))]
          · rfl

/-! ## Tables of variables -/

/-- A table of variables: its entries, sorted by name. -/
structure Variables where
  entries : List (Text × Text)
  sorted : entries.Pairwise fun a b => a.1 < b.1
deriving Repr, DecidableEq

namespace Variables

/-- The table without entries. -/
def empty : Variables := ⟨[], List.Pairwise.nil⟩

/-- The table with the value of a key set. -/
def put (vars : Variables) (key value : Text) : Variables :=
  ⟨putEntry key value vars.entries, pairwise_putEntry key value vars.sorted⟩

/-- The value of a key. -/
def find? (vars : Variables) (key : Text) : Option Text := findEntry key vars.entries

/-- The table with the value of a name set, in whatever letter case the name is written. -/
def insert (vars : Variables) (name value : Text) : Variables :=
  vars.put (lower name) value

/-- The value of a name, in whatever letter case it is written. -/
def get? (vars : Variables) (name : Text) : Option Text := vars.find? (lower name)

/-- Number of variables. -/
def size (vars : Variables) : Nat := vars.entries.length

/-- The table with all entries of another set. -/
def extend (vars other : Variables) : Variables :=
  other.entries.foldl (fun table entry => table.put entry.1 entry.2) vars

/-- The table of a list of names and values. -/
def ofPairs (pairs : List (Text × Text)) : Variables :=
  pairs.foldl (fun table pair => table.insert pair.1 pair.2) empty

/-- Name and value of an assignment: the texts before and after its first equals sign. The name is
    trimmed, and it may not be empty. -/
def readAssignment? (s : Text) : Option (Text × Text) :=
  match s.dropWhile (· != '=') with
  | [] => none
  | _ :: value =>
      match trim (s.takeWhile (· != '=')) with
      | [] => none
      | c :: cs => some (c :: cs, value)

/-- The table with an assignment carried out. -/
def assign (vars : Variables) (assignment : Text) : Except Failure Variables :=
  match readAssignment? assignment with
  | some (name, value) => .ok (vars.insert name value)
  | none => .error (.invalidAssignment assignment)

/-- The table with assignments carried out in order, up to the first that is none. -/
def assignAll (vars : Variables) : List Text → Except Failure Variables
  | [] => .ok vars
  | assignment :: rest =>
      match vars.assign assignment with
      | .ok table => table.assignAll rest
      | .error failure => .error failure

/-- Length of the longest value. -/
def longest (vars : Variables) : Nat :=
  vars.entries.foldr (fun entry length => max entry.2.length length) 0

/-! ## Laws -/

@[simp] theorem find?_empty (key : Text) : empty.find? key = none := rfl

@[simp] theorem find?_put (vars : Variables) (key value other : Text) :
    (vars.put key value).find? other =
      if key = other then some value else vars.find? other :=
  findEntry_putEntry key value other vars.entries

/-- No value is longer than the longest. -/
theorem length_le_longest {vars : Variables} {name value : Text}
    (h : vars.get? name = some value) : value.length ≤ vars.longest := by
  unfold get? find? at h
  unfold longest
  generalize vars.entries = entries at h
  induction entries with
  | nil => simp [findEntry] at h
  | cons first rest ih =>
      obtain ⟨k, v⟩ := first
      unfold findEntry at h
      rw [List.foldr_cons]
      split at h
      · rw [Option.some.injEq] at h
        subst h
        exact Nat.le_max_left _ _
      · exact Nat.le_trans (ih h) (Nat.le_max_right _ _)

/-- A variable with a value has an entry under its lower-case name. -/
theorem mem_entries_of_get? {vars : Variables} {name value : Text}
    (h : vars.get? name = some value) : (lower name, value) ∈ vars.entries := by
  unfold get? find? at h
  generalize vars.entries = entries at h
  induction entries with
  | nil => exact absurd h (by simp [findEntry])
  | cons first rest ih =>
      obtain ⟨key, other⟩ := first
      unfold findEntry at h
      split at h
      · rename_i hkey
        rw [Option.some.injEq] at h
        rw [← hkey, h]
        exact List.mem_cons_self
      · exact List.mem_cons_of_mem _ (ih h)

/-- What holds of all values, and of the empty text, holds of whatever a variable is taken for. -/
theorem getD_get?_of_entries {vars : Variables} {P : Text → Prop} (hnil : P [])
    (h : ∀ entry ∈ vars.entries, P entry.2) (name : Text) : P ((vars.get? name).getD []) := by
  cases hget : vars.get? name with
  | none => exact hnil
  | some value => exact h _ (mem_entries_of_get? hget)

end Variables

end Phrasing
