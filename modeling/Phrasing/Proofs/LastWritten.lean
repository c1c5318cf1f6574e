import Mathlib.Data.Finset.Card
import Phrasing.Proofs.Assignments

/-!
# `Proofs.LastWritten` — a table of variables remembers what was written last

A table is made of pairs, insertions, assignments and other tables, in any order. Whatever it is made
of, it has for each name the value that was written last under the name, in whatever letter case. That
survives the copying of entries, which are written under their keys as they stand: keys are lower-case,
and lower-case forms stay as they are.

## Contents
- **Entries.** `find?_eq_some_iff` and `eq_of_mem_iff`: a table is what its entries are.
- **`lastWritten`**: the value written last under a name, and what it is of logs that are put together
  or permuted.
- **`Variables.insertAll`**, `get?_insertAll`: insertions win over a table, the last over all others.
- **`Variables.Remembers`**: the invariant, kept by `insert`, `insertAll` and `extend`.
- **`Recipe`**, **`Recipe.Writes`**: how a table is made, and what is written into it on the way.
- **`Recipe.table_lastWritten`**.
-/

namespace Phrasing

open Text

/-! ## Entries -/

namespace Variables

/-- Of entries with distinct keys, each is found under its key. -/
theorem findEntry_eq_some_iff {key value : Text} {entries : List (Text × Text)}
    (h : entries.Pairwise fun a b => a.1 ≠ b.1) :
    findEntry key entries = some value ↔ (key, value) ∈ entries := by
  induction entries with
  | nil => simp [findEntry]
  | cons first rest ih =>
      obtain ⟨k, v⟩ := first
      obtain ⟨hfirst, hrest⟩ := List.pairwise_cons.mp h
      rw [findEntry, List.mem_cons, Prod.mk.injEq]
      by_cases hk : k = key
      · subst hk
        have hlater : (k, value) ∉ rest := fun hmem => hfirst _ hmem rfl
        rw [if_pos rfl, Option.some.injEq]
        simp only [hlater, or_false, true_and]
        exact eq_comm
      · rw [if_neg hk, ih hrest]
        simp [Ne.symm hk]

theorem pairwise_ne (vars : Variables) : vars.entries.Pairwise fun a b => a.1 ≠ b.1 := by
  refine vars.sorted.imp ?_
  intro a b hlt heq
  rw [heq] at hlt
  exact List.lt_irrefl _ hlt

theorem find?_eq_some_iff {vars : Variables} {key value : Text} :
    vars.find? key = some value ↔ (key, value) ∈ vars.entries :=
  findEntry_eq_some_iff vars.pairwise_ne

theorem nodup_entries (vars : Variables) : vars.entries.Nodup := by
  refine vars.pairwise_ne.imp ?_
  rintro a b hne rfl
  exact hne rfl

/-- **Tables with the same entries are equal**, since their entries are sorted. -/
theorem eq_of_mem_iff {vars other : Variables}
    (h : ∀ entry, entry ∈ vars.entries ↔ entry ∈ other.entries) : vars = other := by
  have hperm := (List.perm_ext_iff_of_nodup vars.nodup_entries other.nodup_entries).mpr h
  have hentries : vars.entries = other.entries := by
    refine hperm.eq_of_pairwise ?_ vars.sorted other.sorted
    intro a b _ _ hab hba
    exact absurd (List.lt_trans hab hba) (List.lt_irrefl _)
  obtain ⟨entries, _⟩ := vars
  obtain ⟨entries', _⟩ := other
  rwa [Variables.mk.injEq]

end Variables

/-! ## The value written last -/

/-- **The value written last** under a name, in whatever letter case. A log has the names and values in
    the order in which they were written. -/
def lastWritten (log : List (Text × Text)) (name : Text) : Option Text :=
  (log.reverse.find? fun entry => lower entry.1 = lower name).map Prod.snd

/-- What was written later counts, unless it was written under other names. -/
theorem lastWritten_append (log later : List (Text × Text)) (name : Text) :
    lastWritten (log ++ later) name = (lastWritten later name).or (lastWritten log name) := by
  simp [lastWritten, List.find?_append, Option.map_or]

theorem lastWritten_singleton (entry : Text × Text) (name : Text) :
    lastWritten [entry] name = if lower entry.1 = lower name then some entry.2 else none := by
  by_cases h : lower entry.1 = lower name <;> simp [lastWritten, h]

theorem lastWritten_eq_none_iff {log : List (Text × Text)} {name : Text} :
    lastWritten log name = none ↔ ∀ entry ∈ log, lower entry.1 ≠ lower name := by
  simp [lastWritten]

/-- Where names are distinct, whatever was written is the last under its name. -/
theorem lastWritten_eq_some_iff {log : List (Text × Text)} {name value : Text}
    (h : log.Pairwise fun a b => lower a.1 ≠ lower b.1) :
    lastWritten log name = some value ↔
      ∃ entry ∈ log, lower entry.1 = lower name ∧ entry.2 = value := by
  constructor
  · intro hlast
    obtain ⟨entry, hentry, hvalue⟩ := Option.map_eq_some_iff.mp hlast
    refine ⟨entry, List.mem_reverse.mp (List.mem_of_find?_eq_some hentry), ?_, hvalue⟩
    simpa using List.find?_some hentry
  · rintro ⟨entry, hentry, hname, rfl⟩
    obtain ⟨earlier, later, rfl⟩ := List.append_of_mem hentry
    have hlater : lastWritten later name = none := by
      rw [lastWritten_eq_none_iff]
      intro other hother
      rw [← hname]
      have hrest := (List.pairwise_append.mp h).2.1
      exact ((List.pairwise_cons.mp hrest).1 other hother).symm
    have hcut : earlier ++ entry :: later = (earlier ++ [entry]) ++ later := by simp
    rw [hcut, lastWritten_append, lastWritten_append, hlater, lastWritten_singleton, if_pos hname]
    rfl

/-- Where names are distinct, the order in which they were written does not matter. -/
theorem lastWritten_perm {log log' : List (Text × Text)} (hperm : log.Perm log')
    (h : log.Pairwise fun a b => lower a.1 ≠ lower b.1) (name : Text) :
    lastWritten log name = lastWritten log' name := by
  have h' : log'.Pairwise fun a b => lower a.1 ≠ lower b.1 := hperm.pairwise h Ne.symm
  apply Option.ext
  intro value
  rw [lastWritten_eq_some_iff h, lastWritten_eq_some_iff h']
  simp only [hperm.mem_iff]

/-! ## What a table remembers -/

namespace Variables

/-- The table with names and values inserted in order. -/
def insertAll (vars : Variables) (pairs : List (Text × Text)) : Variables :=
  pairs.foldl (fun table pair => table.insert pair.1 pair.2) vars

/-- An insertion answers for its own name, and leaves other names to the table. -/
theorem get?_insert_or (vars : Variables) (entry : Text × Text) (name : Text) :
    (vars.insert entry.1 entry.2).get? name = (lastWritten [entry] name).or (vars.get? name) := by
  rw [lastWritten_singleton, get?, insert, find?_put]
  by_cases hname : lower entry.1 = lower name
  · rw [if_pos hname, if_pos hname]
    rfl
  · rw [if_neg hname, if_neg hname]
    rfl

/-- **Insertions win over the table**, and the last of them over all others. -/
theorem get?_insertAll (vars : Variables) (pairs : List (Text × Text)) (name : Text) :
    (vars.insertAll pairs).get? name = (lastWritten pairs name).or (vars.get? name) := by
  induction pairs generalizing vars with
  | nil => rfl
  | cons pair rest ih =>
      have hrest := ih (vars.insert pair.1 pair.2)
      rw [get?_insert_or, ← Option.or_assoc, ← lastWritten_append] at hrest
      exact hrest

/-- **A table remembers a log**: it has the value written last under each name, and its keys are
    lower-case. -/
structure Remembers (vars : Variables) (log : List (Text × Text)) : Prop where
  keys : ∀ entry ∈ vars.entries, lower entry.1 = entry.1
  values : ∀ name, vars.get? name = lastWritten log name

namespace Remembers

variable {vars other : Variables} {log log' : List (Text × Text)}

/-- The entries of a table are what it remembers, under lower-case names. -/
theorem mem_entries_iff (h : vars.Remembers log) {key value : Text} :
    (key, value) ∈ vars.entries ↔ lower key = key ∧ lastWritten log key = some value := by
  constructor
  · intro hmem
    have hkey := h.keys _ hmem
    refine ⟨hkey, ?_⟩
    rw [← h.values, get?, hkey]
    exact find?_eq_some_iff.mpr hmem
  · rintro ⟨hkey, hlast⟩
    rw [← h.values, get?, hkey] at hlast
    exact find?_eq_some_iff.mp hlast

/-- **Tables that remember the same are equal.** -/
theorem eq (h : vars.Remembers log) (h' : other.Remembers log')
    (hlog : ∀ name, lastWritten log name = lastWritten log' name) : vars = other := by
  apply eq_of_mem_iff
  rintro ⟨key, value⟩
  rw [h.mem_entries_iff, h'.mem_entries_iff, hlog]

/-- What is remembered of a log, is of any other with the same last values. -/
theorem congr (h : vars.Remembers log)
    (hlog : ∀ name, lastWritten log name = lastWritten log' name) : vars.Remembers log' :=
  ⟨h.keys, fun name => (h.values name).trans (hlog name)⟩

theorem empty : Variables.empty.Remembers [] :=
  ⟨fun _ h => absurd h List.not_mem_nil, fun _ => rfl⟩

/-- An insertion is written last. -/
theorem insert (h : vars.Remembers log) (entry : Text × Text) :
    (vars.insert entry.1 entry.2).Remembers (log ++ [entry]) where
  keys := by
    intro other hother
    rcases mem_putEntry hother with rfl | hother
    · exact lower_lower _
    · exact h.keys other hother
  values := by
    intro name
    rw [get?_insert_or, lastWritten_append, h.values]

theorem insertAll (h : vars.Remembers log) (pairs : List (Text × Text)) :
    (vars.insertAll pairs).Remembers (log ++ pairs) := by
  induction pairs generalizing vars log with
  | nil =>
      rw [List.append_nil]
      exact h
  | cons pair rest ih =>
      have hrest := ih (h.insert pair)
      rwa [List.append_assoc] at hrest

/-- A table of pairs remembers them. -/
theorem ofPairs (pairs : List (Text × Text)) : (Variables.ofPairs pairs).Remembers pairs :=
  empty.insertAll pairs

theorem distinct (h : vars.Remembers log) :
    vars.entries.Pairwise fun a b => lower a.1 ≠ lower b.1 := by
  refine vars.pairwise_ne.imp_of_mem ?_
  intro a b ha hb hne
  rwa [h.keys a ha, h.keys b hb]

/-- **A table remembers its own entries**, as if they had been written in their order. -/
theorem own (h : vars.Remembers log) : vars.Remembers vars.entries where
  keys := h.keys
  values := by
    intro name
    apply Option.ext
    intro value
    rw [lastWritten_eq_some_iff h.distinct, get?, find?_eq_some_iff]
    constructor
    · intro hmem
      exact ⟨_, hmem, lower_lower name, rfl⟩
    · rintro ⟨⟨key, value⟩, hmem, hname, rfl⟩
      rw [← hname, h.keys _ hmem]
      exact hmem

/-- **Copying the entries of a table is writing them**, although no key is put in lower case again. -/
theorem extend (h : vars.Remembers log) (hother : other.Remembers log') :
    (vars.extend other).Remembers (log ++ other.entries) := by
  have hcopy : vars.extend other = vars.insertAll other.entries := by
    apply List.foldl_ext
    intro table entry hentry
    rw [Variables.insert, hother.keys entry hentry]
  rw [hcopy]
  exact h.insertAll other.entries

/-- **There are as many variables as names**, in whatever letter case. -/
theorem size_eq (h : vars.Remembers log) :
    vars.size = (log.map fun entry => lower entry.1).toFinset.card := by
  have hnodup : (vars.entries.map Prod.fst).Nodup := List.pairwise_map.mpr vars.pairwise_ne
  have hkeys : (vars.entries.map Prod.fst).toFinset =
      (log.map fun entry => lower entry.1).toFinset := by
    ext key
    rw [List.mem_toFinset, List.mem_toFinset, List.mem_map, List.mem_map]
    constructor
    · rintro ⟨⟨key, value⟩, hmem, rfl⟩
      obtain ⟨hkey, hlast⟩ := h.mem_entries_iff.mp hmem
      refine Classical.byContradiction fun hnot => ?_
      have hnone : lastWritten log key = none := by
        rw [lastWritten_eq_none_iff, hkey]
        exact fun entry hentry heq => hnot ⟨entry, hentry, heq⟩
      rw [hnone] at hlast
      exact absurd hlast (by simp)
    · rintro ⟨entry, hentry, rfl⟩
      cases hlast : lastWritten log (lower entry.1) with
      | none =>
          rw [lastWritten_eq_none_iff] at hlast
          exact absurd (lower_lower entry.1).symm (hlast entry hentry)
      | some value =>
          exact ⟨_, h.mem_entries_iff.mpr ⟨lower_lower entry.1, hlast⟩, rfl⟩
  rw [← hkeys, List.toFinset_card_of_nodup hnodup, List.length_map, size]

end Remembers

end Variables

/-! ## How a table is made -/

/-- **How a table is made**: from nothing or from pairs, by insertions, assignments and other tables. -/
inductive Recipe
  | empty
  | ofPairs (pairs : List (Text × Text))
  | insert (recipe : Recipe) (name value : Text)
  | assign (recipe : Recipe) (assignment : Text)
  | extend (recipe other : Recipe)

namespace Recipe

/-- The table that is made. It stays as it is where an assignment is refused. -/
def table : Recipe → Variables
  | empty => .empty
  | ofPairs pairs => .ofPairs pairs
  | insert recipe name value => recipe.table.insert name value
  | assign recipe assignment => (recipe.table.assign assignment).toOption.getD recipe.table
  | extend recipe other => recipe.table.extend other.table

/-- **What is written** while a table is made, in order. Another table is written entry by entry, in
    whatever order its entries come. -/
inductive Writes : Recipe → List (Text × Text) → Prop
  | empty : Writes .empty []
  | ofPairs (pairs : List (Text × Text)) : Writes (.ofPairs pairs) pairs
  | insert {recipe : Recipe} {log : List (Text × Text)} (name value : Text) : Writes recipe log →
      Writes (.insert recipe name value) (log ++ [(name, value)])
  | assigned {recipe : Recipe} {log : List (Text × Text)} {s : Text} {entry : Text × Text} :
      Writes recipe log → Assigns s entry → Writes (.assign recipe s) (log ++ [entry])
  | refused {recipe : Recipe} {log : List (Text × Text)} {s : Text} :
      Writes recipe log → ¬ IsAssignment s → Writes (.assign recipe s) log
  | extend {recipe other : Recipe} {log entries : List (Text × Text)} : Writes recipe log →
      other.table.entries.Perm entries → Writes (.extend recipe other) (log ++ entries)

theorem exists_writes (recipe : Recipe) : ∃ log, recipe.Writes log := by
  induction recipe with
  | empty => exact ⟨_, .empty⟩
  | ofPairs pairs => exact ⟨_, .ofPairs pairs⟩
  | insert recipe name value ih =>
      obtain ⟨log, hlog⟩ := ih
      exact ⟨_, .insert name value hlog⟩
  | assign recipe s ih =>
      obtain ⟨log, hlog⟩ := ih
      by_cases hs : IsAssignment s
      · obtain ⟨entry, hentry⟩ := Variables.isAssignment_iff.mp hs
        exact ⟨_, .assigned hlog hentry⟩
      · exact ⟨_, .refused hlog hs⟩
  | extend recipe other ih _ =>
      obtain ⟨log, hlog⟩ := ih
      exact ⟨_, .extend hlog (List.Perm.refl _)⟩

/-- **A table remembers what is written** while it is made. -/
theorem remembers_of_writes {recipe : Recipe} {log : List (Text × Text)} (h : recipe.Writes log) :
    recipe.table.Remembers log := by
  induction recipe generalizing log with
  | empty =>
      cases h with
      | empty => exact .empty
  | ofPairs pairs =>
      cases h with
      | ofPairs => exact .ofPairs pairs
  | insert recipe name value ih =>
      cases h with
      | insert _ _ hlog => exact (ih hlog).insert (name, value)
  | assign recipe s ih =>
      cases h with
      | assigned hlog hentry =>
          rw [table, Variables.assign_of_assigns hentry]
          exact (ih hlog).insert _
      | refused hlog hs =>
          rw [table, Variables.assign_of_not_isAssignment hs]
          exact ih hlog
  | extend recipe other ih ihOther =>
      cases h with
      | @extend _ _ log entries hlog hperm =>
          obtain ⟨log', hlog'⟩ := exists_writes other
          have hother := ihOther hlog'
          refine ((ih hlog).extend hother).congr fun name => ?_
          rw [lastWritten_append, lastWritten_append, lastWritten_perm hperm hother.distinct]

/-- **A table has what was written last**, whatever it is made of and in whatever letter case names are
    written. It has as many variables as names were written; each of its keys is lower-case and has its
    own value; a text that is no assignment is refused and leaves it as it is. A table of pairs extended
    by another is the table of all of them, and the order of pairs with distinct names does not matter. -/
theorem table_lastWritten (recipe : Recipe) :
    ((∃ log, recipe.Writes log) ∧ ∀ log, recipe.Writes log →
      (∀ name, recipe.table.get? name = lastWritten log name) ∧
      recipe.table.size = (log.map fun entry => lower entry.1).toFinset.card) ∧
    (∀ key value, (key, value) ∈ recipe.table.entries →
      lower key = key ∧ recipe.table.get? key = some value) ∧
    (∀ s, (IsAssignment s ∧ recipe.table.assign s = .ok (recipe.assign s).table) ∨
      (¬ IsAssignment s ∧ recipe.table.assign s = .error (.invalidAssignment s) ∧
        (recipe.assign s).table = recipe.table)) ∧
    (∀ pairs later : List (Text × Text),
      (Variables.ofPairs pairs).extend (.ofPairs later) = .ofPairs (pairs ++ later)) ∧
    ∀ pairs pairs' : List (Text × Text), pairs.Perm pairs' →
      (pairs.Pairwise fun p q => lower p.1 ≠ lower q.1) →
        Variables.ofPairs pairs = Variables.ofPairs pairs' := by
  refine ⟨⟨recipe.exists_writes, ?_⟩, ?_, ?_, ?_, ?_⟩
  · intro log hlog
    exact ⟨(remembers_of_writes hlog).values, (remembers_of_writes hlog).size_eq⟩
  · intro key value hmem
    obtain ⟨log, hlog⟩ := recipe.exists_writes
    have hremembers := remembers_of_writes hlog
    obtain ⟨hkey, hlast⟩ := hremembers.mem_entries_iff.mp hmem
    exact ⟨hkey, (hremembers.values key).trans hlast⟩
  · intro s
    by_cases hs : IsAssignment s
    · obtain ⟨entry, hentry⟩ := Variables.isAssignment_iff.mp hs
      have hassign := Variables.assign_of_assigns hentry recipe.table
      refine Or.inl ⟨hs, ?_⟩
      rw [table, hassign]
      rfl
    · have hassign := Variables.assign_of_not_isAssignment hs recipe.table
      refine Or.inr ⟨hs, hassign, ?_⟩
      rw [table, hassign]
      rfl
  · intro pairs later
    have hlater := Variables.Remembers.ofPairs later
    have hboth := (Variables.Remembers.ofPairs pairs).extend hlater
    refine hboth.eq (.ofPairs (pairs ++ later)) fun name => ?_
    rw [lastWritten_append, lastWritten_append, ← hlater.own.values, ← hlater.values]
  · intro pairs pairs' hperm hdistinct
    exact (Variables.Remembers.ofPairs pairs).eq (.ofPairs pairs') (lastWritten_perm hperm hdistinct)

/-- Two pairs, an assignment over the second, and another table over the first, whose own assignment is
    refused. -/
def overwritten : Recipe :=
  .extend (.assign (.ofPairs [("ΑΣ".toList, "1".toList), ("b".toList, "2".toList)]) " B ==3".toList)
    (.assign (.insert .empty "ας".toList "4".toList) " =5".toList)

/-- A value for a name in Greek letters, the last of which has a form of its own at the end of a word; a
    value that begins with an equals sign; and pairs in another order. -/
theorem table_lastWritten_overwritten :
    (overwritten.table.get? "ΑΣ".toList = some "4".toList ∧
      overwritten.table.get? "b".toList = some "=3".toList ∧ overwritten.table.size = 2) ∧
    lower "ας".toList = "ας".toList ∧
    Variables.ofPairs [("ΑΣ".toList, "1".toList), ("b".toList, "2".toList)] =
      Variables.ofPairs [("b".toList, "2".toList), ("ΑΣ".toList, "1".toList)] := by
  have hwrites : overwritten.Writes [("ΑΣ".toList, "1".toList), ("b".toList, "2".toList),
      ("B".toList, "=3".toList), ("ας".toList, "4".toList)] := by
    have hentry : Assigns " B ==3".toList ("B".toList, "=3".toList) :=
      Variables.readAssignment?_eq_some_iff.mp (by decide +kernel)
    exact .extend (.assigned (.ofPairs _) hentry) (by decide +kernel)
  obtain ⟨⟨-, hlast⟩, hkeys, -, -, hperm⟩ := table_lastWritten overwritten
  obtain ⟨hvalues, hsize⟩ := hlast _ hwrites
  refine ⟨⟨?_, ?_, ?_⟩, (hkeys _ "4".toList (by decide +kernel)).1, ?_⟩
  · rw [hvalues]
    decide +kernel
  · rw [hvalues]
    decide +kernel
  · rw [hsize]
    decide +kernel
  · exact hperm _ _ (List.Perm.swap _ _ _) (by decide +kernel)

end Recipe

end Phrasing
