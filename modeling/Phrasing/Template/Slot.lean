import Phrasing.Text

/-!
# `Phrasing.Template.Slot` — slots and the characters of templates

A slot is a placeholder in a sentence, written `<name>` or `<name~sample text>`.

## Contents
- **Character classes.** `isPlain` (letters, digits, spaces, apostrophes, hyphens) and the two
  classes of names, all ASCII.
- **`readName?`**: the name that a text begins with.
- **`Slot`**, **`Slot.render`**: a slot and its written form.
- **`Slot.read?`**: the slot that a text begins with. `read?_eq_some` recovers the text from what
  was read.
- **`Slot.findAll`**: every slot of a text, from left to right.
-/

namespace Phrasing

/-! ## Character classes -/

/-- Characters of literal text: ASCII letters and digits, the space, the apostrophe, the hyphen. -/
def isPlain (c : Char) : Bool :=
  c.isAlphanum || c == ' ' || c == '\'' || c == '-'

/-- Characters that a name may start with. -/
def isNameStart (c : Char) : Bool :=
  c.isAlpha || c == '_'

/-- Characters that a name may go on with. -/
def isNameRest (c : Char) : Bool :=
  c.isAlphanum || c == '_' || c == '-'

/-- The longest name that the text begins with, and the text after it. -/
def readName? : Text → Option (Text × Text)
  | [] => none
  | c :: cs =>
      if isNameStart c then some (c :: cs.takeWhile isNameRest, cs.dropWhile isNameRest) else none

/-- The text is the name followed by the rest. -/
theorem readName?_eq_some {s name rest : Text} (h : readName? s = some (name, rest)) :
    s = name ++ rest := by
  unfold readName? at h
  split at h
  · exact absurd h (by simp)
  · split at h
    · simp only [Option.some.injEq, Prod.mk.injEq] at h
      obtain ⟨rfl, rfl⟩ := h
      simp [List.takeWhile_append_dropWhile]
    · exact absurd h (by simp)

/-! ## Slots -/

/-- A placeholder with its name and, perhaps, a sample of the text that fills it. -/
structure Slot where
  name : Text
  sample : Option Text
deriving Repr, DecidableEq

namespace Slot

/-- The written form `<name>` or `<name~sample>`. -/
def render (slot : Slot) : Text :=
  match slot.sample with
  | none => '<' :: slot.name ++ ['>']
  | some sample => '<' :: slot.name ++ '~' :: sample ++ ['>']

/-- The slot whose name is read and the text after it, from what follows the name. -/
def readTail? (name : Text) : Text → Option (Slot × Text)
  | '>' :: rest => some (⟨name, none⟩, rest)
  | '~' :: rest =>
      match rest.takeWhile isPlain, rest.dropWhile isPlain with
      | c :: cs, '>' :: after => some (⟨name, some (c :: cs)⟩, after)
      | _, _ => none
  | _ => none

/-- The slot that the text begins with, and the text after it. -/
def read? : Text → Option (Slot × Text)
  | '<' :: s =>
      match readName? s with
      | some (name, rest) => readTail? name rest
      | none => none
  | _ => none

/-! ## What was read is what is written -/

theorem readTail?_eq_some {name s rest : Text} {slot : Slot}
    (h : readTail? name s = some (slot, rest)) : '<' :: name ++ s = slot.render ++ rest := by
  unfold readTail? at h
  split at h
  · simp only [Option.some.injEq, Prod.mk.injEq] at h
    obtain ⟨rfl, rfl⟩ := h
    simp [render]
  · rename_i tail
    split at h
    · rename_i c cs after htake hdrop
      simp only [Option.some.injEq, Prod.mk.injEq] at h
      obtain ⟨rfl, rfl⟩ := h
      have htail : tail = (c :: cs) ++ '>' :: after := by
        rw [← htake, ← hdrop, List.takeWhile_append_dropWhile]
      simp [render, htail]
    · exact absurd h (by simp)
  · exact absurd h (by simp)

/-- The text is the slot's written form followed by the rest. -/
theorem read?_eq_some {s rest : Text} {slot : Slot} (h : read? s = some (slot, rest)) :
    s = slot.render ++ rest := by
  unfold read? at h
  split at h
  · rename_i tail
    split at h
    · rename_i name after hname
      rw [← readTail?_eq_some h, readName?_eq_some hname]
      simp
    · exact absurd h (by simp)
  · exact absurd h (by simp)

/-- A written form begins and ends with a bracket. -/
theorem two_le_length_render (slot : Slot) : 2 ≤ slot.render.length := by
  unfold render
  split
  all_goals
    simp only [List.length_cons, List.length_append, List.cons_append]
    omega

/-- Reading a slot shortens the text. -/
theorem length_lt_of_read? {s rest : Text} {slot : Slot} (h : read? s = some (slot, rest)) :
    rest.length < s.length := by
  have hrender := two_le_length_render slot
  rw [read?_eq_some h, List.length_append]
  omega

/-! ## Slots of a text -/

/-- Every slot of a text, from left to right. Slots never overlap, so the search goes on behind
    each slot that it finds. -/
def findAll (s : Text) : List Slot :=
  match s with
  | [] => []
  | c :: cs =>
      match _ : read? (c :: cs) with
      | some (slot, rest) => slot :: findAll rest
      | none => findAll cs
termination_by s.length
decreasing_by
  · exact length_lt_of_read? (by assumption)
  · simp

end Slot

end Phrasing
