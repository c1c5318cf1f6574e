import Phrasing.Proofs.Runs
import Phrasing.Variables

/-!
# `Proofs.References` — the variables that a text mentions

A reference is a dollar sign and the longest name behind it. What it is does not change when text is
put in front of it, nor when text is put behind it that no name goes on with; and the first reference
of a text is the construct that the text is classified by.

## Contents
- **`ReferenceAt`**: a reference in a text, and the text around it; `ReferenceAt.append_left` and
  `ReferenceAt.append_right` put it into a longer text.
- **`DollarsRefer`**: texts with no other dollar signs; `exists_first_reference` splits them.
- **`classify_of_findFirst`**, **`classify_of_referenceAt`**: the first reference decides.
- **`Mentions`**, and `mem_mentioned_iff`, which lists the variables that are mentioned;
  `mentioned_classify` says which of them comes first.
- **`Variables.Refers`**: variables mentioned in a text or in the values of those that are.
- **`Variables.Acyclic`**: values that mention only variables of lower rank.
-/

namespace Phrasing.Grammar

open Text

/-! ## References -/

/-- **A reference in a text**, and the text before and after it. The name is as long as it can be. -/
structure ReferenceAt (s before name after : Text) : Prop where
  text : s = before ++ '$' :: name ++ after
  isName : IsName name
  stops : ∀ c ∈ after.head?, ¬ IsNameRest c

/-- More text in front of a reference. -/
theorem ReferenceAt.append_left {s before name after : Text} (h : ReferenceAt s before name after)
    (front : Text) : ReferenceAt (front ++ s) (front ++ before) name after where
  text := by rw [h.text, List.append_assoc, List.append_assoc, List.append_assoc]
  isName := h.isName
  stops := h.stops

/-- More text behind a reference, which does not go on with its name. -/
theorem ReferenceAt.append_right {s before name after : Text} (h : ReferenceAt s before name after)
    {back : Text} (hback : ∀ c ∈ back.head?, ¬ IsNameRest c) :
    ReferenceAt (s ++ back) before name (after ++ back) where
  text := by rw [h.text, List.append_assoc]
  isName := h.isName
  stops := by
    intro c hc
    cases hafter : after with
    | nil =>
        rw [hafter, List.nil_append] at hc
        exact hback c hc
    | cons d ds =>
        rw [hafter, List.cons_append] at hc
        apply h.stops c
        rw [hafter]
        exact hc

/-- A reference has a dollar sign. -/
theorem ReferenceAt.dollar_mem {s before name after : Text} (h : ReferenceAt s before name after) :
    '$' ∈ s := by
  rw [h.text, List.append_assoc]
  exact List.mem_append_right before List.mem_cons_self

/-- The text behind a reference is shorter than the text. -/
theorem ReferenceAt.length_lt {s before name after : Text} (h : ReferenceAt s before name after) :
    after.length < s.length := by
  rw [h.text]
  simp
  omega

/-- What is read behind a dollar sign is a reference. -/
theorem referenceAt_of_readReference? {before rest name after : Text}
    (h : readReference? ('$' :: rest) = some (name, after)) :
    ReferenceAt (before ++ '$' :: rest) before name after := by
  obtain ⟨rfl, hname, hstops⟩ := readName?_eq_some_iff.mp h
  exact ⟨by rw [List.append_assoc, List.cons_append], hname, hstops⟩

/-- A reference is read where its dollar sign is. -/
theorem ReferenceAt.readReference? {s before name after : Text}
    (h : ReferenceAt s before name after) :
    Phrasing.readReference? ('$' :: name ++ after) = some (name, after) :=
  readName?_eq_some_iff.mpr ⟨rfl, h.isName, h.stops⟩

/-- **The reference that a search finds** is what a text is classified by. -/
theorem classify_of_findFirst {s : Text} {occurrence : Occurrence}
    (h : findFirst Phrasing.readReference? s = some occurrence) :
    classify s = ⟨occurrence, .reference⟩ := by
  have htext := findFirst_eq_some Rule.reference.construct readReference?_eq_some h
  have hdollar : '$' ∈ s := by
    rw [← htext]
    simp [Rule.construct]
  rw [classify, if_neg (not_isBody_of_mem hdollar (by decide) (by decide)), h]

/-- **The first reference decides** what a text is classified as. -/
theorem classify_of_referenceAt {s before name after : Text} (h : ReferenceAt s before name after)
    (hbefore : '$' ∉ before) : classify s = ⟨⟨before, name, after⟩, .reference⟩ := by
  have hfind := findFirst_append (fun _ cs hc => readReference?_of_ne hc cs) hbefore
    h.readReference? (List.cons_ne_nil _ _)
  have htext : before ++ ('$' :: name ++ after) = s := by rw [h.text, List.append_assoc]
  rw [htext] at hfind
  exact classify_of_findFirst hfind

/-! ## Texts of references -/

/-- **Every dollar sign** of a text begins a reference. -/
def DollarsRefer (s : Text) : Prop :=
  ∀ before rest, s = before ++ '$' :: rest → StartsReference ('$' :: rest)

theorem DollarsRefer.of_append {front s : Text} (h : DollarsRefer (front ++ s)) :
    DollarsRefer s := by
  intro before rest hs
  apply h (front ++ before) rest
  rw [hs, List.append_assoc]

theorem DollarsRefer.of_cons {c : Char} {cs : Text} (h : DollarsRefer (c :: cs)) :
    DollarsRefer cs := DollarsRefer.of_append (show DollarsRefer ([c] ++ cs) from h)

/-- One character in front adds one place to look at. -/
theorem dollarsRefer_cons {c : Char} {cs : Text} :
    DollarsRefer (c :: cs) ↔ (c = '$' → readReference? (c :: cs) ≠ none) ∧ DollarsRefer cs := by
  constructor
  · intro h
    refine ⟨?_, h.of_cons⟩
    rintro rfl hnone
    exact (readReference?_eq_none_iff _).mp hnone (h [] cs rfl)
  · rintro ⟨hfirst, hrest⟩ before rest hs
    cases before with
    | nil =>
        obtain ⟨rfl, rfl⟩ := List.cons.inj hs
        by_contra hnot
        exact hfirst rfl ((readReference?_eq_none_iff _).mpr hnot)
    | cons d ds => exact hrest ds rest (List.cons.inj hs).2

instance decidableDollarsRefer : (s : Text) → Decidable (DollarsRefer s)
  | [] => isTrue fun _ _ hs => absurd hs (by simp)
  | _ :: cs =>
      have := decidableDollarsRefer cs
      decidable_of_iff _ dollarsRefer_cons.symm

/-- **The first reference of a text**, if it has dollar signs and all of them begin references. -/
theorem exists_first_reference {s : Text} (h : DollarsRefer s) (hdollar : '$' ∈ s) :
    ∃ before name after, '$' ∉ before ∧ ReferenceAt s before name after := by
  obtain ⟨before, rest, rfl, hbefore⟩ := List.eq_append_cons_of_mem hdollar
  have hstarts := h before rest rfl
  cases hread : readReference? ('$' :: rest) with
  | none => exact absurd hstarts ((readReference?_eq_none_iff _).mp hread)
  | some found =>
      obtain ⟨name, after⟩ := found
      exact ⟨before, name, after, hbefore, referenceAt_of_readReference? hread⟩

/-! ## Variables that are mentioned -/

/-- **A text mentions a variable** if there is a reference to it. -/
def Mentions (s name : Text) : Prop := ∃ before after, ReferenceAt s before name after

theorem Mentions.dollar_mem {s name : Text} (h : Mentions s name) : '$' ∈ s := by
  obtain ⟨_, _, hat⟩ := h
  exact hat.dollar_mem

theorem Mentions.append_left {s name : Text} (h : Mentions s name) (front : Text) :
    Mentions (front ++ s) name := by
  obtain ⟨before, after, hat⟩ := h
  exact ⟨front ++ before, after, hat.append_left front⟩

/-- The names of the references in a text, in order. -/
def mentioned : Text → List Text
  | [] => []
  | c :: cs =>
      match readReference? (c :: cs) with
      | some (name, _) => name :: mentioned cs
      | none => mentioned cs

/-- The list has all variables that a text mentions, and no others. -/
theorem mem_mentioned_iff {s name : Text} : name ∈ mentioned s ↔ Mentions s name := by
  induction s with
  | nil =>
      constructor
      · intro h
        exact absurd h List.not_mem_nil
      · rintro ⟨before, after, h⟩
        exact absurd h.text (by simp)
  | cons c cs ih =>
      have hcons : name ∈ mentioned (c :: cs) ↔
          (∃ after, readReference? (c :: cs) = some (name, after)) ∨ name ∈ mentioned cs := by
        rw [mentioned]
        split
        · rename_i other after hread
          simp [hread, eq_comm]
        · rename_i hread
          simp [hread]
      rw [hcons, ih]
      constructor
      · rintro (⟨after, hread⟩ | h)
        · by_cases hc : c = '$'
          · subst hc
            have hat : ReferenceAt ([] ++ '$' :: cs) [] name after :=
              referenceAt_of_readReference? hread
            exact ⟨[], after, hat⟩
          · rw [readReference?_of_ne hc] at hread
            exact absurd hread (by simp)
        · exact h.append_left [c]
      · rintro ⟨before, after, h⟩
        cases before with
        | nil =>
            have hread := h.readReference?
            have htext : c :: cs = '$' :: name ++ after := h.text
            rw [← htext] at hread
            exact Or.inl ⟨after, hread⟩
        | cons d ds =>
            have htext : c :: cs = d :: (ds ++ '$' :: name ++ after) := h.text
            exact Or.inr ⟨ds, after, (List.cons.inj htext).2, h.isName, h.stops⟩

/-- Text without dollar signs mentions nothing. -/
theorem mentioned_append_of_notMem {front : Text} (h : '$' ∉ front) (s : Text) :
    mentioned (front ++ s) = mentioned s := by
  induction front with
  | nil => rfl
  | cons c cs ih =>
      rw [List.mem_cons, not_or] at h
      rw [List.cons_append, mentioned, readReference?_of_ne fun hc => h.1 hc.symm]
      exact ih h.2

/-- **The first variable that a text mentions** is the one that a search finds; the others are mentioned
    behind it. -/
theorem mentioned_eq_findFirst (s : Text) :
    mentioned s = match findFirst readReference? s with
      | some first => first.body :: mentioned first.after
      | none => [] := by
  induction s with
  | nil => rfl
  | cons c cs ih =>
      rw [mentioned, findFirst]
      cases hread : readReference? (c :: cs) with
      | some found =>
          obtain ⟨name, after⟩ := found
          -- the name itself has no dollar signs
          have hc : c = '$' := by
            by_contra hc
            rw [readReference?_of_ne hc] at hread
            exact absurd hread (by simp)
          subst hc
          obtain ⟨rfl, hname, -⟩ := readName?_eq_some_iff.mp hread
          show name :: mentioned (name ++ after) = name :: mentioned after
          rw [mentioned_append_of_notMem (notMem_name hname (by decide))]
      | none =>
          show mentioned cs = _
          rw [ih]
          cases findFirst readReference? cs <;> rfl

/-- **A text that mentions a variable** is classified by the first one, and mentions the others behind
    it. -/
theorem mentioned_classify {s name : Text} (h : Mentions s name) :
    (classify s).rule = .reference ∧
      mentioned s = (classify s).body :: mentioned (classify s).after := by
  have hmentioned := mentioned_eq_findFirst s
  cases hfind : findFirst readReference? s with
  | none =>
      rw [hfind] at hmentioned
      rw [← mem_mentioned_iff, hmentioned] at h
      exact absurd h List.not_mem_nil
  | some first =>
      rw [hfind] at hmentioned
      rw [classify_of_findFirst hfind]
      exact ⟨rfl, hmentioned⟩

end Phrasing.Grammar

namespace Phrasing.Variables

open Text Grammar

/-! ## References among variables -/

/-- **The variables that a text refers to**, in itself or through the values of variables. -/
inductive Refers (vars : Variables) : Text → Text → Prop
  | here {s name : Text} : Mentions s name → Refers vars s name
  | through {s other value name : Text} : Mentions s other → vars.get? other = some value →
      Refers vars value name → Refers vars s name

/-- Only a text with a reference refers to anything. -/
theorem Refers.dollar_mem {vars : Variables} {s name : Text} (h : vars.Refers s name) :
    '$' ∈ s := by
  cases h with
  | here hmentions => exact hmentions.dollar_mem
  | through hmentions _ _ => exact hmentions.dollar_mem

theorem Refers.append_left {vars : Variables} {s name : Text} (h : vars.Refers s name)
    (front : Text) : vars.Refers (front ++ s) name := by
  cases h with
  | here hmentions => exact .here (hmentions.append_left front)
  | through hmentions hget hvalue => exact .through (hmentions.append_left front) hget hvalue

/-- **No variable refers to itself**: there is a rank of lower-case names that goes down from a
    variable to those that its value mentions. -/
def Acyclic (vars : Variables) : Prop :=
  ∃ rank : Text → Nat, ∀ entry ∈ vars.entries, ∀ name, Mentions entry.2 name →
    rank (lower name) < rank entry.1

end Phrasing.Variables
