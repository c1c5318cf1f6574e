import Phrasing.Proofs.Sentences

/-!
# `Proofs.Conservation` — what expansion cannot change about a text

A step takes a construct out of a text and puts an alternative or a value in its place. Whatever of a
text is blind to names, to runs and to a pair of brackets around something it is blind to, is the same
before and after, as long as the values of variables do not carry any of it in. Two such quantities
are the surplus of opening brackets and the characters that have no meaning in a template. So a
malformed template is never mended on the way.

## Contents
- **`Conserved`**: quantities of this kind; `Conserved.hereditary` says that steps keep them and
  `Conserved.of_sentences` that sentences have them.
- **`balance`**, **`isForeign`**: the two quantities (`conserved_balance`, `conserved_foreign`).
- **`Setting.perform_attempt_conserves`**.
-/

namespace Phrasing

open Text Grammar Nested

/-! ## Conserved quantities -/

/-- **A conserved quantity** of texts. It does not tell names with their dollar sign, units and pairs
    of brackets from nothing at all, wherever in a text they stand. -/
structure Conserved {α : Type} (quantity : Text → α) : Prop where
  congr : ∀ {s t : Text}, quantity s = quantity t → ∀ before after : Text,
    quantity (before ++ s ++ after) = quantity (before ++ t ++ after)
  unit : ∀ {u : Text}, IsUnit true u → quantity u = quantity []
  name : ∀ {name : Text}, IsName name → quantity ('$' :: name) = quantity []
  brackets : ∀ bracket : Bracket, quantity [bracket.opening, bracket.closing] = quantity []

namespace Conserved

variable {α : Type} {quantity : Text → α}

/-- A run has as much of the quantity as nothing. -/
theorem run (h : Conserved quantity) {s : Text} (hs : IsRun true s) :
    quantity s = quantity [] := by
  induction hs with
  | nil => rfl
  | @cons first rest hfirst _ ih =>
      have hrest : quantity ([] ++ first ++ rest) = quantity ([] ++ [] ++ rest) :=
        h.congr (h.unit hfirst) [] rest
      rw [List.nil_append, List.nil_append, List.nil_append] at hrest
      rw [hrest, ih]

/-- Brackets around something like nothing are like nothing. -/
theorem group (h : Conserved quantity) (bracket : Bracket) {body : Text}
    (hbody : quantity body = quantity []) :
    quantity (bracket.opening :: body ++ [bracket.closing]) = quantity [] := by
  have hinside : quantity ([bracket.opening] ++ body ++ [bracket.closing]) =
      quantity ([bracket.opening] ++ [] ++ [bracket.closing]) := h.congr hbody _ _
  exact hinside.trans (h.brackets bracket)

/-- A piece of a run is like nothing. -/
theorem piece (h : Conserved quantity) {body part : Text} (hbody : IsRun true body)
    (hpart : part ∈ pieces '|' body) : quantity part = quantity [] :=
  h.run (isRun_true_of_false (isRun_of_mem_pieces hbody hpart))

/-- **Steps keep a conserved quantity**, if the values of variables are like nothing. -/
theorem hereditary (h : Conserved quantity) {setting : Setting}
    (hvalues : ∀ entry ∈ setting.vars.entries, quantity entry.2 = quantity []) (amount : α) :
    setting.Hereditary fun s => quantity s = amount := by
  intro s hs v hv
  rw [← hs]
  cases Setting.gives_of_mem_variants hv with
  | @value before name after htext hname =>
      have hvalue : quantity ((setting.vars.get? name).getD []) = quantity [] :=
        Variables.getD_get?_of_entries (P := fun value => quantity value = quantity []) rfl hvalues name
      have hwrap : quantity (wrap ((setting.vars.get? name).getD [])) = quantity ('$' :: name) :=
        (h.group .round hvalue).trans (h.name hname).symm
      rw [htext]
      exact h.congr hwrap before after
  | @alternative bracket before body after part htext hbody hpart =>
      have hgroup : quantity part = quantity (bracket.opening :: body ++ [bracket.closing]) :=
        (h.piece hbody hpart).trans (h.group bracket (h.run hbody)).symm
      rw [htext]
      exact h.congr hgroup before after
  | @omission before body after htext hbody =>
      have hgroup : quantity [] = quantity ('[' :: body ++ [']']) :=
        (h.group .square (h.run hbody)).symm
      rw [htext]
      exact h.congr hgroup before after
  | piece hrun hpart => exact (h.piece hrun hpart).trans (h.run hrun).symm

/-- **Sentences have what the template has** of a conserved quantity; if that is not nothing, they
    are synonym lines. -/
theorem of_sentences (h : Conserved quantity) {setting : Setting}
    (hvalues : ∀ entry ∈ setting.vars.entries, quantity entry.2 = quantity []) {template s : Text}
    (hs : s ∈ (setting.yield template template 0).sentences) :
    quantity s = quantity template ∧
      (quantity template ≠ quantity [] → (classify s).rule = .synonym ∧ IsSynonymLine s) := by
  obtain ⟨hquantity, hemit⟩ := (h.hereditary hvalues (quantity template)).of_mem_sentences rfl 0 hs
  refine ⟨hquantity, ?_⟩
  intro hne
  rcases literal_or_synonym_of_emit hemit with ⟨hrun, -⟩ | hsynonym
  -- literal text would have nothing of the quantity
  · exact absurd (hquantity ▸ h.run (isRun_true_of_false hrun)) hne
  · exact hsynonym

end Conserved

/-! ## Brackets -/

/-- By how much one character is more frequent in a text than another. -/
def surplus (opening closing : Char) (s : Text) : Int :=
  (s.count opening : Int) - (s.count closing : Int)

/-- The surplus of opening brackets over closing ones, round and square. -/
def balance (s : Text) : Int × Int := (surplus '(' ')' s, surplus '[' ']' s)

theorem surplus_append (opening closing : Char) (s t : Text) :
    surplus opening closing (s ++ t) = surplus opening closing s + surplus opening closing t := by
  simp only [surplus, List.count_append]
  omega

theorem balance_append (s t : Text) : balance (s ++ t) = balance s + balance t := by
  simp only [balance, surplus_append, Prod.mk_add_mk]

/-- A balanced text has as many opening as closing brackets of each kind. -/
theorem balance_eq_nil_iff {s : Text} :
    balance s = balance [] ↔ s.count '(' = s.count ')' ∧ s.count '[' = s.count ']' := by
  simp only [balance, surplus, List.count_nil, Prod.mk.injEq]
  omega

/-- Text without brackets is balanced. -/
theorem balance_of_notMem {s : Text} (h : ∀ bracket : Bracket,
    bracket.opening ∉ s ∧ bracket.closing ∉ s) : balance s = balance [] := by
  have hround : '(' ∉ s ∧ ')' ∉ s := h .round
  have hsquare : '[' ∉ s ∧ ']' ∉ s := h .square
  rw [balance_eq_nil_iff, List.count_eq_zero.mpr hround.1, List.count_eq_zero.mpr hround.2,
    List.count_eq_zero.mpr hsquare.1, List.count_eq_zero.mpr hsquare.2]
  exact ⟨rfl, rfl⟩

/-- **Brackets are conserved** in number, as far as they have no partner. -/
theorem conserved_balance : Conserved balance where
  congr := by
    intro s t h before after
    rw [balance_append, balance_append, balance_append, balance_append, h]
  unit := by
    intro u hu
    apply balance_of_notMem
    intro bracket
    cases bracket <;>
      exact ⟨notMem_of_isUnit_true hu (by decide) (by decide),
        notMem_of_isUnit_true hu (by decide) (by decide)⟩
  name := by
    intro name hname
    apply balance_of_notMem
    intro bracket
    cases bracket <;>
      exact ⟨notMem_reference hname (by decide) (by decide),
        notMem_reference hname (by decide) (by decide)⟩
  brackets := by
    intro bracket
    cases bracket <;> decide

/-! ## Foreign characters -/

/-- Whether a character is outside `[a-zA-Z0-9 '|_~<>$()[\]-]`, and so has no meaning in templates. -/
def isForeign (c : Char) : Bool := !(isPlain c || ("|_~<>$()[]".toList).contains c)

/-- Foreign characters are none of those that units, bars and names are made of. -/
theorem isForeign_eq_false_of_isUnitChar {c : Char} (h : isUnitChar c = true ∨ c = '|') :
    isForeign c = false := by
  rcases h with h | rfl
  · simp only [isUnitChar, isPlain, isNameStart, isNameRest, Char.isAlphanum, Bool.or_eq_true,
      beq_iff_eq] at h
    simp only [isForeign, isPlain, Char.isAlphanum, Bool.not_eq_false', Bool.or_eq_true, beq_iff_eq,
      List.contains_eq_mem, decide_eq_true_eq]
    rcases h with ((((h | h) | h) | h) | h) | h <;> grind
  · decide

/-- Text without foreign characters has none to conserve. -/
theorem filter_foreign_eq_nil_iff {s : Text} :
    s.filter isForeign = List.filter isForeign [] ↔ ∀ c ∈ s, isForeign c = false := by
  rw [List.filter_nil, List.filter_eq_nil_iff]
  simp only [Bool.not_eq_true]

/-- **Foreign characters are conserved**, in their order. -/
theorem conserved_foreign : Conserved (List.filter isForeign) where
  congr := by
    intro s t h before after
    simp only [List.filter_append, h]
  unit := by
    intro u hu
    apply filter_foreign_eq_nil_iff.mpr
    intro c hc
    apply isForeign_eq_false_of_isUnitChar
    by_contra hnot
    rw [not_or, Bool.not_eq_true] at hnot
    exact notMem_of_isUnit_true hu hnot.1 hnot.2 hc
  name := by
    intro name hname
    apply filter_foreign_eq_nil_iff.mpr
    intro c hc
    rcases List.mem_cons.mp hc with rfl | hc
    · decide
    · have hrest : isNameRest c = true := (isNameRest_iff c).mpr (isNameRest_of_mem hname hc)
      exact isForeign_eq_false_of_isUnitChar (Or.inl (by simp [isUnitChar, hrest]))
  brackets := by
    intro bracket
    cases bracket <;> decide

/-! ## Expansions -/

namespace Setting

/-- **Nothing malformed is mended.** If the values of variables have as many opening as closing
    brackets, all pending texts of a run and all its sentences have the balance of the template; if
    they have no foreign characters, all have those of the template, in order. A template which is not
    balanced, or has foreign characters, gives no sentences but synonym lines. -/
theorem perform_attempt_conserves (setting : Setting) (template : Text) (output : Array Text) :
    ∃ produced : List Text,
      (setting.perform .attempt template output).output = output ++ produced.toArray ∧
      ((∀ entry ∈ setting.vars.entries, entry.2.count '(' = entry.2.count ')' ∧
          entry.2.count '[' = entry.2.count ']') →
        (∀ n loop, setting.Reaches template (.start template output) n loop →
          ∀ branch ∈ loop.stack, balance branch.text = balance template) ∧
        ∀ s ∈ produced, balance s = balance template ∧
          (template.count '(' ≠ template.count ')' ∨ template.count '[' ≠ template.count ']' →
            (classify s).rule = .synonym ∧ IsSynonymLine s)) ∧
      ((∀ entry ∈ setting.vars.entries, ∀ c ∈ entry.2, isForeign c = false) →
        (∀ n loop, setting.Reaches template (.start template output) n loop →
          ∀ branch ∈ loop.stack, branch.text.filter isForeign = template.filter isForeign) ∧
        ∀ s ∈ produced, s.filter isForeign = template.filter isForeign ∧
          ((∃ c ∈ template, isForeign c = true) →
            (classify s).rule = .synonym ∧ IsSynonymLine s)) := by
  refine ⟨_, output_attempt setting template output, ?_, ?_⟩
  · intro hbalanced
    have hvalues : ∀ entry ∈ setting.vars.entries, balance entry.2 = balance [] :=
      fun entry hentry => balance_eq_nil_iff.mpr (hbalanced entry hentry)
    refine ⟨?_, ?_⟩
    · intro n loop hloop
      exact (conserved_balance.hereditary hvalues (balance template)).of_reaches rfl hloop
    · intro s hs
      obtain ⟨hbalance, hsynonym⟩ := conserved_balance.of_sentences hvalues hs
      refine ⟨hbalance, ?_⟩
      intro hunbalanced
      apply hsynonym
      rw [ne_eq, balance_eq_nil_iff]
      omega
  · intro hnone
    have hvalues : ∀ entry ∈ setting.vars.entries,
        entry.2.filter isForeign = List.filter isForeign [] :=
      fun entry hentry => filter_foreign_eq_nil_iff.mpr (hnone entry hentry)
    refine ⟨?_, ?_⟩
    · intro n loop hloop
      exact (conserved_foreign.hereditary hvalues (template.filter isForeign)).of_reaches rfl hloop
    · intro s hs
      obtain ⟨hforeign, hsynonym⟩ := conserved_foreign.of_sentences hvalues hs
      refine ⟨hforeign, ?_⟩
      rintro ⟨c, hc, hisForeign⟩
      apply hsynonym
      rw [ne_eq, filter_foreign_eq_nil_iff]
      intro hall
      rw [hall c hc] at hisForeign
      exact absurd hisForeign (by simp)

/-- One variable, with a choice for its value, and one substitution allowed. -/
def oneChoice : Setting := ⟨.ofPairs [("v".toList, "x|y".toList)], { depthLimit := 1 }⟩

/-- A bracket that is never closed and a letter with an accent, in a template that becomes two
    synonym lines: both lines have them still. -/
theorem perform_attempt_conserves_unclosed :
    (oneChoice.perform .attempt "$v ~ é (".toList #[]).output =
        #["y ~ é (".toList, "x ~ é (".toList] ∧
      balance "$v ~ é (".toList = (1, 0) ∧
      ∀ s ∈ ["y ~ é (".toList, "x ~ é (".toList],
        (classify s).rule = .synonym ∧ balance s = (1, 0) ∧ s.filter isForeign = ['é'] := by
  obtain ⟨produced, houtput, hbalanced, hforeign⟩ :=
    perform_attempt_conserves oneChoice "$v ~ é (".toList #[]
  have hentries : oneChoice.vars.entries = [("v".toList, "x|y".toList)] := by decide +kernel
  have hlines : (oneChoice.perform .attempt "$v ~ é (".toList #[]).output =
      #["y ~ é (".toList, "x ~ é (".toList] := by decide +kernel
  have hproduced : produced = ["y ~ é (".toList, "x ~ é (".toList] := by
    rw [hlines, Array.empty_append] at houtput
    exact (congrArg Array.toList houtput).symm
  rw [hentries] at hbalanced hforeign
  have hsurplus := (hbalanced (by decide)).2
  have hnone : ∀ entry ∈ [("v".toList, "x|y".toList)], ∀ c ∈ entry.2, isForeign c = false := by
    have hall : ("x|y".toList.all fun c => !isForeign c) = true := by decide
    rw [List.forall_mem_singleton]
    intro c hc
    simpa using List.all_eq_true.mp hall c hc
  have hletters := (hforeign hnone).2
  refine ⟨hlines, by decide, ?_⟩
  intro s hs
  rw [← hproduced] at hs
  obtain ⟨hbalance, hsynonym⟩ := hsurplus s hs
  refine ⟨(hsynonym (by decide)).1, hbalance, ?_⟩
  rw [(hletters s hs).1]
  decide

end Setting

end Phrasing
