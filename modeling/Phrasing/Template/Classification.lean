import Phrasing.Template.Body
import Phrasing.Template.Rule
import Phrasing.Text.Blank
import Phrasing.Text.Pieces

/-!
# `Phrasing.Template.Classification` — the rule that a text falls under

Rules are tried in order of precedence. Three of them look for the left-most construct of a kind;
the others look at the whole text.

## Contents
- **`Occurrence`**, **`findFirst`**: the left-most place where something can be read.
- **`Classification`**: the rule of a text, the construct it was found at, and the text around it.
  `start` and `stop` bound the bytes of the construct, and `fill` replaces it.
- **`classify`**: the classification of a text. `text_classify` puts the text together again, and
  `bar_mem_of_bare` says that a choice without brackets has two parts or more.
- **`Classification.choices`**: the variants of a text under the rules for choices. Each is shorter
  than the text (`length_lt_of_mem_choices`).
-/

namespace Phrasing

open Text

/-! ## Left-most constructs -/

/-- The body of a construct in a text, and the text on both sides of the construct. -/
structure Occurrence where
  before : Text
  body : Text
  after : Text
deriving Repr, DecidableEq

/-- The occurrence in a text with one more character in front. -/
def Occurrence.shift (c : Char) (occurrence : Occurrence) : Occurrence :=
  { occurrence with before := c :: occurrence.before }

/-- The left-most occurrence of what a reader reads. -/
def findFirst (read? : Text → Option (Text × Text)) : Text → Option Occurrence
  | [] => none
  | c :: cs =>
      match read? (c :: cs) with
      | some (body, rest) => some ⟨[], body, rest⟩
      | none => (findFirst read? cs).map (·.shift c)

/-- The variable name that the text begins with, behind a dollar sign. -/
def readReference? : Text → Option (Text × Text)
  | '$' :: s => readName? s
  | _ => none

/-- The body that the text begins with, between the two brackets. -/
def readGroup? (opening closing : Char) : Text → Option (Text × Text)
  | [] => none
  | c :: cs =>
      if c = opening then
        match splitBody true cs with
        | (b :: bs, d :: rest) => if d = closing then some (b :: bs, rest) else none
        | _ => none
      else none

/-! ## Synonym lines -/

/-- Characters of the name in front of a list of synonyms. -/
def isSynonymChar (c : Char) : Bool := isPlain c || c == '_'

/-- Whether a text is a name and a list of synonyms on the same line, with a tilde between them. -/
def isSynonymLine (s : Text) : Bool :=
  match (s.dropWhile isSynonymChar).dropWhile isBlank with
  | '~' :: rest =>
      !(s.takeWhile isSynonymChar).isEmpty && !(rest.dropWhile isBlank).contains '\n'
  | _ => false

/-! ## Classification -/

/-- The rule of a text and the construct it was found at. -/
structure Classification extends Occurrence where
  rule : Rule
deriving Repr, DecidableEq

namespace Classification

/-- The classification of a text by a rule that looks at all of it. -/
def whole (rule : Rule) (s : Text) : Classification := ⟨⟨[], s, []⟩, rule⟩

/-- The construct as it is written. -/
def construct (c : Classification) : Text := c.rule.construct c.body

/-- The text that was classified. -/
def text (c : Classification) : Text := c.before ++ c.construct ++ c.after

/-- Where the construct starts, in bytes. -/
def start (c : Classification) : Nat := byteSize c.before

/-- Where the construct stops, in bytes. -/
def stop (c : Classification) : Nat := byteSize c.before + byteSize c.construct

/-- The text with the construct replaced. -/
def fill (c : Classification) (replacement : Text) : Text := c.before ++ replacement ++ c.after

/-- The parts of the body between its bars. -/
def alternatives (c : Classification) : List Text := Text.pieces '|' c.body

end Classification

/-- The classification of a text. -/
def classify (s : Text) : Classification :=
  if isBody false s then .whole .vanilla s
  else
    match findFirst readReference? s with
    | some occurrence => ⟨occurrence, .reference⟩
    | none =>
        match findFirst (readGroup? '(' ')') s with
        | some occurrence => ⟨occurrence, .round⟩
        | none =>
            match findFirst (readGroup? '[' ']') s with
            | some occurrence => ⟨occurrence, .square⟩
            | none =>
                if isBody true s then .whole .bare s
                else if isSynonymLine s then .whole .synonym s
                else .whole .unrecognized s

/-! ## What was classified -/

theorem readReference?_eq_some {s body rest : Text} (h : readReference? s = some (body, rest)) :
    s = Rule.reference.construct body ++ rest := by
  unfold readReference? at h
  split at h
  · rw [readName?_eq_some h]
    rfl
  · exact absurd h (by simp)

theorem readGroup?_eq_some {opening closing : Char} {s body rest : Text}
    (h : readGroup? opening closing s = some (body, rest)) :
    s = opening :: body ++ [closing] ++ rest := by
  unfold readGroup? at h
  split at h
  · exact absurd h (by simp)
  · rename_i c cs
    split at h
    · rename_i hc
      split at h
      · rename_i b bs d tail hsplit
        split at h
        · rename_i hd
          simp only [Option.some.injEq, Prod.mk.injEq] at h
          obtain ⟨rfl, rfl⟩ := h
          have happend := splitBody_append true cs
          rw [hsplit] at happend
          simp [← happend, hc, hd]
        · exact absurd h (by simp)
      · exact absurd h (by simp)
    · exact absurd h (by simp)

/-- An occurrence lies in its text, if what is read is what is written. -/
theorem findFirst_eq_some {read? : Text → Option (Text × Text)} (write : Text → Text)
    (hread : ∀ {s body rest}, read? s = some (body, rest) → s = write body ++ rest) {s : Text}
    {occurrence : Occurrence} (h : findFirst read? s = some occurrence) :
    occurrence.before ++ write occurrence.body ++ occurrence.after = s := by
  induction s generalizing occurrence with
  | nil => simp [findFirst] at h
  | cons c cs ih =>
      unfold findFirst at h
      split at h
      · rename_i body rest hbody
        rw [Option.some.injEq] at h
        subst h
        rw [hread hbody]
        rfl
      · obtain ⟨inner, hinner, rfl⟩ := Option.map_eq_some_iff.mp h
        simpa [Occurrence.shift] using ih hinner

/-- A classification gives back the text. -/
theorem text_classify (s : Text) : (classify s).text = s := by
  unfold classify
  split
  · simp [Classification.text, Classification.construct, Classification.whole, Rule.construct]
  · split
    · rename_i occurrence h
      exact findFirst_eq_some Rule.reference.construct readReference?_eq_some h
    · split
      · rename_i occurrence h
        exact findFirst_eq_some Rule.round.construct readGroup?_eq_some h
      · split
        · rename_i occurrence h
          exact findFirst_eq_some Rule.square.construct readGroup?_eq_some h
        · split
          · simp [Classification.text, Classification.construct, Classification.whole,
              Rule.construct]
          · split <;> simp [Classification.text, Classification.construct, Classification.whole,
              Rule.construct]

/-- A choice without brackets has a bar. -/
theorem bar_mem_of_bare {s : Text} (h : (classify s).rule = .bare) : '|' ∈ (classify s).body := by
  unfold classify at h ⊢
  split at h
  · simp [Classification.whole] at h
  · rename_i hvanilla
    rw [if_neg hvanilla]
    split at h
    · simp at h
    · split at h
      · simp at h
      · split at h
        · simp at h
        · split at h
          · rename_i hbare
            rw [if_pos hbare]
            obtain ⟨hsplit, hne⟩ := splitBody_of_isBody hbare
            simp only [Classification.whole]
            refine Classical.byContradiction fun hbar => hvanilla ?_
            have hfalse := splitBody_false_of_no_bar hsplit hbar
            unfold isBody
            rw [hfalse]
            cases s with
            | nil => exact absurd rfl hne
            | cons c cs => rfl
          · split at h <;> simp [Classification.whole] at h

/-! ## Choices -/

/-- The variants of a text under the rules for choices, in the order of the body; where the choice
    is optional, the text without the construct comes last. -/
def Classification.choices (c : Classification) : List Text :=
  match c.rule with
  | .round => c.alternatives.map c.fill
  | .bare => c.alternatives.map c.fill
  | .square => c.alternatives.map c.fill ++ [c.fill []]
  | _ => []

/-- Length of a text under each of the rules for choices. -/
theorem length_of_choices (s : Text) :
    match (classify s).rule with
    | .round => (classify s).before.length + (classify s).body.length + 2 +
        (classify s).after.length = s.length
    | .square => (classify s).before.length + (classify s).body.length + 2 +
        (classify s).after.length = s.length
    | .bare => (classify s).before.length + (classify s).body.length +
        (classify s).after.length = s.length
    | _ => True := by
  have htext := congrArg List.length (text_classify s)
  generalize classify s = c at htext
  simp only [Classification.text, Classification.construct, List.length_append] at htext
  split <;> try trivial
  all_goals
    rename_i hrule
    rw [hrule] at htext
    simp only [Rule.construct, List.cons_append, List.length_cons, List.length_append,
      List.length_nil] at htext
    omega

/-- Every choice is shorter than the text. -/
theorem length_lt_of_mem_choices {s v : Text} (h : v ∈ (classify s).choices) :
    v.length < s.length := by
  have hlength := length_of_choices s
  have hbar := bar_mem_of_bare (s := s)
  generalize classify s = c at h hlength hbar
  unfold Classification.choices at h
  split at h
  · rename_i hrule
    obtain ⟨part, hpart, rfl⟩ := List.mem_map.mp h
    have hpart := length_add_count_le hpart
    simp only [hrule] at hlength
    simp only [Classification.fill, List.length_append]
    omega
  · rename_i hrule
    obtain ⟨part, hpart, rfl⟩ := List.mem_map.mp h
    have hpart := length_add_count_le hpart
    have hcount := List.count_pos_iff.mpr (hbar hrule)
    simp only [hrule] at hlength
    simp only [Classification.fill, List.length_append]
    omega
  · rename_i hrule
    simp only [hrule] at hlength
    rw [List.mem_append, List.mem_singleton] at h
    rcases h with h | rfl
    · obtain ⟨part, hpart, rfl⟩ := List.mem_map.mp h
      have hpart := length_add_count_le hpart
      simp only [Classification.fill, List.length_append]
      omega
    · simp only [Classification.fill, List.length_append, List.length_nil]
      omega
  · exact absurd h (by simp)

/-- There are at most as many choices as characters, and one more. -/
theorem length_choices_le (s : Text) : (classify s).choices.length ≤ s.length + 1 := by
  have hlength := length_of_choices s
  generalize classify s = c at hlength
  have hparts := Text.length_pieces '|' c.body
  have hcount := List.count_le_length (a := '|') (l := c.body)
  unfold Classification.choices
  split
  · rename_i hrule
    simp only [hrule] at hlength
    simp only [List.length_map, Classification.alternatives]
    omega
  · rename_i hrule
    simp only [hrule] at hlength
    simp only [List.length_map, Classification.alternatives]
    omega
  · rename_i hrule
    simp only [hrule] at hlength
    simp only [List.length_append, List.length_map, Classification.alternatives,
      List.length_cons, List.length_nil]
    omega
  · simp

end Phrasing
