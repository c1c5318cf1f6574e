import Phrasing.Proofs.Iteration
import Phrasing.Proofs.Precedence

/-!
# `Proofs.Spans` — byte ranges that can be replaced

A byte range can be replaced if both of its ends lie at boundaries between characters and in order; what
is wrong with a range otherwise is told by the first of these conditions that fails. The range of a
construct meets them in every text.

## Contents
- **`Text.Misplaced`**: offsets beyond a text or inside one of its characters.
- **`Text.Splices`**: the outcomes of a replacement; `splice_eq_iff` says that there are no others.
- **`Text.splice_restore`**: what was taken out can be put back.
- **`start_lt_stop`**, **`excerpt?_classify`**: the range of a construct.
- **`splice_spans`**.
-/

namespace Phrasing

open Text Grammar

namespace Text

/-! ## Misplaced offsets -/

/-- **A misplaced offset** lies beyond the text, or inside a character. -/
def Misplaced (s : Text) (n : Nat) : Prop :=
  byteSize s < n ∨
    ∃ head c tail, s = head ++ c :: tail ∧ byteSize head < n ∧ n < byteSize head + c.utf8Size

theorem not_misplaced_zero (s : Text) : ¬ Misplaced s 0 := by
  rintro (hbeyond | ⟨head, c, tail, -, hhead, -⟩)
  · omega
  · omega

/-- Behind the first character, offsets are those of the rest. -/
theorem misplaced_cons_iff {c : Char} {n : Nat} (h : c.utf8Size ≤ n) (cs : Text) :
    Misplaced (c :: cs) n ↔ Misplaced cs (n - c.utf8Size) := by
  constructor
  · rintro (hbeyond | ⟨head, d, tail, htext, hhead, hd⟩)
    · rw [byteSize_cons] at hbeyond
      exact Or.inl (by omega)
    · cases head with
      | nil =>
          obtain ⟨rfl, rfl⟩ := List.cons.inj htext
          rw [byteSize_nil] at hd
          omega
      | cons b head =>
          obtain ⟨rfl, rfl⟩ := List.cons.inj htext
          rw [byteSize_cons] at hhead hd
          exact Or.inr ⟨head, d, tail, rfl, by omega, by omega⟩
  · rintro (hbeyond | ⟨head, d, tail, rfl, hhead, hd⟩)
    · refine Or.inl ?_
      rw [byteSize_cons]
      omega
    · refine Or.inr ⟨c :: head, d, tail, rfl, ?_, ?_⟩
      · rw [byteSize_cons]
        omega
      · rw [byteSize_cons]
        omega

/-- **A text cannot be cut at a misplaced offset**, and at every other it can. -/
theorem cutAt?_eq_none_iff {s : Text} {n : Nat} : cutAt? s n = none ↔ Misplaced s n := by
  induction s generalizing n with
  | nil =>
      cases n with
      | zero => exact iff_of_false (by simp [cutAt?]) (not_misplaced_zero [])
      | succ n => exact iff_of_true rfl (Or.inl (Nat.succ_pos n))
  | cons c cs ih =>
      cases n with
      | zero => exact iff_of_false (by simp [cutAt?]) (not_misplaced_zero (c :: cs))
      | succ n =>
          rw [cutAt?]
          by_cases hc : c.utf8Size ≤ n + 1
          · rw [if_pos hc, Option.map_eq_none_iff, ih, misplaced_cons_iff hc]
          · rw [if_neg hc]
            refine iff_of_true rfl (Or.inr ⟨[], c, cs, rfl, ?_, ?_⟩)
            · exact Nat.succ_pos n
            · rw [byteSize_nil]
              omega

theorem exists_cut {s : Text} {n : Nat} (h : ¬ Misplaced s n) :
    ∃ head tail, cutAt? s n = some (head, tail) ∧ s = head ++ tail ∧ byteSize head = n := by
  cases hcut : cutAt? s n with
  | none => exact absurd (cutAt?_eq_none_iff.mp hcut) h
  | some halves => exact ⟨halves.1, halves.2, rfl, cutAt?_eq_some hcut⟩

/-- The end of a part at the start of a text is not misplaced. -/
theorem not_misplaced_append (head tail : Text) : ¬ Misplaced (head ++ tail) (byteSize head) := by
  rw [← cutAt?_eq_none_iff, cutAt?_append]
  exact Option.some_ne_none _

/-! ## Outcomes of a replacement -/

/-- **The outcomes of a replacement**: a fault of the range, the first that it has, or the text with
    something else in the place of the part between both offsets. -/
inductive Splices (s : Text) (start stop : Nat) (replacement : Text) : Except SpanFault Text → Prop
  | misplacedStart : Misplaced s start → Splices s start stop replacement (.error .misplacedStart)
  | misplacedStop : ¬ Misplaced s start → Misplaced s stop →
      Splices s start stop replacement (.error .misplacedStop)
  | reversed : ¬ Misplaced s start → ¬ Misplaced s stop → stop < start →
      Splices s start stop replacement (.error (.reversed start stop))
  | replaced {head removed tail : Text} : s = head ++ removed ++ tail → byteSize head = start →
      byteSize head + byteSize removed = stop →
      Splices s start stop replacement (.ok (head ++ replacement ++ tail))

/-- Of two first parts, the one with fewer bytes is a part of the other. -/
theorem exists_append_of_byteSize_le {first second later rest : Text}
    (h : first ++ later = second ++ rest) (hle : byteSize first ≤ byteSize second) :
    ∃ between, second = first ++ between := by
  rcases List.append_eq_append_iff.mp h with ⟨between, hsecond, -⟩ | ⟨between, rfl, -⟩
  · exact ⟨between, hsecond⟩
  · have hlength := length_le_byteSize between
    rw [byteSize_append] at hle
    have hbetween : between = [] := List.eq_nil_of_length_eq_zero (by omega)
    exact ⟨[], by rw [hbetween, List.append_nil, List.append_nil]⟩

variable {s replacement : Text} {start stop : Nat}

theorem splices_splice (s : Text) (start stop : Nat) (replacement : Text) :
    Splices s start stop replacement (splice s start stop replacement) := by
  by_cases hstart : Misplaced s start
  · rw [splice, cutAt?_eq_none_iff.mpr hstart]
    exact .misplacedStart hstart
  · obtain ⟨head, later, hcut, htext, hhead⟩ := exists_cut hstart
    by_cases hstop : Misplaced s stop
    · rw [splice, hcut, cutAt?_eq_none_iff.mpr hstop]
      exact .misplacedStop hstart hstop
    · obtain ⟨front, tail, hcut', htext', hfront⟩ := exists_cut hstop
      rw [splice, hcut, hcut']
      by_cases hle : start ≤ stop
      · obtain ⟨removed, rfl⟩ :=
          exists_append_of_byteSize_le (htext.symm.trans htext') (by omega)
        rw [byteSize_append] at hfront
        simp only [if_pos hle]
        exact .replaced htext' hhead hfront
      · simp only [if_neg hle]
        exact .reversed hstart hstop (Nat.lt_of_not_le hle)

/-- **A replacement has one outcome.** -/
theorem splice_eq_iff {outcome : Except SpanFault Text} :
    splice s start stop replacement = outcome ↔ Splices s start stop replacement outcome := by
  constructor
  · rintro rfl
    exact splices_splice s start stop replacement
  · intro h
    cases h with
    | misplacedStart hstart => rw [splice, cutAt?_eq_none_iff.mpr hstart]
    | misplacedStop hstart hstop =>
        obtain ⟨head, later, hcut, -⟩ := exists_cut hstart
        rw [splice, hcut, cutAt?_eq_none_iff.mpr hstop]
    | reversed hstart hstop hlt =>
        obtain ⟨head, later, hcut, -⟩ := exists_cut hstart
        obtain ⟨front, tail, hcut', -⟩ := exists_cut hstop
        rw [splice, hcut, hcut']
        exact if_neg (Nat.not_le_of_lt hlt)
    | @replaced head removed tail htext hstart hstop =>
        subst htext hstart hstop
        exact splice_middle head removed tail replacement

/-- **What can go wrong.** -/
theorem splice_eq_error_iff : (∃ fault, splice s start stop replacement = .error fault) ↔
    Misplaced s start ∨ Misplaced s stop ∨ stop < start := by
  constructor
  · rintro ⟨fault, hfault⟩
    cases splice_eq_iff.mp hfault with
    | misplacedStart hstart => exact Or.inl hstart
    | misplacedStop _ hstop => exact Or.inr (Or.inl hstop)
    | reversed _ _ hlt => exact Or.inr (Or.inr hlt)
  · intro h
    cases hsplice : splice s start stop replacement with
    | error fault => exact ⟨fault, rfl⟩
    | ok result =>
        cases splice_eq_iff.mp hsplice with
        | @replaced head removed tail htext hstart hstop =>
            subst htext hstart hstop
            rcases h with hmisplaced | hmisplaced | hlt
            · rw [List.append_assoc] at hmisplaced
              exact absurd hmisplaced (not_misplaced_append head _)
            · rw [← byteSize_append] at hmisplaced
              exact absurd hmisplaced (not_misplaced_append _ tail)
            · omega

/-- **What was taken out can be put back.** -/
theorem splice_restore {result : Text} (h : splice s start stop replacement = .ok result) :
    ∃ removed, excerpt? s start stop = some removed ∧
      splice result start (start + byteSize replacement) removed = .ok s := by
  cases splice_eq_iff.mp h with
  | @replaced head removed tail htext hstart hstop =>
      subst htext hstart hstop
      exact ⟨removed, excerpt?_middle head removed tail, splice_middle head replacement tail removed⟩

end Text

/-! ## The range of a construct -/

/-- A construct that gives way to variants is not empty. -/
theorem construct_ne_nil {s : Text} (h : (classify s).rule.disposition = .vary) :
    (classify s).construct ≠ [] := by
  have hlocates := locates_classify s
  have hfits := (fits_classify s).1
  unfold Classification.construct
  unfold Locates at hlocates
  cases hrule : (classify s).rule with
  | reference => exact List.cons_ne_nil _ _
  | round => exact List.cons_ne_nil _ _
  | square => exact List.cons_ne_nil _ _
  | bare =>
      rw [hrule] at hlocates hfits
      show (classify s).body ≠ []
      rw [hlocates.2.1]
      exact hfits.2
  | vanilla => rw [hrule] at h; exact absurd h (by decide)
  | synonym => rw [hrule] at h; exact absurd h (by decide)
  | unrecognized => rw [hrule] at h; exact absurd h (by decide)

/-- **The range of a construct that gives way is not empty.** -/
theorem start_lt_stop {s : Text} (h : (classify s).rule.disposition = .vary) :
    (classify s).start < (classify s).stop := by
  have hlength := length_le_byteSize (classify s).construct
  have hne := List.length_pos_iff.mpr (construct_ne_nil h)
  rw [Classification.start, Classification.stop]
  omega

/-- **The construct is found in its range.** -/
theorem excerpt?_classify (s : Text) :
    excerpt? s (classify s).start (classify s).stop = some (classify s).construct := by
  have hmiddle := excerpt?_middle (classify s).before (classify s).construct (classify s).after
  have htext := text_classify s
  rw [Classification.text] at htext
  rw [htext] at hmiddle
  exact hmiddle

theorem not_misplaced_classify (s : Text) :
    ¬ Misplaced s (classify s).start ∧ ¬ Misplaced s (classify s).stop := by
  obtain ⟨hstart, hstop⟩ := cutAt?_start_stop s
  rw [← cutAt?_eq_none_iff, ← cutAt?_eq_none_iff, hstart, hstop]
  exact ⟨Option.some_ne_none _, Option.some_ne_none _⟩

theorem stop_le_byteSize (s : Text) : (classify s).stop ≤ byteSize s := by
  have hsize := congrArg byteSize (text_classify s)
  rw [Classification.text, byteSize_append, byteSize_append] at hsize
  rw [Classification.stop]
  omega

/-- The variants of a step come of replacing the range of the construct. -/
theorem Setting.mapM_splice_of_step {setting : Setting} {template : Text} {pending : Pending}
    {rule : Rule} {missing : Option Text} {variants : List Text} {depth : Nat}
    (h : setting.step template pending = .varied rule missing variants depth) :
    (setting.replacements pending.text).mapM (Text.splice pending.text
      (classify pending.text).start (classify pending.text).stop) = .ok variants := by
  rw [(variants_of_step h).1]
  exact mapM_splice_replacements setting pending.text

/-- **Constructs can always be replaced.** The range of a construct lies in its text, begins and ends
    between characters and holds the construct as it is written; it is not empty if the construct gives
    way to variants. So in no state of a run does a replacement fail. Other ranges have one outcome: they
    fail if an offset is misplaced or the range is reversed, and else what they hold is replaced, and can
    be put back. -/
theorem splice_spans :
    (∀ s : Text,
      (classify s).start ≤ (classify s).stop ∧ (classify s).stop ≤ byteSize s ∧
      ¬ Misplaced s (classify s).start ∧ ¬ Misplaced s (classify s).stop ∧
      ((classify s).rule.disposition = .vary → (classify s).start < (classify s).stop) ∧
      excerpt? s (classify s).start (classify s).stop =
        some ((classify s).rule.construct (classify s).body)) ∧
    (∀ (setting : Setting) (template : Text) (output : Array Text) (n : Nat) (loop : Loop),
      setting.Reaches template (.start template output) n loop → ∀ branch ∈ loop.stack,
        ∀ rule missing variants depth,
          setting.step template branch.toPending = .varied rule missing variants depth →
            (setting.replacements branch.text).mapM (Text.splice branch.text
              (classify branch.text).start (classify branch.text).stop) = .ok variants) ∧
    ∀ (s : Text) (start stop : Nat) (replacement : Text),
      (∀ outcome, Text.splice s start stop replacement = outcome ↔
        Splices s start stop replacement outcome) ∧
      ((∃ fault, Text.splice s start stop replacement = .error fault) ↔
        Misplaced s start ∨ Misplaced s stop ∨ stop < start) ∧
      ∀ result, Text.splice s start stop replacement = .ok result →
        ∃ removed, excerpt? s start stop = some removed ∧
          Text.splice result start (start + byteSize replacement) removed = .ok s := by
  refine ⟨?_, ?_, ?_⟩
  · intro s
    obtain ⟨hstart, hstop⟩ := not_misplaced_classify s
    exact ⟨Nat.le_add_right _ _, stop_le_byteSize s, hstart, hstop, start_lt_stop,
      excerpt?_classify s⟩
  · intro setting template output n loop _ branch _ rule missing variants depth hstep
    exact Setting.mapM_splice_of_step hstep
  · intro s start stop replacement
    refine ⟨fun outcome => splice_eq_iff, splice_eq_error_iff, ?_⟩
    intro result hresult
    exact splice_restore hresult

/-- A variable behind a wide character, and a range with each of the faults: one that begins inside a
    character has the first of them, even if it is reversed. -/
theorem splice_spans_wide :
    excerpt? "é$v".toList 2 4 = some "$v".toList ∧
    (∃ removed, excerpt? "é$v".toList 2 4 = some removed ∧
      Text.splice "é(ü)".toList 2 6 removed = .ok "é$v".toList) ∧
    Text.splice "café".toList 4 1 [] = .error .misplacedStart ∧
    Text.splice "abc".toList 1 10 [] = .error .misplacedStop ∧
    Text.splice "abcdef".toList 4 2 [] = .error (.reversed 4 2) := by
  obtain ⟨hspans, -, hsplices⟩ := splice_spans
  refine ⟨?_, ?_, ?_, ?_, ?_⟩
  · obtain ⟨-, -, -, -, -, hexcerpt⟩ := hspans "é$v".toList
    have hclassify : classify "é$v".toList = ⟨⟨"é".toList, "v".toList, []⟩, .reference⟩ := by
      decide +kernel
    rw [hclassify] at hexcerpt
    exact hexcerpt
  · exact (hsplices "é$v".toList 2 4 "(ü)".toList).2.2 "é(ü)".toList (by decide +kernel)
  · refine ((hsplices "café".toList 4 1 []).1 _).mpr (.misplacedStart (Or.inr ?_))
    exact ⟨"caf".toList, 'é', [], by decide +kernel, by decide +kernel, by decide +kernel⟩
  · refine ((hsplices "abc".toList 1 10 []).1 _).mpr (.misplacedStop ?_ (Or.inl (by decide +kernel)))
    exact not_misplaced_append ['a'] "bc".toList
  · refine ((hsplices "abcdef".toList 4 2 []).1 _).mpr (.reversed ?_ ?_ (by decide))
    · exact not_misplaced_append "abcd".toList "ef".toList
    · exact not_misplaced_append "ab".toList "cdef".toList

end Phrasing
