import Phrasing.Proofs.Iteration
import Phrasing.Proofs.Slots

/-!
# `Proofs.Frames` — texts with gaps for a slot

A frame is a text with gaps, and the same slot is put in all of them. No reader of templates looks
into a slot, and none reads on from the text before a slot into it. So what is read in a frame, where
it ends, and what a classification makes of the frame are the same for every slot: each fact here
finds frames for the parts of a text, and the frames are given before the slot is.

## Contents
- **`Frame`**, **`Frame.fill`**, **`Frame.gaps`**: texts with gaps. `Frame.Tracked` are those with one
  gap or none.
- **Slots in a frame.** `exists_split` and `exists_prefix` cut a frame where its text is cut;
  `isRun_fill` exchanges slots in a run.
- **`Frame.Blind`**, **`exists_site`**: readers that cannot tell slots apart, and their searches.
- **`exists_classify`**, **`exists_variants`**: the classification and the variants of a frame.
-/

namespace Phrasing

open Text Grammar Nested

/-! ## Frames -/

/-- **A text with gaps**: its characters in order, and `none` for a gap. -/
abbrev Frame := List (Option Char)

namespace Frame

/-- The frame of a text, without gaps. -/
def ofText (s : Text) : Frame := s.map some

/-- The frame with one gap, between two texts. -/
def around (front back : Text) : Frame := ofText front ++ none :: ofText back

/-- The text with a slot put in the gaps. -/
def fill (slot : Text) : Frame → Text
  | [] => []
  | some c :: rest => c :: fill slot rest
  | none :: rest => slot ++ fill slot rest

/-- Number of gaps. -/
def gaps (frame : Frame) : Nat := frame.count none

/-- **One gap or none.** -/
def Tracked (frame : Frame) : Prop :=
  (∃ s, frame = ofText s) ∨ ∃ front back, frame = around front back

@[simp] theorem fill_nil (slot : Text) : fill slot [] = [] := rfl

@[simp] theorem fill_some (slot : Text) (c : Char) (rest : Frame) :
    fill slot (some c :: rest) = c :: fill slot rest := rfl

@[simp] theorem fill_none (slot : Text) (rest : Frame) :
    fill slot (none :: rest) = slot ++ fill slot rest := rfl

@[simp] theorem fill_append (slot : Text) (f g : Frame) :
    fill slot (f ++ g) = fill slot f ++ fill slot g := by
  induction f with
  | nil => rfl
  | cons x f ih => cases x <;> simp [ih]

@[simp] theorem fill_ofText (slot s : Text) : fill slot (ofText s) = s := by
  induction s with
  | nil => rfl
  | cons c cs ih => exact congrArg (c :: ·) ih

@[simp] theorem fill_around (slot front back : Text) :
    fill slot (around front back) = front ++ slot ++ back := by
  simp [around]

@[simp] theorem gaps_nil : gaps [] = 0 := rfl

@[simp] theorem gaps_some (c : Char) (rest : Frame) : gaps (some c :: rest) = gaps rest := by
  simp [gaps]

@[simp] theorem gaps_none (rest : Frame) : gaps (none :: rest) = gaps rest + 1 := by
  simp [gaps]

@[simp] theorem gaps_append (f g : Frame) : gaps (f ++ g) = gaps f + gaps g := by
  simp [gaps]

@[simp] theorem gaps_ofText (s : Text) : gaps (ofText s) = 0 := by
  induction s with
  | nil => rfl
  | cons c cs ih => exact (gaps_some c (ofText cs)).trans ih

@[simp] theorem gaps_around (front back : Text) : gaps (around front back) = 1 := by
  simp [around]

/-- A frame without gaps is that of a text. -/
theorem exists_ofText {f : Frame} (h : gaps f = 0) : ∃ s, f = ofText s := by
  induction f with
  | nil => exact ⟨[], rfl⟩
  | cons x f ih =>
      cases x with
      | none => exact absurd h (by simp)
      | some c =>
          obtain ⟨s, rfl⟩ := ih (by simpa using h)
          exact ⟨c :: s, rfl⟩

theorem tracked_of_gaps_le {f : Frame} (h : gaps f ≤ 1) : Tracked f := by
  induction f with
  | nil => exact Or.inl ⟨[], rfl⟩
  | cons x f ih =>
      cases x with
      | none =>
          rw [gaps_none] at h
          obtain ⟨back, rfl⟩ := exists_ofText (f := f) (by omega)
          exact Or.inr ⟨[], back, rfl⟩
      | some c =>
          rcases ih (by simpa using h) with ⟨s, rfl⟩ | ⟨front, back, rfl⟩
          · exact Or.inl ⟨c :: s, rfl⟩
          · exact Or.inr ⟨c :: front, back, rfl⟩

/-! ## Slots in a frame -/

/-- A slot to tell what all slots do. -/
def sample : Text := "<a>".toList

theorem isSlot_sample : IsSlot sample := by
  have hread : Slot.read? sample = some (⟨"a".toList, none⟩, []) := by decide +kernel
  exact isSlot_render_of_read? hread

theorem fill_eq_nil_iff {slot : Text} (hslot : IsSlot slot) {f : Frame} :
    fill slot f = [] ↔ f = [] := by
  cases f with
  | nil => simp
  | cons x f => cases x <;> simp [hslot.ne_nil]

/-- **Cutting at a character** that slots do not have cuts the frame, too. -/
theorem exists_split {slot x y : Text} {d : Char} (hd : d ∉ slot) {f : Frame}
    (h : fill slot f = x ++ d :: y) :
    ∃ g k, f = g ++ some d :: k ∧ fill slot g = x ∧ fill slot k = y := by
  induction f generalizing x with
  | nil => exact absurd h (by simp)
  | cons a f ih =>
      cases a with
      | some c =>
          cases x with
          | nil =>
              obtain ⟨rfl, hy⟩ := List.cons.inj h
              exact ⟨[], f, rfl, rfl, hy⟩
          | cons e x =>
              obtain ⟨rfl, hx⟩ := List.cons.inj h
              obtain ⟨g, k, rfl, rfl, rfl⟩ := ih hx
              exact ⟨some c :: g, k, rfl, rfl, rfl⟩
      | none =>
          rw [fill_none] at h
          rcases List.append_eq_append_iff.mp h with ⟨k, rfl, hk⟩ | ⟨k, hslot, hk⟩
          · obtain ⟨g, k, rfl, rfl, rfl⟩ := ih hk
            exact ⟨none :: g, k, rfl, rfl, rfl⟩
          · cases k with
            | nil =>
                obtain ⟨g, k, rfl, hg, rfl⟩ := @ih [] hk.symm
                refine ⟨none :: g, k, rfl, ?_, rfl⟩
                rw [fill_none, hg, hslot, List.append_nil, List.append_nil]
            | cons e k =>
                obtain ⟨rfl, -⟩ := List.cons.inj hk
                exact absurd (hslot ▸ List.mem_append_right x List.mem_cons_self) hd

/-- **Cutting behind text that opens no slot**: no gap comes before the cut. -/
theorem exists_prefix {slot x y : Text} (hslot : IsSlot slot) (hx : '<' ∉ x) {f : Frame}
    (h : fill slot f = x ++ y) : ∃ k, f = ofText x ++ k ∧ fill slot k = y := by
  induction x generalizing f with
  | nil => exact ⟨f, rfl, h⟩
  | cons c cs ih =>
      rw [List.mem_cons, not_or] at hx
      cases f with
      | nil => exact absurd h (by simp)
      | cons a f =>
          cases a with
          | some d =>
              obtain ⟨rfl, hcs⟩ := List.cons.inj h
              obtain ⟨k, rfl, rfl⟩ := ih hx.2 hcs
              exact ⟨k, rfl, rfl⟩
          | none =>
              obtain ⟨ds, rfl, -⟩ := hslot.exists_open
              exact absurd (List.cons.inj h).1 hx.1

/-- **Slots in a run can be exchanged.** -/
theorem isRun_fill {p q : Text} (hp : IsSlot p) (hq : IsSlot q) {bars : Bool} {f : Frame}
    (h : IsRun bars (fill p f)) : IsRun bars (fill q f) := by
  generalize hs : fill p f = s at h
  induction h generalizing f with
  | nil =>
      rw [(fill_eq_nil_iff hp).mp hs]
      exact .nil
  | @cons first rest hfirst _ ih =>
      -- the frame begins with the characters of the unit, or with a gap where the unit is
      have hchar : ∀ {c : Char}, IsUnit bars [c] → c ≠ '<' → fill p f = [c] ++ rest →
          IsRun bars (fill q f) := by
        intro c hunit hc hs
        obtain ⟨k, rfl, hk⟩ := exists_prefix hp (x := [c]) (by simpa using hc.symm) hs
        exact .cons hunit (ih hk)
      cases hfirst with
      | @plain c hplain =>
          refine hchar (.plain hplain) ?_ hs
          rintro rfl
          exact absurd ((isPlain_iff '<').mpr hplain) (by decide)
      | bar hbars => exact hchar (.bar hbars) (by decide) hs
      | slot hslot =>
          cases f with
          | nil => exact absurd hs (by simp [hslot.ne_nil])
          | cons a f =>
              cases a with
              | none =>
                  obtain ⟨-, hrest⟩ := hp.eq_of_append hslot hs
                  exact .cons (.slot hq) (ih hrest)
              | some c =>
                  obtain ⟨cs, rfl, hcs⟩ := hslot.exists_open
                  obtain ⟨rfl, htail⟩ := List.cons.inj hs
                  obtain ⟨k, rfl, hk⟩ := exists_prefix hp hcs htail
                  have hrun : IsRun bars ('<' :: cs ++ fill q k) := .cons (.slot hslot) (ih hk)
                  simpa using hrun

theorem isBody_fill {p q : Text} (hp : IsSlot p) (hq : IsSlot q) (bars : Bool) (f : Frame) :
    isBody bars (fill p f) = isBody bars (fill q f) := by
  rw [Bool.eq_iff_iff, isBody_iff, isBody_iff, ne_eq, ne_eq, fill_eq_nil_iff hp, fill_eq_nil_iff hq]
  exact and_congr_left fun _ => ⟨isRun_fill hp hq, isRun_fill hq hp⟩

/-! ## Readers -/

/-- **A reader that cannot tell slots apart.** Whatever slot is in the gaps, it reads the same frames,
    or nothing. -/
def Blind (read? : Text → Option (Text × Text)) : Prop :=
  ∀ f : Frame, ∃ found : Option (Frame × Frame),
    (∀ x ∈ found, gaps f = gaps x.1 + gaps x.2) ∧
    ∀ slot, IsSlot slot →
      read? (fill slot f) = found.map fun x => (fill slot x.1, fill slot x.2)

/-- A name ends where a slot begins. -/
theorem blind_readReference : Blind readReference? := by
  intro f
  by_cases h : ∃ name rest, f = ofText ('$' :: name) ++ rest ∧ IsName name ∧
      ∀ c, rest.head? = some (some c) → ¬ IsNameRest c
  · obtain ⟨name, rest, rfl, hname, hstop⟩ := h
    refine ⟨some (ofText name, rest), ?_, ?_⟩
    · intro x hx
      obtain rfl := Option.mem_some.mp hx
      simp [ofText]
    · intro slot hslot
      have hread : readName? (name ++ fill slot rest) = some (name, fill slot rest) := by
        refine readName?_eq_some_iff.mpr ⟨rfl, hname, ?_⟩
        intro c hc
        cases rest with
        | nil => exact absurd hc (by simp)
        | cons a rest =>
            cases a with
            | some d =>
                obtain rfl : d = c := by simpa using hc
                exact hstop d rfl
            | none =>
                obtain ⟨cs, rfl, -⟩ := hslot.exists_open
                obtain rfl : '<' = c := by simpa using hc
                rw [← isNameRest_iff]
                decide
      have htext : fill slot (ofText ('$' :: name) ++ rest) = '$' :: (name ++ fill slot rest) := by
        simp
      rw [htext, readReference?, hread, Option.map_some, fill_ofText]
  · refine ⟨none, by simp, ?_⟩
    intro slot hslot
    rw [Option.map_none, Option.eq_none_iff_forall_ne_some]
    rintro ⟨name, after⟩ hread
    have htext := readReference?_eq_some hread
    unfold readReference? at hread
    split at hread
    · obtain ⟨-, hname, hstop⟩ := readName?_eq_some_iff.mp hread
      have hopen : '<' ∉ '$' :: name := notMem_reference hname (by decide) (by decide)
      obtain ⟨rest, hf, rfl⟩ := exists_prefix hslot hopen htext
      refine h ⟨name, rest, hf, hname, ?_⟩
      intro c hc
      refine hstop c ?_
      cases rest with
      | nil => exact absurd hc (by simp)
      | cons a rest =>
          obtain rfl : a = some c := by simpa using hc
          rfl
    · exact absurd hread (by simp)

/-- A group has its slots in its body. -/
theorem blind_readGroup (bracket : Bracket) :
    Blind (readGroup? bracket.opening bracket.closing) := by
  intro f
  by_cases h : ∃ body rest, f = some bracket.opening :: body ++ some bracket.closing :: rest ∧
      body ≠ [] ∧ IsRun true (fill sample body)
  · obtain ⟨body, rest, rfl, hne, hrun⟩ := h
    refine ⟨some (body, rest), ?_, ?_⟩
    · intro x hx
      obtain rfl := Option.mem_some.mp hx
      simp
    · intro slot hslot
      refine Bracket.readGroup?_eq_some_iff.mpr ⟨by simp, ?_, isRun_fill isSlot_sample hslot hrun⟩
      exact mt (fill_eq_nil_iff hslot).mp hne
  · refine ⟨none, by simp, ?_⟩
    intro slot hslot
    rw [Option.map_none, Option.eq_none_iff_forall_ne_some]
    rintro ⟨body, after⟩ hread
    obtain ⟨htext, hne, hrun⟩ := Bracket.readGroup?_eq_some_iff.mp hread
    obtain ⟨hopening, hclosing⟩ := bracket.notMem_of_isUnit (.slot hslot)
    obtain ⟨front, k, rfl, hfront, hk⟩ := exists_split (x := []) hopening htext
    obtain rfl := (fill_eq_nil_iff hslot).mp hfront
    obtain ⟨g, rest, rfl, rfl, -⟩ := exists_split hclosing hk
    exact h ⟨g, rest, by simp, mt (fill_eq_nil_iff hslot).mpr hne,
      isRun_fill hslot isSlot_sample hrun⟩

/-- The frames of a construct's body and of the text around the construct. -/
structure Site where
  before : Frame
  body : Frame
  after : Frame

/-- The occurrence with a slot put in the gaps. -/
def Site.fill (slot : Text) (site : Site) : Occurrence :=
  ⟨Frame.fill slot site.before, Frame.fill slot site.body, Frame.fill slot site.after⟩

/-- Number of gaps. -/
def Site.gaps (site : Site) : Nat :=
  Frame.gaps site.before + Frame.gaps site.body + Frame.gaps site.after

/-- The frame with the construct replaced. -/
def Site.replace (site : Site) (replacement : Frame) : Frame :=
  site.before ++ replacement ++ site.after

end Frame

/-- A search goes on behind text without its mark. -/
theorem Grammar.findFirst_append_of_notMem {read? : Text → Option (Text × Text)} {mark : Char}
    (hmark : ∀ c cs, c ≠ mark → read? (c :: cs) = none) {s : Text} (hs : mark ∉ s) (t : Text) :
    findFirst read? (s ++ t) =
      (findFirst read? t).map fun found => { found with before := s ++ found.before } := by
  induction s with
  | nil => simp
  | cons c cs ih =>
      rw [List.mem_cons, not_or] at hs
      rw [List.cons_append, findFirst, hmark c _ (fun hc => hs.1 hc.symm), ih hs.2]
      simp [Occurrence.shift, Function.comp_def]

namespace Frame

/-- **The left-most place is the same for all slots.** -/
theorem exists_site {read? : Text → Option (Text × Text)} (hblind : Blind read?) {mark : Char}
    (hmark : ∀ c cs, c ≠ mark → read? (c :: cs) = none) (hunit : isUnitChar mark = false)
    (f : Frame) : ∃ found : Option Site, (∀ site ∈ found, site.gaps = gaps f) ∧
      ∀ slot, IsSlot slot → findFirst read? (fill slot f) = found.map (Site.fill slot) := by
  induction f with
  | nil => exact ⟨none, by simp, fun _ _ => rfl⟩
  | cons a f ih =>
      obtain ⟨later, hgaps, hlater⟩ := ih
      -- where nothing is read here, the site is that of the rest
      have hskip : (∀ slot, IsSlot slot → findFirst read? (fill slot (a :: f)) =
            (findFirst read? (fill slot f)).map fun found =>
              { found with before := fill slot [a] ++ found.before }) →
          ∃ found : Option Site, (∀ site ∈ found, site.gaps = gaps (a :: f)) ∧
            ∀ slot, IsSlot slot →
              findFirst read? (fill slot (a :: f)) = found.map (Site.fill slot) := by
        intro hsearch
        refine ⟨later.map fun site => { site with before := a :: site.before }, ?_, ?_⟩
        · intro site hsite
          obtain ⟨inner, hinner, rfl⟩ := Option.mem_map.mp hsite
          have hsum := hgaps inner hinner
          unfold Site.gaps at hsum ⊢
          cases a with
          | none => simp only [gaps_none]; omega
          | some c => simpa using hsum
        · intro slot hslot
          rw [hsearch slot hslot, hlater slot hslot, Option.map_map, Option.map_map]
          congr 1
          funext site
          simp only [Function.comp_def, Site.fill]
          rw [← fill_append]
          rfl
      cases a with
      | none =>
          apply hskip
          intro slot hslot
          have hnone : mark ∉ slot := notMem_of_isUnit (.slot hslot) hunit
          rw [fill_none, findFirst_append_of_notMem hmark hnone]
          simp
      | some c =>
          obtain ⟨here, hparts, hhere⟩ := hblind (some c :: f)
          cases here with
          | none =>
              apply hskip
              intro slot hslot
              have hread := hhere slot hslot
              rw [fill_some] at hread ⊢
              rw [findFirst, hread]
              rfl
          | some parts =>
              refine ⟨some ⟨[], parts.1, parts.2⟩, ?_, ?_⟩
              · intro site hsite
                obtain rfl := Option.mem_some.mp hsite
                simp [Site.gaps, hparts parts rfl]
              · intro slot hslot
                have hread := hhere slot hslot
                rw [fill_some] at hread ⊢
                rw [findFirst, hread]
                rfl

/-- Slots in a synonym line can be exchanged, since none lies before its tilde. -/
theorem isSynonymLine_of_fill {p q : Text} (hp : IsSlot p) (hq : IsSlot q) {f : Frame}
    (h : isSynonymLine (fill p f) = true) : isSynonymLine (fill q f) = true := by
  obtain ⟨name, gap, skipped, line, htext, htilde, hne, hname, hgap, hskipped, hline⟩ :=
    (isSynonymLine_iff _).mp h
  have hopen : '<' ∉ name ++ gap ++ ['~'] := by
    have hbefore := notMem_before_tilde hname hgap (d := '<') (by decide) (by decide)
    simpa using hbefore
  have hopen' : '<' ∉ skipped := fun hmem => absurd (hskipped _ hmem) (by decide)
  obtain ⟨k, rfl, hk⟩ := exists_prefix hp (y := skipped ++ line) hopen (by simpa using htext)
  obtain ⟨rest, rfl, rfl⟩ := exists_prefix hp hopen' hk
  refine (isSynonymLine_iff _).mpr
    ⟨name, gap, skipped, fill q rest, by simp, htilde, hne, hname, hgap, hskipped, ?_⟩
  -- a line feed would be in the frame, since no slot has one
  intro hfeed
  obtain ⟨x, y, hcut⟩ := List.append_of_mem hfeed
  obtain ⟨g, k, rfl, -, -⟩ := exists_split (notMem_of_isUnit (.slot hq) (by decide)) hcut
  exact hline (by simp)

theorem isSynonymLine_fill {p q : Text} (hp : IsSlot p) (hq : IsSlot q) (f : Frame) :
    isSynonymLine (fill p f) = isSynonymLine (fill q f) :=
  Bool.eq_iff_iff.mpr ⟨isSynonymLine_of_fill hp hq, isSynonymLine_of_fill hq hp⟩

/-! ## Classifications and variants -/

/-- **A classification looks into no slot**: rule and site of a frame are the same for all slots. -/
theorem exists_classify (f : Frame) : ∃ (site : Site) (rule : Rule), site.gaps = gaps f ∧
    ∀ slot, IsSlot slot → classify (fill slot f) = ⟨site.fill slot, rule⟩ := by
  have hwhole : Site.gaps ⟨[], f, []⟩ = gaps f := by simp [Site.gaps]
  obtain ⟨reference, hreferenceGaps, hreference⟩ :=
    exists_site blind_readReference (fun _ cs hc => readReference?_of_ne hc cs) (by decide) f
  obtain ⟨round, hroundGaps, hround⟩ := exists_site (blind_readGroup .round)
    (fun _ cs hc => readGroup?_of_ne hc cs) (by decide) f
  obtain ⟨square, hsquareGaps, hsquare⟩ := exists_site (blind_readGroup .square)
    (fun _ cs hc => readGroup?_of_ne hc cs) (by decide) f
  simp only [Bracket.opening, Bracket.closing] at hround hsquare
  -- each test of `classify` comes out the same for all slots as it does for one
  have hbody : ∀ bars slot, IsSlot slot → isBody bars (fill slot f) = isBody bars (fill sample f) :=
    fun bars slot hslot => isBody_fill hslot isSlot_sample bars f
  by_cases hvanilla : isBody false (fill sample f) = true
  · refine ⟨⟨[], f, []⟩, .vanilla, hwhole, ?_⟩
    intro slot hslot
    rw [classify, hbody false slot hslot, if_pos hvanilla]
    rfl
  · cases reference with
    | some site =>
        refine ⟨site, .reference, hreferenceGaps site rfl, ?_⟩
        intro slot hslot
        rw [classify, hbody false slot hslot, if_neg hvanilla, hreference slot hslot]
        rfl
    | none =>
        cases round with
        | some site =>
            refine ⟨site, .round, hroundGaps site rfl, ?_⟩
            intro slot hslot
            rw [classify, hbody false slot hslot, if_neg hvanilla, hreference slot hslot,
              hround slot hslot]
            rfl
        | none =>
            cases square with
            | some site =>
                refine ⟨site, .square, hsquareGaps site rfl, ?_⟩
                intro slot hslot
                rw [classify, hbody false slot hslot, if_neg hvanilla, hreference slot hslot,
                  hround slot hslot, hsquare slot hslot]
                rfl
            | none =>
                have hlines : ∀ slot, IsSlot slot → classify (fill slot f) =
                    if isBody true (fill sample f) then .whole .bare (fill slot f)
                    else if isSynonymLine (fill sample f) then .whole .synonym (fill slot f)
                    else .whole .unrecognized (fill slot f) := by
                  intro slot hslot
                  rw [classify, hbody false slot hslot, if_neg hvanilla, hreference slot hslot,
                    hround slot hslot, hsquare slot hslot, hbody true slot hslot,
                    isSynonymLine_fill hslot isSlot_sample]
                  rfl
                by_cases hbare : isBody true (fill sample f) = true
                · refine ⟨⟨[], f, []⟩, .bare, hwhole, ?_⟩
                  intro slot hslot
                  rw [hlines slot hslot, if_pos hbare]
                  rfl
                · by_cases hsynonym : isSynonymLine (fill sample f) = true
                  · refine ⟨⟨[], f, []⟩, .synonym, hwhole, ?_⟩
                    intro slot hslot
                    rw [hlines slot hslot, if_neg hbare, if_pos hsynonym]
                    rfl
                  · refine ⟨⟨[], f, []⟩, .unrecognized, hwhole, ?_⟩
                    intro slot hslot
                    rw [hlines slot hslot, if_neg hbare, if_neg hsynonym]
                    rfl

/-- The name of a variable is its frame: no slot lies in it. -/
theorem exists_name {f : Frame} {site : Site}
    (h : ∀ slot, IsSlot slot → classify (fill slot f) = ⟨site.fill slot, .reference⟩) :
    ∃ name, site.body = ofText name := by
  have hlocates := locates_classify (fill sample f)
  rw [h sample isSlot_sample] at hlocates
  have hname : IsName (fill sample site.body) := hlocates.2.1
  have hopen : '<' ∉ fill sample site.body := notMem_name hname (by decide)
  obtain ⟨k, hbody, hk⟩ := exists_prefix isSlot_sample (y := []) hopen (by rw [List.append_nil])
  obtain rfl := (fill_eq_nil_iff isSlot_sample).mp hk
  exact ⟨fill sample site.body, by rw [← List.append_nil (ofText _)]; exact hbody⟩

/-- No bar lies in a slot: the pieces of a frame are frames. -/
theorem exists_pieces (f : Frame) : ∃ (first : Frame) (others : List Frame),
    (∀ part ∈ first :: others, gaps part ≤ gaps f) ∧
    ∀ slot, IsSlot slot → pieces '|' (fill slot f) = (first :: others).map (fill slot) := by
  induction f with
  | nil => exact ⟨[], [], by simp, fun _ _ => rfl⟩
  | cons a f ih =>
      obtain ⟨first, others, hgaps, hpieces⟩ := ih
      have hfirst := hgaps first List.mem_cons_self
      cases a with
      | none =>
          refine ⟨none :: first, others, ?_, ?_⟩
          · rw [List.forall_mem_cons, gaps_none, gaps_none]
            refine ⟨by omega, ?_⟩
            intro part hpart
            have hle := hgaps part (List.mem_cons_of_mem _ hpart)
            omega
          · intro slot hslot
            have hbar : '|' ∉ slot := notMem_of_isUnit (.slot hslot) (by decide)
            exact pieces_append_of_notMem hbar (hpieces slot hslot)
      | some c =>
          by_cases hc : c = '|'
          · refine ⟨[], first :: others, ?_, ?_⟩
            · rw [List.forall_mem_cons, gaps_some]
              exact ⟨Nat.zero_le _, hgaps⟩
            · intro slot hslot
              rw [fill_some, pieces, if_pos hc, hpieces slot hslot]
              rfl
          · refine ⟨some c :: first, others, ?_, ?_⟩
            · rw [List.forall_mem_cons, gaps_some, gaps_some]
              exact ⟨hfirst, fun part hpart => hgaps part (List.mem_cons_of_mem _ hpart)⟩
            · intro slot hslot
              rw [fill_some, pieces, if_neg hc, hpieces slot hslot]
              rfl

/-- What stands in the place of a construct are frames, with no more gaps than its body has. -/
theorem exists_replacements (setting : Setting) {f : Frame} {site : Site} {rule : Rule}
    (h : ∀ slot, IsSlot slot → classify (fill slot f) = ⟨site.fill slot, rule⟩) :
    ∃ frames : List Frame, (∀ frame ∈ frames, gaps frame ≤ gaps site.body) ∧
      ∀ slot, IsSlot slot → setting.replacements (fill slot f) = frames.map (fill slot) := by
  obtain ⟨first, others, hgaps, hpieces⟩ := exists_pieces site.body
  have halternatives : ∀ slot, IsSlot slot →
      (classify (fill slot f)).alternatives = (first :: others).map (fill slot) := by
    intro slot hslot
    rw [h slot hslot]
    exact hpieces slot hslot
  cases rule with
  | reference =>
      obtain ⟨name, hname⟩ := exists_name h
      refine ⟨[ofText (wrap ((setting.vars.get? name).getD []))], by simp, ?_⟩
      intro slot hslot
      simp [Setting.replacements, h slot hslot, Site.fill, hname]
  | round =>
      refine ⟨first :: others, hgaps, ?_⟩
      intro slot hslot
      rw [← halternatives slot hslot]
      simp [Setting.replacements, h slot hslot]
  | bare =>
      refine ⟨first :: others, hgaps, ?_⟩
      intro slot hslot
      rw [← halternatives slot hslot]
      simp [Setting.replacements, h slot hslot]
  | square =>
      refine ⟨first :: others ++ [[]], ?_, ?_⟩
      · intro frame hframe
        rcases List.mem_append.mp hframe with hframe | hframe
        · exact hgaps frame hframe
        · rw [List.mem_singleton.mp hframe]
          exact Nat.zero_le _
      · intro slot hslot
        rw [List.map_append, ← halternatives slot hslot]
        simp [Setting.replacements, h slot hslot]
  | vanilla => exact ⟨[], by simp, fun slot hslot => by simp [Setting.replacements, h slot hslot]⟩
  | synonym => exact ⟨[], by simp, fun slot hslot => by simp [Setting.replacements, h slot hslot]⟩
  | unrecognized =>
      exact ⟨[], by simp, fun slot hslot => by simp [Setting.replacements, h slot hslot]⟩

/-- **The variants of a frame are frames**, with no more gaps than it has. -/
theorem exists_variants (setting : Setting) (f : Frame) : ∃ variants : List Frame,
    (∀ variant ∈ variants, gaps variant ≤ gaps f) ∧
    ∀ slot, IsSlot slot → setting.variants (fill slot f) = variants.map (fill slot) := by
  obtain ⟨site, rule, hsite, hclassify⟩ := exists_classify f
  obtain ⟨frames, hgaps, hreplacements⟩ := exists_replacements setting hclassify
  refine ⟨frames.map site.replace, ?_, ?_⟩
  · intro variant hvariant
    obtain ⟨frame, hframe, rfl⟩ := List.mem_map.mp hvariant
    have hle := hgaps frame hframe
    simp only [Site.replace, gaps_append, Site.gaps] at hsite ⊢
    omega
  · intro slot hslot
    rw [Setting.variants, hreplacements slot hslot, hclassify slot hslot, List.map_map,
      List.map_map]
    congr 1
    funext frame
    simp [Classification.fill, Site.fill, Site.replace]

end Frame

end Phrasing
