import Recenter.Proofs.Region.Pass

/-! Triples of lines that overlap. The pass reads an upper border as it has left it and a lower one
as it was. So a title that is a border itself may give the triple below it another width, or, once
it is centered, complete a banner that the pass has left behind. Where no title begins as a border
there is nothing of the kind, and the pass does what centering all titles at once would do
(`centerLines_eq_atOnce`). Whatever the lines are, a second pass changes nothing exactly if each
banner that is completed in this way has its title in place
(`centerLines_again_iff_undisturbed`). -/

namespace Recenter.Banner.Region

open Recenter.Text

variable {borders : Borders} {top top' middle bottom bottom' title upper lower line line' : Line}
  {lines : List Line}

/-! ## All banners at once -/

def IsTriple (borders : Borders) (lines : List Line) (j : Nat) : Prop :=
  ∃ top bottom, lines[j]? = some top ∧ lines[j + 2]? = some bottom ∧
    isCandidate borders top bottom = true

/-- A line centered between two others, if they are borders and it holds a title that fits. -/
def centeredBetween (borders : Borders) (top bottom line : Line) : Line :=
  if isCandidate borders top bottom then
    match centerTitle? (splitEol line).1 (splitEol top).1.length with
    | some centered => centered ++ (splitEol line).2
    | none => line
  else line

/-- Line `j` of `lines` centered between its neighbours. The first and the last line have one. -/
def centeredAt (borders : Borders) (lines : List Line) : Nat → Line → Line
  | 0, line => line
  | j + 1, line =>
    match lines[j]?, lines[j + 2]? with
    | some top, some bottom => centeredBetween borders top bottom line
    | _, _ => line

/-- Every line centered between its neighbours as they are in `lines`. -/
def atOnce (borders : Borders) (lines : List Line) : List Line :=
  lines.mapIdx (centeredAt borders lines)

/-- No title between two border lines begins as a border. -/
def NoBorderTitle (borders : Borders) (lines : List Line) : Prop :=
  ∀ (j : Nat) (top middle bottom : Line), lines[j]? = some top → lines[j + 1]? = some middle →
    lines[j + 2]? = some bottom → isCandidate borders top bottom = true →
      ¬ borders.top <+: trim middle ∧ ¬ borders.bottom <+: trim middle

theorem revised_eq_centeredBetween (borders : Borders) (top bottom line : Line) :
    revised borders (some top) (some bottom) line = centeredBetween borders top bottom line := by
  simp only [revised, recenter?, centeredBetween]
  split
  · cases centerTitle? (splitEol line).1 (splitEol top).1.length with
    | none => rfl
    | some centered =>
      by_cases hc : centered = (splitEol line).1
      · simp [hc, splitEol_append]
      · simp [hc]
  · rfl

theorem getElem?_atOnce_zero (borders : Borders) (lines : List Line) :
    (atOnce borders lines)[0]? = lines[0]? := by
  have hid : centeredAt borders lines 0 = id := rfl
  rw [atOnce, List.getElem?_mapIdx, hid, Option.map_id_fun, id]

theorem getElem?_atOnce_succ (borders : Borders) (lines : List Line) (j : Nat) :
    (atOnce borders lines)[j + 1]? =
      lines[j + 1]?.map (revised borders lines[j]? lines[j + 2]?) := by
  have hat : centeredAt borders lines (j + 1) = revised borders lines[j]? lines[j + 2]? := by
    funext line
    rw [centeredAt]
    cases lines[j]? with
    | none => rfl
    | some top =>
      cases lines[j + 2]? with
      | none => rfl
      | some bottom => exact (revised_eq_centeredBetween borders top bottom line).symm
  rw [atOnce, List.getElem?_mapIdx, hat]

/-! ## Lines that are no borders -/

def IsInner (borders : Borders) (line : Line) : Prop :=
  ¬ borders.top <+: (splitEol line).1 ∧ ¬ borders.bottom <+: (splitEol line).1

/-- The second line is the first one, or neither of the two begins as a border. -/
def KeepsBorder (borders : Borders) (line line' : Line) : Prop :=
  line' = line ∨ IsInner borders line ∧ IsInner borders line'

theorem KeepsBorder.isCandidate_eq (ht : KeepsBorder borders top top')
    (hb : KeepsBorder borders bottom bottom') :
    isCandidate borders top' bottom' = isCandidate borders top bottom := by
  have htop : borders.top <+: (splitEol top').1 ↔ borders.top <+: (splitEol top).1 := by
    rcases ht with rfl | ⟨h, h'⟩
    exacts [Iff.rfl, iff_of_false h'.1 h.1]
  have hbottom : borders.bottom <+: (splitEol bottom').1 ↔
      borders.bottom <+: (splitEol bottom).1 := by
    rcases hb with rfl | ⟨h, h'⟩
    exacts [Iff.rfl, iff_of_false h'.2 h.2]
  rw [Bool.eq_iff_iff, isCandidate_iff, isCandidate_iff, htop, hbottom]

/-- An upper border that is kept has its width too, and any other line asks for nothing. -/
theorem KeepsBorder.revised_eq (h : KeepsBorder borders top top') (below : Option Line) :
    revised borders (some top') below = revised borders (some top) below := by
  have hnone : ∀ above, ¬ borders.top <+: (splitEol above).1 →
      revised borders (some above) below = id := by
    intro above hn
    refine revised_eq_id fun top bottom ht _ hc => ?_
    cases ht
    exact hn (isCandidate_iff.1 hc).1
  rcases h with rfl | ⟨h, h'⟩
  · rfl
  · rw [hnone top' h'.1, hnone top h.1]

/-- A line whose title begins as no border begins as none itself, whatever blanks are around it. -/
theorem isInner_of_trim (htop : Tight borders.top) (hbottom : Tight borders.bottom)
    (h : ¬ borders.top <+: trim line ∧ ¬ borders.bottom <+: trim line) : IsInner borders line := by
  rw [← trim_splitEol_fst] at h
  exact ⟨fun hp => h.1 (htop.isPrefix_trim hp), fun hp => h.2 (hbottom.isPrefix_trim hp)⟩

/-! ## The pass and the banners at once -/

section Together

variable (htop : Tight borders.top) (hbottom : Tight borders.bottom)
  (h : NoBorderTitle borders lines)
include htop hbottom h

theorem keepsBorder_revised {j : Nat} (hm : lines[j + 1]? = some middle) :
    KeepsBorder borders middle (revised borders lines[j]? lines[j + 2]? middle) := by
  rcases revised_cases borders lines[j]? lines[j + 2]? middle with he |
    ⟨top, bottom, htop', hbottom', hc, -, -, -⟩
  · exact .inl he
  · have htrim := h j top middle bottom htop' hm hbottom' hc
    refine .inr ⟨isInner_of_trim htop hbottom htrim, isInner_of_trim htop hbottom ?_⟩
    rwa [← trim_splitEol_fst, trim_revised, trim_splitEol_fst]

theorem rel_atOnce (j : Nat) :
    Option.Rel (KeepsBorder borders) lines[j]? (atOnce borders lines)[j]? := by
  cases j with
  | zero =>
    rw [getElem?_atOnce_zero]
    cases lines[0]? with
    | none => exact .none
    | some line => exact .some (.inl rfl)
  | succ j =>
    rw [getElem?_atOnce_succ]
    cases hm : lines[j + 1]? with
    | none => exact .none
    | some middle => exact .some (keepsBorder_revised htop hbottom h hm)

theorem lines_centerLines_eq_atOnce :
    (centerLines borders lines).lines = atOnce borders lines := by
  apply List.ext_getElem?
  intro j
  -- By the index of the line: what the pass has left above it asks for what was there before.
  induction j with
  | zero => rw [getElem?_centerLines_zero, getElem?_atOnce_zero]
  | succ j ih =>
    have hrel := rel_atOnce htop hbottom h j
    rw [getElem?_centerLines_succ, getElem?_atOnce_succ, ih]
    generalize lines[j]? = above, (atOnce borders lines)[j]? = above' at hrel ⊢
    cases hrel with
    | none => rfl
    | some hkeeps => rw [hkeeps.revised_eq]

theorem isTriple_atOnce_iff (j : Nat) :
    IsTriple borders (atOnce borders lines) j ↔ IsTriple borders lines j := by
  have hupper := rel_atOnce htop hbottom h j
  have hlower := rel_atOnce htop hbottom h (j + 2)
  unfold IsTriple
  generalize lines[j]? = top, (atOnce borders lines)[j]? = top' at hupper ⊢
  generalize lines[j + 2]? = bottom, (atOnce borders lines)[j + 2]? = bottom' at hlower ⊢
  cases hupper with
  | none => simp
  | some ht =>
    cases hlower with
    | none => simp
    | some hb => simp [ht.isCandidate_eq hb]

end Together

theorem getLast?_atOnce (borders : Borders) (lines : List Line) :
    (atOnce borders lines).getLast? = lines.getLast? := by
  rw [List.getLast?_eq_getElem?, List.getLast?_eq_getElem?]
  have hlen : (atOnce borders lines).length = lines.length := List.length_mapIdx
  rw [hlen]
  cases hl : lines.length - 1 with
  | zero => exact getElem?_atOnce_zero borders lines
  | succ j =>
    have hnone : lines[j + 2]? = none := List.getElem?_eq_none (by omega)
    have hid : revised borders lines[j]? none = id := revised_eq_id nofun
    rw [getElem?_atOnce_succ, hnone, hid, Option.map_id_fun, id]

/-- Where borders have no outer blanks and no title begins as one, the pass makes of every line what
its neighbours before the pass ask for; the first and the last line stay, the same triples are
candidates afterwards, and a change is reported exactly if a line differs. -/
theorem centerLines_eq_atOnce (borders : Borders) (lines : List Line) (htop : Tight borders.top)
    (hbottom : Tight borders.bottom) (h : NoBorderTitle borders lines) :
    (centerLines borders lines).lines = atOnce borders lines ∧
      (centerLines borders lines).lines.head? = lines.head? ∧
      (centerLines borders lines).lines.getLast? = lines.getLast? ∧
      (∀ j, IsTriple borders (centerLines borders lines).lines j ↔ IsTriple borders lines j) ∧
      ((centerLines borders lines).changed = true ↔ (centerLines borders lines).lines ≠ lines) := by
  have hlines := lines_centerLines_eq_atOnce htop hbottom h
  refine ⟨hlines, ?_, ?_, fun j => ?_, changed_centerLines_iff borders lines⟩
  · rw [List.head?_eq_getElem?, List.head?_eq_getElem?]
    exact getElem?_centerLines_zero borders lines
  · rw [hlines]
    exact getLast?_atOnce borders lines
  · rw [hlines]
    exact isTriple_atOnce_iff htop hbottom h j

/-- Borders of unequal width that close one banner and open the next, with carriage returns. -/
def shared : List Line :=
  ["##########".toList, "a".toList, "#####\r".toList, " b\r".toList, "##".toList, "c  ".toList]

theorem centerLines_eq_atOnce_shared :
    let borders : Borders := ⟨['#', '#'], ['#', '#']⟩
    Tight borders.top ∧ Tight borders.bottom ∧ NoBorderTitle borders shared ∧
      (centerLines borders shared).lines = atOnce borders shared ∧
      (centerLines borders shared).lines =
        ["##########".toList, "    a     ".toList, "#####\r".toList, "  b  \r".toList, "##".toList,
          "c  ".toList] := by
  intro borders
  have ht : Tight ['#', '#'] := tight_trim ['#', '#']
  have h : NoBorderTitle borders shared := by
    intro j top middle bottom htop hmiddle hbottom
    match j, htop, hmiddle, hbottom with
    | 0, rfl, rfl, rfl | 1, rfl, rfl, rfl | 2, rfl, rfl, rfl | 3, rfl, rfl, rfl => decide
    | j + 4, _, _, hbottom => simp [shared] at hbottom
  exact ⟨ht, ht, h, (centerLines_eq_atOnce borders shared ht ht h).1, by decide +kernel⟩

/-! ## A second pass -/

theorem isCentered_revised (borders : Borders) (top middle bottom : Line) :
    IsCentered borders top (revised borders (some top) (some bottom) middle) bottom := by
  rcases revised_cases borders (some top) (some bottom) middle with he |
    ⟨_, _, htop, -, -, hne, -, he⟩
  · rw [he]
    exact revised_eq_self_iff.1 he
  · obtain rfl := Option.some.inj htop
    intro _ _ _
    rw [he, splitEol_pad_append _ hne, trim_pad (tight_trim _)]

/-- A title that begins as a lower border once it is centered, and did not before. -/
structure Emerges (borders : Borders) (upper title lower : Line) : Prop where
  candidate : isCandidate borders upper lower = true
  before : ¬ borders.bottom <+: (splitEol title).1
  after : borders.bottom <+: (splitEol (revised borders (some upper) (some lower) title)).1

/-- Where a title emerges as a lower border and completes a banner with the two lines above it, the
title of that banner is in its place. -/
def Undisturbed (borders : Borders) (lines : List Line) : Prop :=
  ∀ (j : Nat) (top middle title lower : Line),
    (centerLines borders lines).lines[j]? = some top → lines[j + 1]? = some middle →
    lines[j + 2]? = some title → lines[j + 3]? = some lower → Emerges borders middle title lower →
      IsCentered borders top middle (revised borders (some middle) (some lower) title)

/-- The title of a banner that is completed late has been left alone: the line below it was no
border when the pass came by. -/
theorem AllCentered.undisturbed (h : AllCentered borders (centerLines borders lines).lines) :
    Undisturbed borders lines := by
  intro j top middle title lower htop hmiddle htitle hlower hemerges
  have hmiddle' : (centerLines borders lines).lines[j + 1]? = some middle := by
    rw [getElem?_centerLines_succ, htop, hmiddle, htitle, Option.map_some, revised_eq_self_iff.2]
    intro hc
    exact absurd (isCandidate_iff.1 hc).2 hemerges.before
  have htitle' : (centerLines borders lines).lines[j + 2]? =
      some (revised borders (some middle) (some lower) title) := by
    rw [getElem?_centerLines_succ, hmiddle', htitle, hlower, Option.map_some]
  exact h j _ _ _ htop hmiddle' htitle'

/-- A title that is off center after the pass had no border below it when the pass came by. -/
theorem Undisturbed.allCentered (h : Undisturbed borders lines) :
    AllCentered borders (centerLines borders lines).lines := by
  intro j top middle' bottom' htop hmiddle' hbottom'
  have hm := hmiddle'
  have hb := hbottom'
  rw [getElem?_centerLines_succ, htop] at hm
  rw [getElem?_centerLines_succ, hmiddle'] at hb
  obtain ⟨middle, hmiddle, rfl⟩ := Option.map_eq_some_iff.1 hm
  obtain ⟨title, htitle, rfl⟩ := Option.map_eq_some_iff.1 hb
  rw [htitle] at hmiddle' ⊢
  intro hc
  by_cases hbefore : isCandidate borders top title = true
  · exact isCentered_revised borders top middle title hbefore
  · have hstay : revised borders (some top) (some title) middle = middle :=
      revised_eq_self_iff.2 fun hc' => absurd hc' hbefore
    rw [hstay] at hc ⊢
    have hnew : ¬ borders.bottom <+: (splitEol title).1 := fun hp =>
      hbefore (isCandidate_iff.2 ⟨(isCandidate_iff.1 hc).1, hp⟩)
    rcases revised_cases borders (some middle) lines[j + 3]? title with he |
      ⟨_, lower, hupper, hlower, hcandidate, -⟩
    · rw [he] at hc
      exact absurd (isCandidate_iff.1 hc).2 hnew
    · obtain rfl := Option.some.inj hupper
      rw [hlower] at hc
      exact h j top middle title lower htop hmiddle htitle hlower
        ⟨hcandidate, hnew, (isCandidate_iff.1 hc).2⟩ hc

/-- A second pass changes nothing exactly if the banners that the first one has completed behind
itself have their titles in place. -/
theorem centerLines_again_iff_undisturbed (borders : Borders) (lines : List Line) :
    centerLines borders (centerLines borders lines).lines =
        ⟨(centerLines borders lines).lines, false⟩ ↔ Undisturbed borders lines := by
  rw [region_eq_iff, lines_centerLines_eq_self_iff]
  exact ⟨AllCentered.undisturbed, Undisturbed.allCentered⟩

/-- A lower border one column off, below two upper ones of unequal width. Once it is in its place
the second upper border is the title of a banner that the first one opens. -/
def emerging : List Line :=
  let borders := Borders.standard
  [borders.top ++ ['='], borders.top, ' ' :: borders.bottom, borders.bottom]

theorem centerLines_again_emerging :
    let borders := Borders.standard
    (∀ line ∈ emerging, '\n' ∉ line) ∧
      centerLines borders emerging =
        ⟨[borders.top ++ ['='], borders.top, borders.bottom, borders.bottom], true⟩ ∧
      centerLines borders (centerLines borders emerging).lines =
        ⟨[borders.top ++ ['='], borders.top ++ [' '], borders.bottom ++ [' '],
          borders.bottom], true⟩ := by
  decide +kernel

/-- Where no title begins as a lower border, a second pass changes nothing. -/
theorem centerLines_again_of_noBorderTitle (hbottom : Tight borders.bottom)
    (h : NoBorderTitle borders lines) :
    (centerLines borders (centerLines borders lines).lines).lines =
      (centerLines borders lines).lines := by
  refine lines_centerLines_eq_self_iff.2 (Undisturbed.allCentered ?_)
  intro j top middle title lower _ hmiddle htitle hlower hemerges
  have htrim := (h (j + 1) middle title lower hmiddle htitle hlower hemerges.candidate).2
  have hafter := hbottom.isPrefix_trim hemerges.after
  rw [trim_revised, trim_splitEol_fst] at hafter
  exact absurd hafter htrim

end Recenter.Banner.Region
