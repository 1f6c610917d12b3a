import Recenter.Proofs.Region.Overlap

/-! Lines that are no titles, though they stand where a title does. A border line that stands
between two others is taken for their title. So the pass leaves all border lines alone exactly if
each of them is in its place there, the line above it taken as it is once it is centered itself
(`keepsBorders_standard_iff`). The line between two banners stands between two borders too. It
always stays if neither border begins as the other one does; if one of them does, or both are the
same, it may be taken for a title (`between_stays_iff`). -/

namespace Recenter.Banner.Region

open Recenter.Text

variable {borders : Borders} {lines : List Line} {line top middle bottom : Line} {i j : Nat}

/-! ## Border lines -/

def IsBorder (borders : Borders) (line : Line) : Prop :=
  borders.top <+: line ∨ borders.bottom <+: line

/-- The pass leaves line `j` alone if it is a border. -/
def KeepsBorderAt (borders : Borders) (lines : List Line) (j : Nat) : Prop :=
  ∀ line, lines[j]? = some line → ¬ IsInner borders line →
    (centerLines borders lines).lines[j]? = some line

/-- Every border line between two others is wider than the upper one or in the middle of its width.
The line above it is taken as it is once it is centered between its own neighbours. -/
def BordersInPlace (borders : Borders) (lines : List Line) : Prop :=
  ∀ (j : Nat) (top middle bottom : Line), (atOnce borders lines)[j]? = some top →
    lines[j + 1]? = some middle → lines[j + 2]? = some bottom → ¬ IsInner borders middle →
      IsCentered borders top middle bottom

/-- Tight borders do not reach into the end of a line. -/
theorem not_isInner_iff_isBorder (htop : Tight borders.top) (hbottom : Tight borders.bottom) :
    ¬ IsInner borders line ↔ IsBorder borders line := by
  rw [IsBorder, IsInner, htop.isPrefix_splitEol_fst_iff, hbottom.isPrefix_splitEol_fst_iff,
    ← not_or, not_not]

theorem getElem?_centerLines_of_no_bottom (hbelow : lines[j + 1]? = some bottom)
    (h : ¬ borders.bottom <+: (splitEol bottom).1) :
    (centerLines borders lines).lines[j]? = lines[j]? := by
  cases j with
  | zero => exact getElem?_centerLines_zero borders lines
  | succ j =>
    have hid : revised borders (centerLines borders lines).lines[j]? (some bottom) = id := by
      refine revised_eq_id fun top bottom _ hb hc => ?_
      cases hb
      exact h (isCandidate_iff.1 hc).2
    rw [getElem?_centerLines_succ, hbelow, hid, Option.map_id_fun, id]

/-- As far as the pass leaves borders alone it does what centering all titles at once does. Where
the line above has changed it was no border, and the line below it is a lower one that has been left
alone; and centering all at once leaves that one alone too, as there is no border above it. -/
theorem getElem?_centerLines_eq_atOnce (h : ∀ i ≤ j, KeepsBorderAt borders lines i) :
    (centerLines borders lines).lines[j]? = (atOnce borders lines)[j]? := by
  cases j with
  | zero => rw [getElem?_centerLines_zero, getElem?_atOnce_zero]
  | succ j =>
    cases hm : lines[j + 1]? with
    | none => rw [getElem?_centerLines_succ, getElem?_atOnce_succ, hm, Option.map_none,
        Option.map_none]
    | some middle =>
      by_cases hb : borders.bottom <+: (splitEol middle).1
      · by_cases ht : ∃ top, lines[j]? = some top ∧ borders.top <+: (splitEol top).1
        · obtain ⟨top, htop, hborder⟩ := ht
          have hkept := h j (Nat.le_succ j) top htop fun hi => hi.1 hborder
          rw [getElem?_centerLines_succ, getElem?_atOnce_succ, hkept, htop]
        · have hid : revised borders lines[j]? lines[j + 2]? = id :=
            revised_eq_id fun top _ htop _ hc => ht ⟨top, htop, (isCandidate_iff.1 hc).1⟩
          rw [h (j + 1) (Nat.le_refl _) middle hm fun hi => hi.2 hb, getElem?_atOnce_succ, hid, hm,
            Option.map_some, id]
      · rw [getElem?_centerLines_succ, getElem?_atOnce_succ,
          getElem?_centerLines_of_no_bottom hm hb]

theorem BordersInPlace.keepsBorderAt (h : BordersInPlace borders lines) (j : Nat) :
    KeepsBorderAt borders lines j := by
  -- By the index of the line: up to it the pass has left borders alone.
  induction j using Nat.strong_induction_on with
  | h j ih =>
    intro middle hmiddle hborder
    cases j with
    | zero => rw [getElem?_centerLines_zero, hmiddle]
    | succ j =>
      have habove := getElem?_centerLines_eq_atOnce fun i hi => ih i (Nat.lt_succ_of_le hi)
      rw [getElem?_centerLines_succ, hmiddle, Option.map_some, habove, Option.some.injEq]
      by_contra hne
      rcases revised_cases borders (atOnce borders lines)[j]? lines[j + 2]? middle with he |
        ⟨top, bottom, htop, hbottom, -⟩
      · exact hne he
      · rw [htop, hbottom] at hne
        exact hne (revised_eq_self_iff.2 (h j top middle bottom htop hmiddle hbottom hborder))

theorem bordersInPlace_of_keepsBorderAt (h : ∀ j, KeepsBorderAt borders lines j) :
    BordersInPlace borders lines := by
  intro j top middle bottom htop hmiddle hbottom hborder
  have hkept := h (j + 1) middle hmiddle hborder
  rw [getElem?_centerLines_succ, getElem?_centerLines_eq_atOnce fun i _ => h i, htop, hmiddle,
    hbottom, Option.map_some, Option.some.injEq] at hkept
  exact revised_eq_self_iff.1 hkept

/-- The pass leaves all border lines alone exactly if they are in their places. -/
theorem keepsBorders_iff : (∀ j, KeepsBorderAt borders lines j) ↔ BordersInPlace borders lines :=
  ⟨bordersInPlace_of_keepsBorderAt, BordersInPlace.keepsBorderAt⟩

theorem tight_standard : Tight Borders.standard.top ∧ Tight Borders.standard.bottom := by
  have hslash : isBlank '/' = false := by decide
  have hstar : isBlank '*' = false := by decide
  refine ⟨⟨?_, ?_⟩, ?_, ?_⟩ <;> intro c hc <;> cases hc <;> assumption

/-- With the standard borders the pass leaves every line that begins as one alone exactly if no such
line between two others is out of its place. -/
theorem keepsBorders_standard_iff (lines : List Line) :
    (∀ (j : Nat) (line : Line), lines[j]? = some line → IsBorder .standard line →
      (centerLines .standard lines).lines[j]? = some line) ↔ BordersInPlace .standard lines := by
  rw [← keepsBorders_iff]
  simp only [KeepsBorderAt, not_isInner_iff_isBorder tight_standard.1 tight_standard.2]

/-- An upper border that is followed by another one, two columns less wide, and by a lower one. -/
def repeated : List Line :=
  let borders := Borders.standard
  [borders.top ++ "==".toList, borders.top, borders.bottom]

/-- The second of the two is taken for a title. -/
theorem centerLines_repeated :
    let borders := Borders.standard
    IsBorder borders borders.top ∧ repeated[1]? = some borders.top ∧
      centerLines borders repeated =
        ⟨[borders.top ++ "==".toList, ' ' :: borders.top ++ [' '], borders.bottom], true⟩ ∧
      (centerLines borders repeated).lines[1]? ≠ some borders.top :=
  ⟨.inl (List.prefix_refl _), rfl, by decide +kernel, by decide +kernel⟩

/-! ## Lines between two banners -/

/-- Lines `i` to `i + 2` are a candidate banner and lines `i + 4` to `i + 6` another one, and the
line between them begins as no border. -/
structure Between (borders : Borders) (lines : List Line) (i : Nat) (closing line opening : Line) :
    Prop where
  first : IsTriple borders lines i
  second : IsTriple borders lines (i + 4)
  above : lines[i + 2]? = some closing
  between : lines[i + 3]? = some line
  below : lines[i + 4]? = some opening
  not_isBorder : ¬ IsBorder borders line

namespace Between

variable {closing opening : Line} (h : Between borders lines i closing line opening)
include h

/-- The closing border stays, as there is no lower border below it. -/
theorem stays_iff :
    (centerLines borders lines).lines[i + 3]? = some line ↔
      IsCentered borders closing line opening := by
  have hbottom : ¬ borders.bottom <+: (splitEol line).1 := by
    intro hp
    have hline := hp.trans (List.prefix_append _ (splitEol line).2)
    rw [splitEol_append] at hline
    exact h.not_isBorder (.inr hline)
  rw [getElem?_centerLines_succ, getElem?_centerLines_of_no_bottom h.between hbottom, h.between,
    h.above, h.below, Option.map_some, Option.some.injEq, revised_eq_self_iff]

/-- A closing border that is an upper border too begins as both do. -/
theorem stays (htop : ¬ borders.top <+: borders.bottom)
    (hbottom : ¬ borders.bottom <+: borders.top) :
    (centerLines borders lines).lines[i + 3]? = some line := by
  refine h.stays_iff.2 fun hc => ?_
  obtain ⟨_, closing', -, hclosing, hfirst⟩ := h.first
  rw [h.above] at hclosing
  cases hclosing
  rcases List.prefix_or_prefix_of_prefix (isCandidate_iff.1 hc).1 (isCandidate_iff.1 hfirst).2
    with hp | hp
  · exact absurd hp htop
  · exact absurd hp hbottom

end Between

/-- Two banners with one line between them. All of their borders are one rule. -/
def ruled (rule line : Line) : List Line := [rule, line, rule, line, rule, line, rule]

theorem between_ruled {rule : Line} (hc : isCandidate borders rule rule = true)
    (hline : ¬ IsBorder borders line) : Between borders (ruled rule line) 0 rule line rule :=
  ⟨⟨rule, rule, rfl, rfl, hc⟩, ⟨rule, rule, rfl, rfl, hc⟩, rfl, rfl, rfl, hline⟩

theorem not_isCentered_singleton {c : Char} (hblank : isBlank c = false)
    (hwidth : 1 < (splitEol top).1.length) (hc : isCandidate borders top bottom = true) :
    ¬ IsCentered borders top [c] bottom := by
  intro hcentered
  have htight : Tight [c] := ⟨by simpa using hblank, by simpa using hblank⟩
  have hbody : (splitEol [c]).1 = [c] := by
    have hcr : c ≠ '\r' := by
      rintro rfl
      exact absurd hblank (by decide)
    simp [splitEol, hcr]
  have hpad := hcentered hc
  rw [hbody, htight.trim_eq] at hpad
  have hlength := congrArg List.length (hpad (by simp) hwidth.le)
  rw [length_pad hwidth.le, List.length_singleton] at hlength
  omega

/-- What a text begins with does not begin a single character that is not the text's first. -/
theorem not_prefix_singleton {s rest : List Char} {c d : Char} (hs : s <+: d :: rest) (hne : s ≠ [])
    (hcd : c ≠ d) : ¬ s <+: [c] := by
  obtain ⟨e, s, rfl⟩ := List.exists_cons_of_ne_nil hne
  intro hp
  exact hcd ((List.cons_prefix_cons.1 hp).1.symm.trans (List.cons_prefix_cons.1 hs).1)

/-- Where a rule may begin as both borders do, a letter between two banners is moved. -/
theorem exists_between_moved {both : List Char} (htop : borders.top ≠ [])
    (hbottom : borders.bottom ≠ []) (ht : borders.top <+: both) (hb : borders.bottom <+: both) :
    ∃ lines i closing line opening, Between borders lines i closing line opening ∧
      (centerLines borders lines).lines[i + 3]? ≠ some line := by
  obtain ⟨d, rest, rfl⟩ : ∃ d rest, both = d :: rest :=
    List.exists_cons_of_ne_nil fun hn => htop (List.prefix_nil.1 (hn ▸ ht))
  obtain ⟨c, hcd, hblank⟩ : ∃ c, c ≠ d ∧ isBlank c = false := by
    by_cases hd : d = 'x'
    · exact ⟨'y', by rw [hd]; decide, by decide⟩
    · exact ⟨'x', Ne.symm hd, by decide⟩
  let rule : Line := d :: rest ++ ['=']
  have hrule : (splitEol rule).1 = rule := by
    have hlast : rule.getLast? = some '=' := List.getLast?_concat
    simp [splitEol, hlast]
  have hcandidate : isCandidate borders rule rule = true := by
    rw [isCandidate_iff, hrule]
    exact ⟨ht.trans (List.prefix_append _ _), hb.trans (List.prefix_append _ _)⟩
  have hletter : ¬ IsBorder borders [c] := fun hi =>
    hi.elim (not_prefix_singleton ht htop hcd) (not_prefix_singleton hb hbottom hcd)
  have hbetween := between_ruled hcandidate hletter
  refine ⟨_, _, _, _, _, hbetween, fun hstays => ?_⟩
  refine not_isCentered_singleton hblank ?_ hcandidate (hbetween.stays_iff.1 hstays)
  rw [hrule]
  simp [rule]

/-- The line between two banners stays exactly if it is blank, wider than the rule above it or in
the middle of that, where that rule is an upper border as well and the rule below it a lower one. In
all texts it stays exactly if neither border begins as the other one does. -/
theorem between_stays_iff (borders : Borders) (htop : borders.top ≠ [])
    (hbottom : borders.bottom ≠ []) :
    (∀ lines i closing line opening, Between borders lines i closing line opening →
      ((centerLines borders lines).lines[i + 3]? = some line ↔
        IsCentered borders closing line opening)) ∧
    ((∀ lines i closing line opening, Between borders lines i closing line opening →
      (centerLines borders lines).lines[i + 3]? = some line) ↔
        ¬ borders.top <+: borders.bottom ∧ ¬ borders.bottom <+: borders.top) := by
  refine ⟨fun _ _ _ _ _ h => h.stays_iff, fun hall => ?_,
    fun hne _ _ _ _ _ h => h.stays hne.1 hne.2⟩
  have hmoved : ∀ both, borders.top <+: both → ¬ borders.bottom <+: both := by
    intro both ht hb
    obtain ⟨lines, i, closing, line, opening, hbetween, hne⟩ :=
      exists_between_moved htop hbottom ht hb
    exact hne (hall lines i closing line opening hbetween)
  exact ⟨fun hp => hmoved _ hp (List.prefix_refl _), hmoved _ (List.prefix_refl _)⟩

/-- The standard borders are unlike each other. Of two literals of hashes the longer one begins as
the shorter one does, and then the line stays if the border below it is shorter than a lower
one. -/
theorem between_stays_iff_standard :
    Borders.standard.top ≠ [] ∧ Borders.standard.bottom ≠ [] ∧
      (∀ lines i closing line opening, Between .standard lines i closing line opening →
        (centerLines .standard lines).lines[i + 3]? = some line) ∧
      let borders : Borders := ⟨['#'], ['#', '#']⟩
      let lines := ["#=".toList, "a".toList, "###".toList, "x".toList, "#=".toList, "b".toList,
        "##".toList]
      borders.top ≠ [] ∧ borders.bottom ≠ [] ∧
        Between borders lines 0 "###".toList "x".toList "#=".toList ∧
        (centerLines borders lines).lines[3]? = some "x".toList ∧
        ¬ ∀ lines i closing line opening, Between borders lines i closing line opening →
          (centerLines borders lines).lines[i + 3]? = some line := by
  have htop : Borders.standard.top ≠ [] := nofun
  have hbottom : Borders.standard.bottom ≠ [] := by decide
  refine ⟨htop, hbottom, (between_stays_iff .standard htop hbottom).2.2 (by decide), ?_⟩
  intro borders lines
  have hbetween : Between borders lines 0 "###".toList "x".toList "#=".toList :=
    ⟨⟨_, _, rfl, rfl, by decide⟩, ⟨_, _, rfl, rfl, by decide⟩, rfl, rfl, rfl, by
      unfold IsBorder
      decide⟩
  obtain ⟨hstays, hall⟩ := between_stays_iff borders (List.cons_ne_nil _ _) (List.cons_ne_nil _ _)
  refine ⟨nofun, nofun, hbetween, (hstays _ _ _ _ _ hbetween).2 fun hc => absurd hc (by decide), ?_⟩
  intro h
  exact (hall.1 h).1 ⟨['#'], rfl⟩

/-- Equal borders, as of a language whose comments go to the end of the line. -/
def hashes : Borders := ⟨List.replicate 79 '#', List.replicate 79 '#'⟩

/-- A line between two banners whose titles are in their places. -/
def betweenHashes : List Line :=
  [hashes.bottom, pad 79 ['A'], hashes.bottom, "x = 1".toList, hashes.top, pad 79 ['B'], hashes.top]

theorem centerLines_betweenHashes :
    Between hashes betweenHashes 0 hashes.bottom "x = 1".toList hashes.top ∧
      centerLines hashes betweenHashes =
        ⟨[hashes.bottom, pad 79 ['A'], hashes.bottom, pad 79 "x = 1".toList, hashes.top,
          pad 79 ['B'], hashes.top], true⟩ ∧
      pad 79 "x = 1".toList ≠ "x = 1".toList := by
  refine ⟨⟨⟨_, _, rfl, rfl, by decide⟩, ⟨_, _, rfl, rfl, by decide⟩, rfl, rfl, rfl, ?_⟩,
    by decide +kernel, by decide +kernel⟩
  unfold IsBorder
  decide

end Recenter.Banner.Region
