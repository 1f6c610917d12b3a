import Recenter.Proofs.Passes.Round

/-! The two passes in either order. Where a line that opens a section banner begins as no border
does, the section pass leaves borders alone and makes none. Where the token has no outer blanks, the
region pass makes no section banner and breaks none, since it changes outer blanks only. So the
passes commute unless a title between two borders is a section banner (`centerLines_comm`). -/

namespace Recenter.Banner

open Recenter.Text

/-! ## Outer blanks around a section banner -/

namespace Section

variable {token : Token} {s t : List Char} {line opening inner closing : Line}

/-- A line that is framed in tight tokens is framed whatever the blanks outside of them. -/
theorem Framed.exists_of_trim_eq {token : List Char} (ht : Tight token) (hne : token ≠ [])
    (h : Framed token s opening inner closing) (he : trim t = trim s) :
    ∃ opening' closing', Framed token t opening' inner closing' := by
  obtain ⟨rfl, ⟨indent, gap, hi, hg, hg', rfl⟩, ⟨gap', trail, hb, hb', hr, rfl⟩, hinner⟩ := h
  have hcore : Tight (token ++ gap ++ inner ++ gap' ++ token) := by
    obtain ⟨c, rest, rfl⟩ := List.exists_cons_of_ne_nil hne
    refine ⟨ht.head, fun d hd => ht.last d ?_⟩
    rwa [List.getLast?_append_of_ne_nil _ hne] at hd
  have htrim : trim t = token ++ gap ++ inner ++ gap' ++ token := by
    calc trim t = trim (indent ++ (token ++ gap ++ inner ++ gap' ++ token) ++ trail) := by
          rw [he]
          simp only [List.append_assoc]
      _ = token ++ gap ++ inner ++ gap' ++ token := by
          rw [trim_append_of_blank hi hr, hcore.trim_eq]
  have heq : t = t.takeWhile isBlank ++ trim t ++ trailingBlanks t :=
    eq_append_trim (by simp [htrim, hne])
  refine ⟨t.takeWhile isBlank ++ token ++ gap, gap' ++ token ++ trailingBlanks t, ?_,
    ⟨_, gap, fun _ => List.mem_takeWhile_imp, hg, hg', rfl⟩,
    ⟨gap', _, hb, hb', fun _ => List.mem_rtakeWhile_imp, rfl⟩, hinner⟩
  rw [htrim] at heq
  simpa only [List.append_assoc] using heq

/-- Whether a line is a section banner does not depend on its outer blanks. -/
theorem split?_eq_none_of_trim_eq (ht : Tight token.text) (he : trim t = trim s)
    (h : split? token s = none) : split? token t = none := by
  by_contra hsome
  obtain ⟨p, hp⟩ := Option.ne_none_iff_exists'.1 hsome
  obtain ⟨inner, hf, hi, htitle⟩ := split?_eq_some_iff.1 hp
  obtain ⟨opening, closing, hf'⟩ := hf.exists_of_trim_eq ht token.text_ne_nil he.symm
  have hs : split? token s = some ⟨opening, p.left, p.title, p.right, closing⟩ :=
    split?_eq_some_iff.2 ⟨inner, hf', hi, htitle⟩
  rw [h] at hs
  cases hs

theorem recentered_of_split?_eq_none (h : split? token (splitEol line).1 = none) :
    recentered token line = line := by
  rw [recentered_eq, centered, centerLine?, h]
  exact splitEol_append line

end Section

/-! ## Borders -/

variable {borders : Region.Borders} {token : Section.Token} {line : Line} {lines : List Line}

/-- No line in which the token comes behind blanks at most begins in this way. -/
def IsClear (border token : List Char) : Prop :=
  ∀ indent rest, Blank indent → ¬ border <+: indent ++ token ++ rest

theorem IsClear.not_isPrefix {border : List Char} (h : IsClear border token.text)
    {opening s : List Char} (ho : Section.IsOpening token.text opening) :
    ¬ border <+: opening ++ s := by
  obtain ⟨indent, gap, hi, -, -, rfl⟩ := ho
  rw [List.append_assoc]
  exact h indent (gap ++ s) hi

theorem IsClear.split?_eq_none {border : List Char} (h : IsClear border token.text) {body : Line}
    (hb : border <+: body) : Section.split? token body = none := by
  by_contra hsome
  obtain ⟨p, hp⟩ := Option.ne_none_iff_exists'.1 hsome
  obtain ⟨inner, hf, -, -⟩ := Section.split?_eq_some_iff.1 hp
  rw [hf.eq, List.append_assoc] at hb
  exact h.not_isPrefix hf.opening hb

/-- The section pass makes no border, and breaks none. -/
theorem IsClear.isPrefixOf_recentered {border : List Char} (h : IsClear border token.text)
    (line : Line) : border.isPrefixOf (splitEol (Section.recentered token line)).1 =
      border.isPrefixOf (splitEol line).1 := by
  rw [Section.splitEol_recentered]
  rcases Section.centered_cases token (splitEol line).1 with ⟨opening, inner, closing, hf, he⟩ | he
  · have hnew : ¬ border <+: opening ++ Section.recast inner ++ closing := by
      rw [List.append_assoc]
      exact h.not_isPrefix hf.opening
    have hold : ¬ border <+: opening ++ inner ++ closing := by
      rw [List.append_assoc]
      exact h.not_isPrefix hf.opening
    rw [he, hf.eq, Bool.eq_iff_iff, List.isPrefixOf_iff_prefix, List.isPrefixOf_iff_prefix]
    exact iff_of_false hnew hold
  · rw [he]

/-- Borders and a token that cannot be taken for each other. -/
structure Unmistakable (borders : Region.Borders) (token : Section.Token) : Prop where
  tight : Tight token.text
  top : IsClear borders.top token.text
  bottom : IsClear borders.bottom token.text

/-- No title between two border lines is a section banner. -/
def NoBannerTitle (borders : Region.Borders) (token : Section.Token) (lines : List Line) : Prop :=
  ∀ j top middle bottom, lines[j]? = some top → lines[j + 1]? = some middle →
    lines[j + 2]? = some bottom → Region.isCandidate borders top bottom = true →
      Section.split? token (splitEol middle).1 = none

namespace Unmistakable

variable (hu : Unmistakable borders token)
include hu

theorem isCandidate_recentered (top bottom : Line) :
    Region.isCandidate borders (Section.recentered token top) (Section.recentered token bottom) =
      Region.isCandidate borders top bottom := by
  rw [Region.isCandidate, hu.top.isPrefixOf_recentered, hu.bottom.isPrefixOf_recentered,
    Region.isCandidate]

/-- The section pass leaves both borders of a region banner alone. -/
theorem recentered_of_isCandidate {top bottom : Line}
    (h : Region.isCandidate borders top bottom = true) :
    Section.recentered token top = top ∧ Section.recentered token bottom = bottom := by
  rw [Region.isCandidate_iff] at h
  exact ⟨Section.recentered_of_split?_eq_none (hu.top.split?_eq_none h.1),
    Section.recentered_of_split?_eq_none (hu.bottom.split?_eq_none h.2)⟩

/-- One line between two others, revised and recentered in either order. -/
theorem revised_recentered {top middle bottom : Line}
    (h : Region.isCandidate borders top bottom = true →
      Section.split? token (splitEol middle).1 = none) :
    Region.revised borders (some (Section.recentered token top))
        (some (Section.recentered token bottom)) (Section.recentered token middle) =
      Section.recentered token (Region.revised borders (some top) (some bottom) middle) := by
  by_cases hc : Region.isCandidate borders top bottom = true
  · obtain ⟨htop, hbottom⟩ := hu.recentered_of_isCandidate hc
    have hrevised : Section.split? token
        (splitEol (Region.revised borders (some top) (some bottom) middle)).1 = none :=
      Section.split?_eq_none_of_trim_eq hu.tight (Region.trim_revised ..) (h hc)
    rw [htop, hbottom, Section.recentered_of_split?_eq_none (h hc),
      Section.recentered_of_split?_eq_none hrevised]
  · have hc' := hc
    rw [← hu.isCandidate_recentered] at hc'
    simp [Region.revised, Region.recenter?, hc, hc']

/-- A title that the region pass meets is no section banner: its upper border was there before, or
it was a title itself, and then this one is a lower border. -/
theorem split?_middle (h : NoBannerTitle borders token lines) {j : Nat} {top middle bottom : Line}
    (htop : (Region.centerLines borders lines).lines[j]? = some top)
    (hmiddle : lines[j + 1]? = some middle) (hbottom : lines[j + 2]? = some bottom)
    (hc : Region.isCandidate borders top bottom = true) :
    Section.split? token (splitEol middle).1 = none := by
  cases j with
  | zero =>
    rw [Region.getElem?_centerLines_zero] at htop
    exact h 0 top middle bottom htop hmiddle hbottom hc
  | succ j =>
    rw [Region.getElem?_centerLines_succ] at htop
    obtain ⟨line, hline, rfl⟩ := Option.map_eq_some_iff.1 htop
    rcases Region.revised_cases borders (Region.centerLines borders lines).lines[j]?
      lines[j + 2]? line with he | ⟨above, below, -, hbelow, hc', -⟩
    · rw [he] at hc
      exact h (j + 1) line middle bottom hline hmiddle hbottom hc
    · obtain rfl : middle = below := Option.some.inj (hmiddle.symm.trans hbelow)
      rw [Region.isCandidate_iff] at hc'
      exact hu.bottom.split?_eq_none hc'.2

theorem getElem?_region_section (h : NoBannerTitle borders token lines) (j : Nat) :
    (Region.centerLines borders (Section.centerLines token lines).lines).lines[j]? =
      (Region.centerLines borders lines).lines[j]?.map (Section.recentered token) := by
  rw [Section.lines_centerLines]
  -- By the index of the line: what the region pass makes of it depends on the line above as that
  -- pass left it.
  induction j with
  | zero =>
    rw [Region.getElem?_centerLines_zero, Region.getElem?_centerLines_zero, List.getElem?_map]
  | succ j ih =>
    rw [Region.getElem?_centerLines_succ, Region.getElem?_centerLines_succ, ih,
      List.getElem?_map, List.getElem?_map]
    cases hmiddle : lines[j + 1]? with
    | none => rfl
    | some middle =>
      cases htop : (Region.centerLines borders lines).lines[j]? with
      | none => rfl
      | some top =>
        cases hbottom : lines[j + 2]? with
        | none => rfl
        | some bottom =>
          exact congrArg some (hu.revised_recentered (hu.split?_middle h htop hmiddle hbottom))

/-- The passes commute. -/
theorem centerLines_comm (h : NoBannerTitle borders token lines) :
    (Section.centerLines token (Region.centerLines borders lines).lines).lines =
      (Region.centerLines borders (Section.centerLines token lines).lines).lines := by
  apply List.ext_getElem?
  intro j
  rw [hu.getElem?_region_section h, Section.lines_centerLines, List.getElem?_map]

end Unmistakable

/-! ## The standard borders and two slashes -/

/-- Behind leading blanks there is no border that does not begin with one. -/
theorem isClear_of_head {border token : List Char} {c : Char} (hc : border.head? = some c)
    (hb : isBlank c = false) (h : ∀ rest, ¬ border <+: token ++ rest) : IsClear border token := by
  intro indent rest hi hp
  cases indent with
  | nil => exact h rest hp
  | cons d indent =>
    obtain ⟨tail, rfl⟩ := List.head?_eq_some_iff.1 hc
    obtain rfl : c = d := (List.cons_prefix_cons.1 hp).1
    have hd := hi c (by simp)
    rw [hb] at hd
    cases hd

theorem unmistakable_standard : Unmistakable .standard .slashes where
  tight := tight_trim ['/', '/']
  top := isClear_of_head rfl (by decide) fun rest hp => by
    simp [Region.Borders.standard, List.replicate_succ, Section.Token.slashes] at hp
  bottom := isClear_of_head rfl (by decide) fun rest hp => by
    simp [Region.Borders.standard, List.replicate_succ, Section.Token.slashes] at hp

/-- With the standard borders and two slashes for the token, the passes are independent: in either
order they make the same of all lines in which no title between two borders is a section banner. -/
theorem section_region_comm (lines : List Line) (h : NoBannerTitle .standard .slashes lines) :
    (Section.centerLines .slashes (Region.centerLines .standard lines).lines).lines =
      (Region.centerLines .standard (Section.centerLines .slashes lines).lines).lines :=
  unmistakable_standard.centerLines_comm h

/-- A border one column off is a title, and then the upper border of a lower one. -/
def crossing : List Line :=
  let borders := Region.Borders.standard
  [borders.top, ' ' :: borders.top, borders.bottom ++ [' '], borders.bottom,
    "// - d --- //".toList]

theorem section_region_comm_crossing :
    let borders := Region.Borders.standard
    NoBannerTitle .standard .slashes crossing ∧
      (Section.centerLines .slashes (Region.centerLines .standard crossing).lines).lines =
        (Region.centerLines .standard (Section.centerLines .slashes crossing).lines).lines ∧
      (Region.centerLines .standard (Section.centerLines .slashes crossing).lines).lines =
        [borders.top, borders.top, borders.bottom, borders.bottom, "// -- d -- //".toList] := by
  have h : NoBannerTitle .standard .slashes crossing := by
    have hbanners : ∀ line ∈ crossing.take 4,
        Section.split? .slashes (splitEol line).1 = none := by decide +kernel
    intro j top middle bottom _ hmiddle hbottom _
    refine hbanners middle (List.mem_of_getElem? (i := j + 1) ?_)
    have hj : j + 2 < 5 := (List.getElem?_eq_some_iff.1 hbottom).1
    rw [List.getElem?_take_of_lt (by omega), hmiddle]
  exact ⟨h, section_region_comm crossing h, by decide +kernel⟩

end Recenter.Banner
