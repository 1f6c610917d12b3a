import Recenter.Proofs.Passes.Round

/-! What both passes leave as it is. The region pass puts other blanks around a title, and the
section pass parts the dashes of a banner anew and puts one space on each side of its title. So a
line keeps all characters that are neither blanks nor dashes, in their order, the number of its
dashes, and the carriage return at its end, and no character is new to it save the space
(`exists_respaced_round`). -/

namespace Recenter.Banner

open Recenter.Text

variable {s s' s'' t t' : List Char} {line : Line} {lines : List Line}

/-- What is left of a text without its blanks and its dashes. -/
def letters (s : List Char) : List Char := s.filter fun c => !isBlank c && !Section.isDash c

/-- The second text has the letters of the first one and as many dashes; of its characters only
the space may be new. -/
structure Respaced (s s' : List Char) : Prop where
  letters_eq : letters s' = letters s
  count_eq : s'.count '-' = s.count '-'
  mem : ∀ c ∈ s', c ∈ s ∨ c = ' '

namespace Respaced

theorem refl (s : List Char) : Respaced s s := ⟨rfl, rfl, fun _ => .inl⟩

theorem trans (h : Respaced s s') (h' : Respaced s' s'') : Respaced s s'' where
  letters_eq := h'.letters_eq.trans h.letters_eq
  count_eq := h'.count_eq.trans h.count_eq
  mem c hc := (h'.mem c hc).elim (h.mem c) .inr

theorem append (h : Respaced s s') (h' : Respaced t t') : Respaced (s ++ t) (s' ++ t') where
  letters_eq := by
    rw [letters, letters, List.filter_append, List.filter_append]
    exact congrArg₂ (· ++ ·) h.letters_eq h'.letters_eq
  count_eq := by rw [List.count_append, List.count_append, h.count_eq, h'.count_eq]
  mem c hc := by
    simp only [List.mem_append] at hc ⊢
    rcases hc with hc | hc
    · exact (h.mem c hc).imp_left .inl
    · exact (h'.mem c hc).imp_left .inr

end Respaced

theorem Blank.letters_eq (h : Blank s) : letters s = [] := by
  rw [letters, List.filter_eq_nil_iff]
  intro c hc
  simp [h c hc]

theorem Blank.count_eq (h : Blank s) : s.count '-' = 0 := by
  rw [List.count_eq_zero]
  intro hm
  simpa [Section.isBlank_dash] using h '-' hm

theorem respaced_spaces (h : Blank s) (n : Nat) : Respaced s (List.replicate n ' ') where
  letters_eq := by rw [Blank.letters_eq h, Blank.letters_eq (blank_replicate n)]
  count_eq := by rw [Blank.count_eq h, Blank.count_eq (blank_replicate n)]
  mem _ hc := .inr (List.eq_of_mem_replicate hc)

/-! ## Titles of region banners -/

namespace Region

theorem respaced_pad {body : Line} (h : trim body ≠ []) (width : Nat) :
    Respaced body (pad width (trim body)) := by
  have hleading : Blank (body.takeWhile isBlank) := fun c => List.mem_takeWhile_imp
  have htrailing : Blank (trailingBlanks body) := fun c => List.mem_rtakeWhile_imp
  conv => lhs; rw [eq_append_trim h]
  exact ((respaced_spaces hleading _).append (.refl _)).append (respaced_spaces htrailing _)

theorem respaced_revised (borders : Borders) (above below : Option Line) (line : Line) :
    Respaced line (revised borders above below line) := by
  rcases revised_cases borders above below line with he | ⟨_, _, -, -, -, hne, -, he⟩
  · rw [he]
    exact .refl line
  · rw [he]
    conv => lhs; rw [← splitEol_append line]
    exact (respaced_pad hne _).append (.refl _)

end Region

/-! ## Section banners -/

namespace Section

theorem Dashes.letters_eq (h : Dashes s) : letters s = [] := by
  rw [letters, List.filter_eq_nil_iff]
  intro c hc
  simp [h c hc]

theorem Dashes.count_eq (h : Dashes s) : s.count '-' = s.length := by
  rw [List.count_eq_length]
  intro c hc
  exact (isDash_iff.1 (h c hc)).symm

/-- Dashes on both sides of a title are parted anew, with blanks for the blanks between them. -/
theorem respaced_balance {left before title after right : List Char} (hl : Dashes left)
    (hb : Blank before) (ha : Blank after) (hr : Dashes right) :
    Respaced (left ++ before ++ title ++ after ++ right)
      (balance (left.length + right.length) title) := by
  have hcount : (balance (left.length + right.length) title).count '-' =
      (left ++ before ++ title ++ after ++ right).count '-' := by
    have hspace : [' '].count '-' = 0 := rfl
    simp only [balance, List.count_append, hl.count_eq, Blank.count_eq hb, Blank.count_eq ha,
      hr.count_eq, hspace, List.count_replicate_self]
    omega
  refine ⟨?_, hcount, ?_⟩
  · have hspace : letters [' '] = [] := Blank.letters_eq (blank_replicate 1)
    have hdashes : ∀ n, letters (List.replicate n '-') = [] := fun n =>
      (dashes_replicate n).letters_eq
    have happend : ∀ s t, letters (s ++ t) = letters s ++ letters t := fun s t =>
      List.filter_append s t
    simp only [balance, happend, hl.letters_eq, Blank.letters_eq hb, Blank.letters_eq ha,
      hr.letters_eq, hspace, hdashes]
  · intro c hc
    by_cases hdash : c = '-'
    · -- There is a dash to put in its place only if there was one before.
      rw [hdash, ← List.count_pos_iff, hcount] at hc
      exact .inl (hdash ▸ List.count_pos_iff.1 hc)
    · have hmem : c = ' ' ∨ c ∈ title := by
        simpa [balance, List.mem_replicate, hdash, or_comm, or_assoc] using hc
      rcases hmem with rfl | hm
      · exact .inr rfl
      · exact .inl (by simp [hm])

/-- Each shape keeps its letters and its dashes: a blank that is taken for a title is no letter. -/
theorem respaced_recast {inner : List Char} (h : Bounded inner) (hlf : '\n' ∉ inner) :
    Respaced inner (recast inner) := by
  cases shape_of_bounded h with
  | @titled left before title after right ht =>
    rw [recast_titled ht fun hm => hlf (by simp [hm])]
    split
    · exact .refl _
    · exact respaced_balance ht.dashes_left ht.blank_before ht.blank_after ht.dashes_right
  | @gap left gap right hl hl' hg hg' hr hr' =>
    rcases gap_cases hg' hr hr' with ⟨gap, c, rfl, rfl⟩ | ⟨right, rfl, hr', hne⟩
    · rw [recast_gap_one hl hl' hg (by rintro rfl; exact hlf (by simp))]
      have hgap : Blank gap := fun e he => hg e (by simp [he])
      have hparts : left ++ (gap ++ [c]) ++ ['-'] = left ++ gap ++ [c] ++ [] ++ ['-'] := by simp
      rw [hparts]
      exact respaced_balance hl hgap Blank.nil hr
    · rw [recast_gap_more hl hl' hg hg' hr' hne]
      exact .refl _
  | rule hs =>
    rw [recast_rule hs]
    exact .refl _

theorem respaced_centered (token : Token) {body : Line} (hlf : '\n' ∉ body) :
    Respaced body (centered token body) := by
  rcases centered_cases token body with ⟨opening, inner, closing, h, he⟩ | he
  · rw [he]
    conv => lhs; rw [h.eq]
    exact ((Respaced.refl _).append (respaced_recast h.bounded (h.not_mem hlf))).append (.refl _)
  · rw [he]
    exact .refl _

theorem respaced_recentered (token : Token) (hlf : '\n' ∉ line) :
    Respaced line (recentered token line) := by
  rw [recentered_eq]
  conv => lhs; rw [← splitEol_append line]
  exact (respaced_centered token (not_mem_splitEol_fst hlf)).append (.refl _)

end Section

/-! ## Both passes -/

/-- Each line that the pass leaves is one that it has found, respaced. -/
def Respaces (pass : List Line → Revision) : Prop :=
  ∀ {lines : List Line}, (∀ line ∈ lines, '\n' ∉ line) →
    ∀ line' ∈ (pass lines).lines, ∃ line ∈ lines, Respaced line line'

theorem respaces_region (borders : Region.Borders) : Respaces (Region.centerLines borders) := by
  intro lines _ line' hm
  obtain ⟨j, hj⟩ := List.getElem?_of_mem hm
  obtain ⟨above, below, hr⟩ := Region.getElem?_centerLines borders lines j
  rw [hr, Option.map_eq_some_iff] at hj
  obtain ⟨line, hline, rfl⟩ := hj
  exact ⟨line, List.mem_of_getElem? hline, Region.respaced_revised borders above below line⟩

theorem respaces_section (token : Section.Token) : Respaces (Section.centerLines token) := by
  intro lines hlf line' hm
  rw [Section.lines_centerLines] at hm
  obtain ⟨line, hline, rfl⟩ := List.mem_map.1 hm
  exact ⟨line, hline, Section.respaced_recentered token (hlf line hline)⟩

/-- Each line of a round has the letters, as many dashes, and the end of the line that it was. -/
theorem exists_respaced_round (borders : Region.Borders) (token : Section.Token) {j : Nat}
    (hlf : ∀ line ∈ lines, '\n' ∉ line) (h : lines[j]? = some line) :
    ∃ line', (round borders token lines)[j]? = some line' ∧ Respaced line line' ∧
      (splitEol line').2 = (splitEol line).2 := by
  obtain ⟨above, below, hr⟩ := Region.getElem?_centerLines borders lines j
  have hline : '\n' ∉ Region.revised borders above below line :=
    Region.not_mem_revised (hlf line (List.mem_of_getElem? h))
  refine ⟨_, ?_, (Region.respaced_revised borders above below line).trans
    (Section.respaced_recentered token hline), ?_⟩
  · rw [getElem?_round, hr, h]
    rfl
  · rw [Section.splitEol_recentered]
    exact Region.splitEol_revised_snd borders above below line

/-- A line of a round is the one that it was exactly if neither pass has changed it. -/
theorem getElem?_round_eq_iff {borders : Region.Borders} {token : Section.Token}
    (hlf : ∀ line ∈ lines, '\n' ∉ line) (j : Nat) :
    (round borders token lines)[j]? = lines[j]? ↔
      (Region.centerLines borders lines).lines[j]? = lines[j]? ∧
        (round borders token lines)[j]? = (Region.centerLines borders lines).lines[j]? := by
  constructor
  · intro h
    have hregion := getElem?_region_of_round hlf h
    exact ⟨hregion, h.trans hregion.symm⟩
  · intro hx
    obtain ⟨hregion, hsection⟩ := hx
    exact hsection.trans hregion

end Recenter.Banner
