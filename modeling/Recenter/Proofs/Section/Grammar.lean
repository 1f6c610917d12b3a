import Recenter.Proofs.Section.Pattern

/-! The grammar of a section banner. A line whose title has a character that is neither blank nor a
dash is taken apart exactly as the grammar builds it, the grammar builds it in one way at most, and
that is the reading which the pattern finds first (`split?_eq_some_iff_reading`). -/

namespace Recenter.Banner.Section

open Recenter.Text

/-- The seven pieces of a banner. -/
structure Reading where
  opening : List Char
  left : List Char
  before : List Char
  title : List Char
  after : List Char
  right : List Char
  closing : List Char

def Reading.text (r : Reading) : Line :=
  r.opening ++ r.left ++ r.before ++ r.title ++ r.after ++ r.right ++ r.closing

/-- The pieces without the blanks around the title. -/
def Reading.parts (r : Reading) : Parts := ⟨r.opening, r.left, r.title, r.right, r.closing⟩

/-- A character that is neither blank nor a dash. -/
def HasWord (title : List Char) : Prop := ∃ c ∈ title, isBlank c = false ∧ isDash c = false

/-- The pieces of a banner: blanks, token and blanks, a run of dashes, a title between blanks, a run
of dashes, and blanks, token and blanks. -/
structure IsBanner (token : List Char) (r : Reading) : Prop where
  opening : IsOpening token r.opening
  titled : IsTitled r.left r.before r.title r.after r.right
  closing : IsClosing token r.closing
  word : HasWord r.title

/-- The pieces that a line is divided into around a title of any kind but dashes alone. -/
structure IsDivision (token : List Char) (r : Reading) : Prop where
  opening : IsOpening token r.opening
  titled : IsTitled r.left r.before r.title r.after r.right
  closing : IsClosing token r.closing
  all_isDash : r.title.all isDash = false

variable {token : Token} {line : Line} {p : Parts} {r r' : Reading}

theorem HasWord.all_isDash {title : List Char} (h : HasWord title) : title.all isDash = false := by
  obtain ⟨c, hm, -, hd⟩ := h
  exact List.all_eq_false.2 ⟨c, hm, by simp [hd]⟩

theorem IsBanner.division (h : IsBanner token.text r) : IsDivision token.text r :=
  ⟨h.opening, h.titled, h.closing, h.word.all_isDash⟩

theorem IsDivision.framed (h : IsDivision token.text r) :
    Framed token.text r.text r.opening (r.left ++ r.before ++ r.title ++ r.after ++ r.right)
      r.closing :=
  ⟨by simp [Reading.text], h.opening, h.closing, h.titled.bounded⟩

theorem not_mem_title (hlf : '\n' ∉ r.text) : '\n' ∉ r.title := by
  intro hm
  exact hlf (by simp [Reading.text, hm])

theorem IsDivision.split?_eq (h : IsDivision token.text r) (hlf : '\n' ∉ r.text) :
    split? token r.text = some r.parts :=
  split?_eq_some_iff.2 ⟨_, h.framed, inner?_titled h.titled (not_mem_title hlf), h.all_isDash⟩

theorem IsBanner.split?_eq (h : IsBanner token.text r) (hlf : '\n' ∉ r.text) :
    split? token r.text = some r.parts := h.division.split?_eq hlf

/-- A line that is taken apart around a title that is not blank has one: in a gap a blank is found,
and in front of more than one dash and in a rule only dashes are. -/
theorem exists_division (h : split? token line = some p) (hw : ¬ Blank p.title)
    (hlf : '\n' ∉ line) : ∃ r, IsDivision token.text r ∧ r.text = line ∧ r.parts = p := by
  obtain ⟨inner, hf, hi, hd⟩ := split?_eq_some_iff.1 h
  have hin := hf.not_mem hlf
  obtain ⟨opening, left', title', right', closing⟩ := p
  cases shape_of_bounded hf.bounded with
  | @titled left before title after right ht =>
    have htlf : '\n' ∉ title := fun hm => hin (by simp [hm])
    rw [inner?_titled ht htlf] at hi
    obtain ⟨rfl, rfl, rfl⟩ : left = left' ∧ title = title' ∧ right = right' := by simpa using hi
    exact ⟨⟨opening, left, before, title, after, right, closing⟩, ⟨hf.opening, ht, hf.closing, hd⟩,
      by simp [Reading.text, hf.eq], rfl⟩
  | @gap left gap right hl hl' hg hg' hr hr' =>
    exfalso
    rcases gap_cases hg' hr hr' with ⟨gap, c, rfl, rfl⟩ | ⟨right, rfl, hr, hr'⟩
    · have hclf : c ≠ '\n' := by
        rintro rfl
        exact hin (by simp)
      rw [inner?_gap_one hl hl' hg hclf] at hi
      cases hi
      refine hw fun d hm => ?_
      rw [List.mem_singleton.1 hm]
      exact hg c (by simp)
    · rw [inner?_gap_more hl hl' hg hg' hr hr'] at hi
      cases hi
      cases hd
  | rule hs =>
    rw [List.all_eq_true.2 fun c hc => hs c (mem_of_inner? hi c hc)] at hd
    cases hd

theorem exists_reading (h : split? token line = some p) (hw : HasWord p.title) (hlf : '\n' ∉ line) :
    ∃ r, IsBanner token.text r ∧ r.text = line ∧ r.parts = p := by
  have hblank : ¬ Blank p.title := by
    obtain ⟨c, hm, hb, -⟩ := hw
    intro hall
    simp [hall c hm] at hb
  obtain ⟨r, hr, hline, rfl⟩ := exists_division h hblank hlf
  exact ⟨r, ⟨hr.opening, hr.titled, hr.closing, hw⟩, hline, rfl⟩

/-- The grammar builds a line in one way at most. -/
theorem IsBanner.unique (h : IsBanner token.text r) (h' : IsBanner token.text r')
    (hlf : '\n' ∉ r.text) (he : r.text = r'.text) : r = r' := by
  have hf := h.division.framed
  rw [he] at hf
  obtain ⟨hopening, hinner, hclosing⟩ := hf.unique h'.division.framed
  have hread := inner?_titled h.titled (not_mem_title hlf)
  rw [hinner, inner?_titled h'.titled (not_mem_title (he ▸ hlf))] at hread
  obtain ⟨opening, left, before, title, after, right, closing⟩ := r
  obtain ⟨opening', left', before', title', after', right', closing'⟩ := r'
  cases hopening
  cases hclosing
  cases hread
  have htail : before ++ (title ++ (after ++ right)) = before' ++ (title ++ (after' ++ right)) := by
    simpa using hinner
  have hhead : ∀ s, ∀ c, (title ++ s).head? = some c → isBlank c = false := by
    intro s
    rw [List.head?_append_of_ne_nil _ h.titled.title_ne_nil]
    exact h.titled.tight.head
  have hbefore := congrArg (List.takeWhile isBlank) htail
  rw [takeWhile_append_of_head h.titled.blank_before (hhead _),
    takeWhile_append_of_head h'.titled.blank_before (hhead _)] at hbefore
  cases hbefore
  simp only [List.append_cancel_left_eq, List.append_cancel_right_eq] at htail
  cases htail
  rfl

/-- Where a title has a word in it, a line is taken apart exactly as the grammar builds it, and the
grammar builds it in one way at most. The pattern, read with backtracking, finds the same first. -/
theorem split?_eq_some_iff_reading (token : Token) (line : Line) (hlf : '\n' ∉ line) :
    (∀ p, split? token line = some p ∧ HasWord p.title ↔
      ∃ r, IsBanner token.text r ∧ r.text = line ∧ r.parts = p) ∧
    (∀ r r', IsBanner token.text r → IsBanner token.text r' → r.text = line → r'.text = line →
      r = r') ∧
    split? token line = (readings token.text line).head?.filter fun p => !p.title.all isDash := by
  refine ⟨fun p => ⟨?_, ?_⟩, ?_, split?_eq_head?_readings hlf⟩
  · intro hx
    obtain ⟨h, hw⟩ := hx
    exact exists_reading h hw hlf
  · intro hx
    obtain ⟨r, h, rfl, rfl⟩ := hx
    exact ⟨h.split?_eq hlf, h.word⟩
  · intro r r' h h' hx he
    subst hx
    exact h.unique h' hlf he.symm

/-- A token of dashes, and a title with dashes in it: the runs end where the blanks begin. -/
theorem split?_eq_some_iff_reading_dashes :
    '\n' ∉ " -- ---A-- B- ---- --".toList ∧
      split? ⟨['-', '-'], by decide⟩ " -- ---A-- B- ---- --".toList =
        some ⟨" -- ".toList, "---".toList, "A-- B-".toList, "----".toList, " --".toList⟩ := by
  have hlf : '\n' ∉ " -- ---A-- B- ---- --".toList := by decide
  refine ⟨hlf, ?_⟩
  have h := split?_eq_some_iff_reading ⟨['-', '-'], by decide⟩ _ hlf
  refine ((h.1 _).2 ⟨⟨" -- ".toList, "---".toList, [], "A-- B-".toList, [' '], "----".toList,
    " --".toList⟩, ⟨?_, ?_, ?_, ?_⟩, by decide, rfl⟩).1
  · exact ⟨[' '], [' '], blank_replicate 1, blank_replicate 1, by decide, by decide⟩
  · exact {
      dashes_left := by simp [Dashes, isDash]
      left_ne_nil := by decide
      blank_before := Blank.nil
      tight := ⟨by simp [isBlank], by simp [isBlank]⟩
      title_ne_nil := by decide
      blank_after := blank_replicate 1
      dashes_right := by simp [Dashes, isDash]
      right_ne_nil := by decide
      head_ne := by decide
      last_ne := by decide }
  · exact ⟨[' '], [], blank_replicate 1, by decide, Blank.nil, by decide⟩
  · exact ⟨'A', by decide, by decide, by decide⟩

end Recenter.Banner.Section
