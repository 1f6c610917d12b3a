import Recenter.Proofs.Section.Frame

/-! The text between the tokens of a section banner: dashes around a title, dashes around a gap, or
dashes alone (`shape_of_bounded`). A title is found with the blanks around it left to both sides
(`inner?_titled`). A gap has no title of its own, and its last blank is taken for one if a single
dash stands behind it (`inner?_gap_one`); in front of two or more, a dash is taken, which makes a
divider. -/

namespace Recenter.Banner.Section

open Recenter.Text

def Dashes (s : List Char) : Prop := ∀ c ∈ s, isDash c = true

/-- Two runs of dashes around a title, with blanks in between. The title has its outer blanks
outside of it, and its outer dashes too where no blank parts them from a run. -/
structure IsTitled (left before title after right : List Char) : Prop where
  dashes_left : Dashes left
  left_ne_nil : left ≠ []
  blank_before : Blank before
  tight : Tight title
  title_ne_nil : title ≠ []
  blank_after : Blank after
  dashes_right : Dashes right
  right_ne_nil : right ≠ []
  head_ne : before = [] → title.head? ≠ some '-'
  last_ne : after = [] → title.getLast? ≠ some '-'

/-- What a text that begins and ends with a dash may be. -/
inductive Shape : List Char → Prop
  | titled {left before title after right : List Char} :
      IsTitled left before title after right → Shape (left ++ before ++ title ++ after ++ right)
  | gap {left gap right : List Char} : Dashes left → left ≠ [] → Blank gap → gap ≠ [] →
      Dashes right → right ≠ [] → Shape (left ++ gap ++ right)
  | rule {s : List Char} : Dashes s → Shape s

variable {left before title after right inner gap : List Char} {c : Char}

theorem isDash_iff : isDash c = true ↔ c = '-' := by simp [isDash]

theorem isDash_of_isBlank (h : isBlank c = true) : isDash c = false := by
  cases hd : isDash c with
  | false => rfl
  | true =>
    rw [isDash_iff.1 hd, isBlank_dash] at h
    cases h

theorem Dashes.head (h : Dashes left) (hne : left ≠ []) : left.head? = some '-' := by
  cases left with
  | nil => exact absurd rfl hne
  | cons c rest => simp [isDash_iff.1 (h c (by simp))]

theorem Dashes.last (h : Dashes right) (hne : right ≠ []) : right.getLast? = some '-' := by
  rw [List.getLast?_eq_some_getLast hne, isDash_iff.1 (h _ (List.getLast_mem hne))]

theorem dashes_replicate (n : Nat) : Dashes (List.replicate n '-') := by
  intro c hc
  rw [List.eq_of_mem_replicate hc]
  rfl

theorem head_not_dash (h : inner.head? ≠ some '-') :
    ∀ c, inner.head? = some c → isDash c = false := by
  intro c hc
  rw [hc] at h
  simpa [isDash] using h

theorem last_not_dash (h : inner.getLast? ≠ some '-') :
    ∀ c, inner.getLast? = some c → isDash c = false := by
  intro c hc
  rw [hc] at h
  simpa [isDash] using h

theorem head_ne_dash_of_blank (hb : Blank gap) : gap.head? ≠ some '-' := by
  intro h
  simpa [isBlank_dash] using hb '-' (List.mem_of_head? h)

theorem last_ne_dash_of_blank (hb : Blank gap) : gap.getLast? ≠ some '-' := by
  intro h
  simpa [isBlank_dash] using hb '-' (List.mem_of_getLast? h)

/-! ## The shapes -/

theorem Dashes.bounded (h : Dashes inner) (hne : inner ≠ []) : Bounded inner :=
  ⟨h.head hne, h.last hne⟩

theorem bounded_append (middle : List Char) (hl : Dashes left) (hl' : left ≠ [])
    (hr : Dashes right) (hr' : right ≠ []) : Bounded (left ++ middle ++ right) where
  head := by rw [List.append_assoc, List.head?_append, hl.head hl', Option.some_or]
  last := by rw [List.getLast?_append, hr.last hr', Option.some_or]

theorem IsTitled.bounded (h : IsTitled left before title after right) :
    Bounded (left ++ before ++ title ++ after ++ right) := by
  simpa [List.append_assoc] using bounded_append (before ++ title ++ after)
    h.dashes_left h.left_ne_nil h.dashes_right h.right_ne_nil

/-- Dashes and then blanks are cut off in front, and the same behind. What is left is the title. -/
theorem shape_of_bounded (h : Bounded inner) : Shape inner := by
  obtain ⟨left, x, rfl, hleft, hx⟩ := exists_run_append isDash inner
  obtain ⟨before, y, rfl, hbefore, hy⟩ := exists_run_append isBlank x
  obtain ⟨z, right, rfl, hright, hz⟩ := exists_append_run isDash y
  obtain ⟨title, after, rfl, hafter, htitle⟩ := exists_append_run isBlank z
  have hleftne : left ≠ [] := by
    intro hm
    subst hm
    exact absurd (hx '-' h.head) (by decide)
  by_cases hrightne : right = []
  · -- A rule: anything behind the first run would have a dash at its end.
    subst hrightne
    have hznil : title ++ after = [] := by
      by_contra hne
      have hl := h.last
      rw [List.append_nil, ← List.append_assoc, List.getLast?_append_of_ne_nil _ hne] at hl
      exact absurd (hz '-' hl) (by decide)
    have hbnil : before = [] := by
      by_contra hne
      have hl := h.last
      rw [hznil, List.append_nil, List.append_nil, List.getLast?_append_of_ne_nil _ hne] at hl
      exact last_ne_dash_of_blank hbefore hl
    rw [hznil, hbnil, List.append_nil, List.append_nil, List.append_nil]
    exact .rule hleft
  by_cases htne : title = []
  · -- A gap: all of its blanks have been cut off in front.
    subst htne
    have hanil : after = [] := by
      cases after with
      | nil => rfl
      | cons c rest => exact absurd (hy c rfl) (by simp [hafter c (by simp)])
    have hbne : before ≠ [] := by
      intro hm
      subst hm
      subst hanil
      exact absurd (hx '-' (by simpa using Dashes.head hright hrightne)) (by decide)
    subst hanil
    simpa using Shape.gap hleft hleftne hbefore hbne hright hrightne
  have htitled : IsTitled left before title after right := by
    refine ⟨hleft, hleftne, hbefore, ⟨?_, htitle⟩, htne, hafter, hright, hrightne, ?_, ?_⟩
    · intro c hc
      exact hy c (by simp [List.head?_append, hc])
    · intro hm hc
      subst hm
      exact absurd (hx '-' (by simp [List.head?_append, hc])) (by decide)
    · intro hm hc
      subst hm
      exact absurd (hz '-' (by simpa using hc)) (by decide)
  simpa using Shape.titled htitled

/-- A gap stands in front of more than one dash, or of one, and then its last blank counts. -/
theorem gap_cases (hg : gap ≠ []) (hr : Dashes right) (hr' : right ≠ []) :
    (∃ gap' c, gap = gap' ++ [c] ∧ right = ['-']) ∨
      ∃ right', right = '-' :: right' ∧ Dashes right' ∧ right' ≠ [] := by
  obtain ⟨d, right, rfl⟩ := List.exists_cons_of_ne_nil hr'
  obtain rfl : d = '-' := isDash_iff.1 (hr d (by simp))
  by_cases hone : right = []
  · rw [hone]
    exact .inl ⟨_, _, (List.dropLast_append_getLast hg).symm, rfl⟩
  · exact .inr ⟨right, rfl, fun e he => hr e (by simp [he]), hone⟩

/-! ## Reading each shape -/

/-- The search ends where it begins if a dash can be left behind the title. -/
theorem titleBounds?_of_lt (pre title post : List Char) {finish : Nat} (hpre : pre ≠ [])
    (hstop : max (pre.length + 1) finish = (pre ++ title).length) (hpost : post ≠ [])
    (hlf : '\n' ∉ title) :
    titleBounds? (pre ++ title ++ post) finish pre.length =
      some (pre.length, (pre ++ title).length) := by
  obtain ⟨n, hn⟩ := Nat.exists_eq_succ_of_ne_zero (List.length_pos_iff.2 hpre).ne'
  have htitle : ((pre ++ title ++ post).take (pre ++ title).length).drop pre.length = title := by
    rw [List.take_left, List.drop_left]
  have hlt : (pre ++ title).length < (pre ++ title ++ post).length := by
    have := List.length_pos_iff.2 hpost
    simp only [List.length_append]
    omega
  rw [hn] at hstop htitle ⊢
  simp only [titleBounds?, hstop, htitle, hlt, decide_true, Bool.true_and]
  simp [hlf]

theorem titleBounds?_of_le {finish start : Nat} (h : inner.length ≤ max (start + 2) finish) :
    titleBounds? inner finish (start + 1) = titleBounds? inner finish start := by
  simp [titleBounds?, Nat.not_lt.2 h]

theorem mem_of_inner? (h : inner? inner = some (left, title, right)) : ∀ c ∈ title, c ∈ inner := by
  obtain ⟨⟨start, stop⟩, -, he⟩ := Option.map_eq_some_iff.1 h
  cases he
  intro c hc
  exact List.mem_of_mem_take (List.mem_of_mem_drop hc)

/-- The search begins behind the first run of dashes and the blanks that follow it. -/
theorem inner?_of_bounds {gap rest : List Char} (pre title post : List Char) (hl : Dashes left)
    (hg : Blank gap)
    (hx : ∀ c, (gap ++ rest).head? = some c → isDash c = false)
    (hr : ∀ c, rest.head? = some c → isBlank c = false)
    (he : left ++ (gap ++ rest) = pre ++ title ++ post)
    (hb : titleBounds? (pre ++ title ++ post)
      (dropEndWhile isBlank (dropEndWhile isDash (pre ++ title ++ post))).length
      (left.length + gap.length) = some (pre.length, (pre ++ title).length)) :
    inner? (left ++ (gap ++ rest)) =
      some (left.take pre.length, title, post.dropWhile isBlank) := by
  unfold inner?
  rw [takeWhile_append_of_head hl hx, dropWhile_append_of_head hl hx,
    takeWhile_append_of_head hg hr, he]
  simp only [hb, Option.map_some]
  rw [List.take_left, List.drop_left, List.drop_left]

theorem inner?_titled (h : IsTitled left before title after right) (hlf : '\n' ∉ title) :
    inner? (left ++ before ++ title ++ after ++ right) = some (left, title, right) := by
  have hr : ∀ c, (title ++ after ++ right).head? = some c → isBlank c = false := by
    rw [List.append_assoc, List.head?_append_of_ne_nil _ h.title_ne_nil]
    exact h.tight.head
  have hx : ∀ c, (before ++ (title ++ after ++ right)).head? = some c → isDash c = false := by
    apply head_not_dash
    by_cases hb : before = []
    · subst hb
      rw [List.nil_append, List.append_assoc, List.head?_append_of_ne_nil _ h.title_ne_nil]
      exact h.head_ne rfl
    · rw [List.head?_append_of_ne_nil _ hb]
      exact head_ne_dash_of_blank h.blank_before
  have hlast : ∀ c, (left ++ before ++ title ++ after).getLast? = some c → isDash c = false := by
    apply last_not_dash
    by_cases ha : after = []
    · subst ha
      rw [List.append_nil, List.getLast?_append_of_ne_nil _ h.title_ne_nil]
      exact h.last_ne rfl
    · rw [List.getLast?_append_of_ne_nil _ ha]
      exact last_ne_dash_of_blank h.blank_after
  have hfinish : dropEndWhile isBlank (dropEndWhile isDash
      (left ++ before ++ title ++ (after ++ right))) = left ++ before ++ title := by
    rw [← List.append_assoc, dropEndWhile_append h.dashes_right, dropEndWhile_eq_self hlast,
      dropEndWhile_append h.blank_after, dropEndWhile_eq_self]
    rw [List.getLast?_append_of_ne_nil _ h.title_ne_nil]
    exact h.tight.last
  -- The search ends where it begins, as a dash is left behind the title.
  have hbounds := titleBounds?_of_lt (left ++ before) title (after ++ right)
    (by simp [h.left_ne_nil]) (Nat.max_eq_right (by
      have := List.length_pos_iff.2 h.title_ne_nil
      simp only [List.length_append]
      omega)) (by simp [h.right_ne_nil]) hlf
  have hread := inner?_of_bounds (left ++ before) title (after ++ right) h.dashes_left
    h.blank_before hx hr (by simp) (by rw [hfinish, ← List.length_append]; exact hbounds)
  have hright : (after ++ right).dropWhile isBlank = right :=
    dropWhile_append_of_head h.blank_after
      (head_not_blank (h.dashes_right.head h.right_ne_nil))
  rw [hright, List.take_of_length_le (by simp)] at hread
  simpa using hread

/-- In a gap the trailing dashes and all blanks are cut off before the title may end. -/
theorem finish_gap (hl : Dashes left) (hl' : left ≠ []) (hg : Blank gap) (hr : Dashes right)
    (hne : gap ≠ []) :
    dropEndWhile isBlank (dropEndWhile isDash (left ++ gap ++ right)) = left := by
  have hlast : ∀ c, (left ++ gap).getLast? = some c → isDash c = false := by
    rw [List.getLast?_append_of_ne_nil _ hne]
    exact last_not_dash (last_ne_dash_of_blank hg)
  rw [dropEndWhile_append hr, dropEndWhile_eq_self hlast, dropEndWhile_append hg,
    dropEndWhile_eq_self (hl.bounded hl').tight.last]

/-- A gap's last blank is taken for a title if one dash stands behind it. -/
theorem inner?_gap_one (hl : Dashes left) (hl' : left ≠ []) (hg : Blank (gap ++ [c]))
    (hlf : c ≠ '\n') : inner? (left ++ (gap ++ [c]) ++ ['-']) = some (left, [c], ['-']) := by
  have hfinish := finish_gap hl hl' hg (show Dashes ['-'] by simp [Dashes, isDash]) (by simp)
  have hinner : left ++ (gap ++ [c]) ++ ['-'] = left ++ gap ++ [c] ++ ['-'] := by simp
  have hstart : left.length + (gap ++ [c]).length = (left ++ gap).length + 1 := by
    simp only [List.length_append, List.length_singleton]
    omega
  have hstop : max ((left ++ gap).length + 1) left.length = (left ++ gap ++ [c]).length := by
    simp only [List.length_append, List.length_singleton]
    omega
  have hx : ∀ d, (gap ++ [c] ++ ['-']).head? = some d → isDash d = false := by
    rw [List.head?_append_of_ne_nil _ (by simp)]
    exact head_not_dash (head_ne_dash_of_blank hg)
  have hbounds := titleBounds?_of_lt (left ++ gap) [c] ['-'] (by simp [hl']) hstop (by simp)
    (by simpa using Ne.symm hlf)
  have hread := inner?_of_bounds (left ++ gap) [c] ['-'] hl hg hx (head_not_blank rfl) (by simp) (by
    rw [← hinner, hfinish, hinner, hstart, titleBounds?_of_le, hbounds]
    simp only [List.length_append, List.length_singleton]
    omega)
  rw [List.take_of_length_le (by simp)] at hread
  simpa [isBlank_dash] using hread

/-- A gap in front of more than one dash has a dash for its title. -/
theorem inner?_gap_more (hl : Dashes left) (hl' : left ≠ []) (hg : Blank gap) (hg' : gap ≠ [])
    (hr : Dashes right) (hr' : right ≠ []) :
    inner? (left ++ gap ++ ('-' :: right)) = some (left, ['-'], right) := by
  have hr1 : Dashes ('-' :: right) := by
    intro c hc
    rcases List.mem_cons.1 hc with rfl | hc
    exacts [rfl, hr c hc]
  have hfinish := finish_gap hl hl' hg hr1 hg'
  have hinner : left ++ gap ++ ('-' :: right) = left ++ gap ++ ['-'] ++ right := by simp
  have hstop : max ((left ++ gap).length + 1) left.length = (left ++ gap ++ ['-']).length := by
    simp only [List.length_append, List.length_singleton]
    omega
  have hx : ∀ d, (gap ++ ('-' :: right)).head? = some d → isDash d = false := by
    rw [List.head?_append_of_ne_nil _ hg']
    exact head_not_dash (head_ne_dash_of_blank hg)
  have hbounds := titleBounds?_of_lt (left ++ gap) ['-'] right (by simp [hl']) hstop hr' (by decide)
  have hread := inner?_of_bounds (left ++ gap) ['-'] right hl hg hx (head_not_blank rfl)
    (by simp) (by
    rw [← hinner, hfinish, hinner, ← List.length_append, hbounds])
  rw [List.take_of_length_le (by simp), dropWhile_eq_self (head_not_blank (hr.head hr'))] at hread
  simpa using hread

end Recenter.Banner.Section
