import Recenter.Proofs.Section.Inner

/-! What centering does to the text between the tokens of a section banner. A balanced title is
centered already (`recast_balance`), so one pass settles every text but a gap between two single
dashes whose last blank is no space (`recast_recast_iff`): that blank is taken for a title, and the
space that is put behind it is taken for the next one. Two passes settle every text
(`recast_recast_recast`). -/

namespace Recenter.Banner.Section

open Recenter.Text

variable {left before title after right inner gap : List Char} {c : Char} {n : Nat}

/-- A title between two runs of `dashes` dashes in all, with one space on each side. -/
def balance (dashes : Nat) (title : List Char) : List Char :=
  List.replicate (dashes / 2) '-' ++ [' '] ++ title ++ [' '] ++
    List.replicate (dashes - dashes / 2) '-'

/-- What stands between the tokens of a banner once it is centered. -/
def recast (inner : List Char) : List Char :=
  match inner? inner with
  | some (left, title, right) =>
    if title.all isDash then inner else balance (left.length + right.length) title
  | none => inner

theorem Parts.center_eq (p : Parts) :
    p.center = p.opening ++ balance (p.left.length + p.right.length) p.title ++ p.closing := by
  simp [Parts.center, balance]

/-! ## Centering the text of each shape -/

theorem isTitled_balance (hn : 2 ≤ n) (ht : Tight title) (hne : title ≠ []) :
    IsTitled (List.replicate (n / 2) '-') [' '] title [' '] (List.replicate (n - n / 2) '-') where
  dashes_left := dashes_replicate _
  left_ne_nil := by
    rw [ne_eq, List.replicate_eq_nil_iff]
    omega
  blank_before := blank_replicate 1
  tight := ht
  title_ne_nil := hne
  blank_after := blank_replicate 1
  dashes_right := dashes_replicate _
  right_ne_nil := by
    rw [ne_eq, List.replicate_eq_nil_iff]
    omega
  head_ne h := by cases h
  last_ne h := by cases h

theorem bounded_balance (hn : 2 ≤ n) (title : List Char) : Bounded (balance n title) := by
  have hl : List.replicate (n / 2) '-' ≠ [] := by
    rw [ne_eq, List.replicate_eq_nil_iff]
    omega
  have hr : List.replicate (n - n / 2) '-' ≠ [] := by
    rw [ne_eq, List.replicate_eq_nil_iff]
    omega
  simpa [balance] using bounded_append ([' '] ++ title ++ [' ']) (dashes_replicate _) hl
    (dashes_replicate _) hr

theorem recast_titled (h : IsTitled left before title after right) (hlf : '\n' ∉ title) :
    recast (left ++ before ++ title ++ after ++ right) =
      if title.all isDash then left ++ before ++ title ++ after ++ right
      else balance (left.length + right.length) title := by
  unfold recast
  rw [inner?_titled h hlf]

theorem recast_balance (hn : 2 ≤ n) (ht : Tight title) (hne : title ≠ []) (hlf : '\n' ∉ title) :
    recast (balance n title) = balance n title := by
  have h := recast_titled (isTitled_balance hn ht hne) hlf
  rw [List.length_replicate, List.length_replicate, Nat.add_sub_cancel' (Nat.div_le_self n 2)] at h
  unfold balance at h ⊢
  rw [h, ite_self]

theorem recast_gap_one (hl : Dashes left) (hl' : left ≠ []) (hg : Blank (gap ++ [c]))
    (hlf : c ≠ '\n') :
    recast (left ++ (gap ++ [c]) ++ ['-']) = balance (left.length + 1) [c] := by
  unfold recast
  rw [inner?_gap_one hl hl' hg hlf]
  simp [isDash_of_isBlank (hg c (by simp))]

theorem recast_gap_more (hl : Dashes left) (hl' : left ≠ []) (hg : Blank gap) (hg' : gap ≠ [])
    (hr : Dashes right) (hr' : right ≠ []) :
    recast (left ++ gap ++ ('-' :: right)) = left ++ gap ++ ('-' :: right) := by
  unfold recast
  rw [inner?_gap_more hl hl' hg hg' hr hr']
  simp [isDash]

/-- A rule has no title but dashes. -/
theorem recast_rule (h : Dashes inner) : recast inner = inner := by
  unfold recast
  split
  · next left title right hi =>
    rw [if_pos (List.all_eq_true.2 fun c hc => h c (mem_of_inner? hi c hc))]
  · rfl

/-! ## Settling -/

/-- A gap between two single dashes whose last blank is no space. -/
def Wavers (inner : List Char) : Prop :=
  ∃ gap c, inner = '-' :: gap ++ [c, '-'] ∧ Blank (gap ++ [c]) ∧ c ≠ ' '

/-- A blank for a title, between runs of dashes that are not both single, makes a divider. -/
theorem recast_balance_blank (hn : 2 ≤ n) (hc : isBlank c = true) (hlf : c ≠ '\n') :
    recast (balance n [c]) = if n = 2 then balance 2 [' '] else balance n [c] := by
  have hgap : Blank ([' ', c] ++ [' ']) := by
    intro d hd
    have hspace : isBlank ' ' = true := by decide
    simp only [List.cons_append, List.nil_append, List.mem_cons, List.not_mem_nil, or_false] at hd
    rcases hd with rfl | rfl | rfl <;> assumption
  have hl : List.replicate (n / 2) '-' ≠ [] := by
    rw [ne_eq, List.replicate_eq_nil_iff]
    omega
  split
  · next h =>
    subst h
    have hone : recast (['-'] ++ ([' ', c] ++ [' ']) ++ ['-']) = balance 2 [' '] :=
      recast_gap_one (dashes_replicate 1) (by simp) hgap (by decide)
    simpa [balance] using hone
  · next h =>
    obtain ⟨m, hm⟩ : ∃ m, n - n / 2 = m + 1 + 1 := ⟨n - n / 2 - 2, by omega⟩
    have hr := recast_gap_more (dashes_replicate (n / 2)) hl hgap (by simp)
      (dashes_replicate (m + 1)) (by simp)
    simpa [balance, hm, List.replicate_succ] using hr

/-- What a pass makes of a text: nothing new, a balanced title, or a balanced blank. -/
theorem recast_cases (h : Bounded inner) (hlf : '\n' ∉ inner) :
    recast inner = inner ∨
      (∃ n title, 2 ≤ n ∧ Tight title ∧ title ≠ [] ∧ '\n' ∉ title ∧
        recast inner = balance n title) ∨
      ∃ left gap c, inner = left ++ (gap ++ [c]) ++ ['-'] ∧ Dashes left ∧ left ≠ [] ∧
        Blank (gap ++ [c]) ∧ c ≠ '\n' ∧ recast inner = balance (left.length + 1) [c] := by
  cases shape_of_bounded h with
  | @titled left before title after right ht =>
    have htlf : '\n' ∉ title := by
      intro hm
      exact hlf (by simp [hm])
    rw [recast_titled ht htlf]
    split
    · exact .inl rfl
    · have hl := List.length_pos_iff.2 ht.left_ne_nil
      have hr := List.length_pos_iff.2 ht.right_ne_nil
      exact .inr (.inl ⟨_, title, by omega, ht.tight, ht.title_ne_nil, htlf, rfl⟩)
  | @gap left gap right hl hl' hg hg' hr hr' =>
    rcases gap_cases hg' hr hr' with ⟨gap, c, rfl, rfl⟩ | ⟨right, rfl, hr, hr'⟩
    · have hclf : c ≠ '\n' := by
        rintro rfl
        exact hlf (by simp)
      exact .inr (.inr ⟨left, gap, c, rfl, hl, hl', hg, hclf, recast_gap_one hl hl' hg hclf⟩)
    · exact .inl (recast_gap_more hl hl' hg hg' hr hr')
  | rule hs => exact .inl (recast_rule hs)

theorem Wavers.recast_eq (h : Wavers inner) (hlf : '\n' ∉ inner) :
    ∃ c, c ≠ ' ' ∧ recast inner = balance 2 [c] ∧ recast (recast inner) = balance 2 [' '] := by
  obtain ⟨gap, c, rfl, hg, hc⟩ := h
  have hclf : c ≠ '\n' := by
    intro hx
    subst hx
    exact hlf (by simp)
  have hone : recast ('-' :: gap ++ [c, '-']) = balance 2 [c] := by
    have hgap := recast_gap_one (dashes_replicate 1) (by simp) hg hclf
    simpa using hgap
  refine ⟨c, hc, hone, ?_⟩
  rw [hone, recast_balance_blank (Nat.le_refl 2) (hg c (by simp)) hclf, if_pos rfl]

/-- One pass settles every text but the wavering ones. -/
theorem recast_recast_iff (h : Bounded inner) (hlf : '\n' ∉ inner) :
    recast (recast inner) = recast inner ↔ ¬ Wavers inner := by
  constructor
  · intro he hw
    obtain ⟨c, hc, hone, htwo⟩ := hw.recast_eq hlf
    rw [hone] at he
    rw [hone, he] at htwo
    simp [balance, hc] at htwo
  · intro hw
    rcases recast_cases h hlf with he | ⟨n, title, hn, ht, hne, htlf, he⟩ |
      ⟨left, gap, c, rfl, hl, hl', hg, hclf, he⟩
    · rw [he, he]
    · rw [he, recast_balance hn ht hne htlf]
    · have hlpos := List.length_pos_iff.2 hl'
      rw [he, recast_balance_blank (by omega) (hg c (by simp)) hclf]
      split
      · next hone =>
        have hleft : left = ['-'] := by
          obtain ⟨d, rfl⟩ := List.length_eq_one_iff.1 (show left.length = 1 by omega)
          rw [isDash_iff.1 (hl d (by simp))]
        have hspace : c = ' ' := by
          by_contra hc
          exact hw ⟨gap, c, by simp [hleft], hg, hc⟩
        rw [hspace, hone]
      · rfl

/-- Two passes settle every text. -/
theorem recast_recast_recast (h : Bounded inner) (hlf : '\n' ∉ inner) :
    recast (recast (recast inner)) = recast (recast inner) := by
  by_cases hw : Wavers inner
  · obtain ⟨c, -, -, htwo⟩ := hw.recast_eq hlf
    rw [htwo, recast_balance_blank (Nat.le_refl 2) (by decide) (by decide), if_pos rfl]
  · rw [(recast_recast_iff h hlf).2 hw, (recast_recast_iff h hlf).2 hw]

/-! ## What a pass keeps -/

theorem bounded_recast (h : Bounded inner) (hlf : '\n' ∉ inner) : Bounded (recast inner) := by
  rcases recast_cases h hlf with
    he | ⟨n, title, hn, -, -, -, he⟩ | ⟨left, gap, c, -, -, hl', -, -, he⟩
  · rwa [he]
  · rw [he]
    exact bounded_balance hn title
  · have hlpos := List.length_pos_iff.2 hl'
    rw [he]
    exact bounded_balance (by omega) [c]

theorem not_mem_balance (hlf : '\n' ∉ title) : '\n' ∉ balance n title := by
  simp [balance, hlf]

theorem not_mem_recast (hlf : '\n' ∉ inner) : '\n' ∉ recast inner := by
  unfold recast
  split
  · next left title right hi =>
    split
    · exact hlf
    · exact not_mem_balance fun hm => hlf (mem_of_inner? hi _ hm)
  · exact hlf

end Recenter.Banner.Section
