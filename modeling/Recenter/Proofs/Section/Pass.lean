import Recenter.Proofs.Section.Balance
import Recenter.Proofs.Text.Line

/-! The section pass line by line. A framed line keeps its frame and has the text in it recast, and
every other line stays (`centered_cases`). So the pass leaves the outer blanks and the end of each
line as they are, and it reports a change exactly if a line differs. -/

namespace Recenter.Banner.Section

open Recenter.Text

variable {token : Token} {line body opening inner closing : Line} {lines : List Line}

/-- A line without its end after the pass. -/
def centered (token : Token) (body : Line) : Line := (centerLine? token body).getD body

/-- A line after the pass. -/
def recentered (token : Token) (line : Line) : Line := (recenter? token line).getD line

/-! ## Without the line's end -/

theorem centered_framed (h : Framed token.text body opening inner closing) :
    centered token body = opening ++ recast inner ++ closing := by
  unfold centered centerLine? recast
  rw [split?_framed h]
  cases hi : inner? inner with
  | none => simp [h.eq]
  | some found =>
    obtain ⟨left, title, right⟩ := found
    by_cases ht : title.all isDash = true
    · simp [Option.filter, ht, h.eq]
    · simp [Option.filter, ht, Parts.center_eq]

theorem centered_cases (token : Token) (body : Line) :
    (∃ opening inner closing, Framed token.text body opening inner closing ∧
      centered token body = opening ++ recast inner ++ closing) ∨ centered token body = body := by
  cases hs : split? token body with
  | some p =>
    obtain ⟨inner, hf, -, -⟩ := split?_eq_some_iff.1 hs
    exact .inl ⟨_, _, _, hf, centered_framed hf⟩
  | none =>
    refine .inr ?_
    unfold centered centerLine?
    rw [hs]
    rfl

theorem takeWhile_centered (token : Token) (hlf : '\n' ∉ body) :
    (centered token body).takeWhile isBlank = body.takeWhile isBlank := by
  rcases centered_cases token body with ⟨_, _, _, h, he⟩ | he
  · rw [he, h.takeWhile_eq (bounded_recast h.bounded (h.not_mem hlf))]
  · rw [he]

theorem trailingBlanks_centered (token : Token) (hlf : '\n' ∉ body) :
    trailingBlanks (centered token body) = trailingBlanks body := by
  rcases centered_cases token body with ⟨_, _, _, h, he⟩ | he
  · rw [he, h.trailingBlanks_eq (bounded_recast h.bounded (h.not_mem hlf))]
  · rw [he]

theorem getLast?_centered (token : Token) (body : Line) :
    (centered token body).getLast? = body.getLast? := by
  rcases centered_cases token body with ⟨_, _, _, h, he⟩ | he
  · rw [he, h.getLast?_eq]
  · rw [he]

theorem not_mem_centered (hlf : '\n' ∉ body) : '\n' ∉ centered token body := by
  rcases centered_cases token body with ⟨opening, inner, closing, h, he⟩ | he
  · have hr := not_mem_recast (h.not_mem hlf)
    rw [h.eq] at hlf
    rw [he]
    simp only [List.mem_append, not_or] at hlf ⊢
    exact ⟨⟨hlf.1.1, hr⟩, hlf.2⟩
  · rwa [he]

/-! ## With the line's end -/

theorem recenter?_eq (token : Token) (line : Line) :
    recenter? token line =
      if centered token (splitEol line).1 = (splitEol line).1 then none
      else some (centered token (splitEol line).1 ++ (splitEol line).2) := by
  unfold recenter? centered
  simp only
  split
  · next hc => simp [hc]
  · next hc => simp [hc]

theorem recentered_eq (token : Token) (line : Line) :
    recentered token line = centered token (splitEol line).1 ++ (splitEol line).2 := by
  unfold recentered
  rw [recenter?_eq]
  split
  · next h => rw [h, Option.getD_none, splitEol_append]
  · rfl

theorem splitEol_recentered (token : Token) (line : Line) :
    splitEol (recentered token line) = (centered token (splitEol line).1, (splitEol line).2) := by
  rw [recentered_eq]
  apply splitEol_append_eol
  intro he
  rw [getLast?_centered]
  exact getLast?_splitEol_fst he

theorem isSome_recenter?_iff (token : Token) (line : Line) :
    (recenter? token line).isSome = true ↔ recentered token line ≠ line := by
  have hline : recentered token line = line ↔
      centered token (splitEol line).1 = (splitEol line).1 := by
    rw [← splitEol_eq_iff, splitEol_recentered, Prod.ext_iff]
    simp
  rw [ne_eq, hline, recenter?_eq]
  split
  · next h => simp [h]
  · next h => simp [h]

theorem not_mem_recentered (hlf : '\n' ∉ line) : '\n' ∉ recentered token line := by
  rw [recentered_eq]
  exact not_mem_append_eol hlf (not_mem_centered (not_mem_splitEol_fst hlf))

/-! ## All lines -/

theorem lines_centerLines (token : Token) (lines : List Line) :
    (centerLines token lines).lines = lines.map (recentered token) := rfl

theorem lines_centerLines_eq_self_iff :
    (centerLines token lines).lines = lines ↔ ∀ line ∈ lines, recentered token line = line := by
  rw [lines_centerLines, ← List.map_inj_left, List.map_id']

theorem changed_centerLines_iff (token : Token) (lines : List Line) :
    (centerLines token lines).changed = true ↔ (centerLines token lines).lines ≠ lines := by
  rw [ne_eq, lines_centerLines_eq_self_iff, centerLines, List.any_eq_true]
  simp only [isSome_recenter?_iff]
  constructor
  · intro hx hall
    obtain ⟨line, hm, hne⟩ := hx
    exact hne (hall line hm)
  · intro hne
    by_contra hnone
    exact hne fun line hm => by_contra fun h => hnone ⟨line, hm, h⟩

theorem length_centerLines : (centerLines token lines).lines.length = lines.length := by
  rw [lines_centerLines, List.length_map]

theorem not_mem_lines_centerLines (hlf : ∀ line ∈ lines, '\n' ∉ line) :
    ∀ line ∈ (centerLines token lines).lines, '\n' ∉ line := by
  intro line hm
  obtain ⟨line', hm', rfl⟩ := List.mem_map.1 hm
  exact not_mem_recentered (hlf line' hm')

/-! ## Lines that stay after one pass -/

/-- No line holds two single dashes around a gap whose last blank is no space. -/
def Steady (token : Token) (lines : List Line) : Prop :=
  ∀ line ∈ lines, ∀ opening inner closing,
    Framed token.text (splitEol line).1 opening inner closing → ¬ Wavers inner

theorem recentered_recentered_iff (hlf : '\n' ∉ line) :
    recentered token (recentered token line) = recentered token line ↔
      ∀ opening inner closing, Framed token.text (splitEol line).1 opening inner closing →
        ¬ Wavers inner := by
  rw [← splitEol_eq_iff, splitEol_recentered, splitEol_recentered]
  simp only [Prod.mk.injEq, and_true]
  constructor
  · intro he opening inner closing h
    have hin := h.not_mem (not_mem_splitEol_fst hlf)
    have hb := bounded_recast h.bounded hin
    rw [centered_framed h, centered_framed (h.replace hb), List.append_cancel_right_eq,
      List.append_cancel_left_eq] at he
    exact (recast_recast_iff h.bounded hin).1 he
  · intro hw
    rcases centered_cases token (splitEol line).1 with ⟨opening, inner, closing, h, he⟩ | he
    · have hin := h.not_mem (not_mem_splitEol_fst hlf)
      have hb := bounded_recast h.bounded hin
      rw [he, centered_framed (h.replace hb),
        (recast_recast_iff h.bounded hin).2 (hw _ _ _ h)]
    · rw [he, he]

/-- A second pass leaves the lines as they are exactly if none of them wavers. -/
theorem lines_centerLines_map_eq_self_iff (hlf : ∀ line ∈ lines, '\n' ∉ line) :
    (centerLines token (centerLines token lines).lines).lines = (centerLines token lines).lines ↔
      Steady token lines := by
  rw [lines_centerLines_eq_self_iff, lines_centerLines]
  simp only [List.mem_map, forall_exists_index, and_imp, forall_apply_eq_imp_iff₂]
  constructor
  · intro h line hm
    exact (recentered_recentered_iff (hlf line hm)).1 (h line hm)
  · intro h line hm
    exact (recentered_recentered_iff (hlf line hm)).2 (h line hm)

end Recenter.Banner.Section

namespace Recenter.Banner

open Recenter.Text

theorem section_eq_iff {token : Section.Token} {lines : List Line} :
    Section.centerLines token lines = ⟨lines, false⟩ ↔
      (Section.centerLines token lines).lines = lines :=
  Revision.eq_unchanged_iff (Section.changed_centerLines_iff token lines)

end Recenter.Banner
