import Recenter.Proofs.Section.Balance
import Recenter.Proofs.Section.Grammar

/-! Reading a centered banner again. Around a title that is not blank the pieces of a line are there
(`exists_division`), and with the dashes shared out evenly and one space on each side of the title
they are the pieces of the centered line. So the centered line is taken apart at the same places, is
longer by two than the old one without the blanks around its title, and stays as it is
(`split?_centered`). -/

namespace Recenter.Banner.Section

open Recenter.Text

variable {token : Token} {line : Line} {p : Parts} {r r' : Reading}

/-- The pieces with their dashes shared out evenly and one space on each side of the title. -/
def Reading.balanced (r : Reading) : Reading :=
  let dashes := r.left.length + r.right.length
  { r with
    left := List.replicate (dashes / 2) '-'
    before := [' ']
    after := [' ']
    right := List.replicate (dashes - dashes / 2) '-' }

/-- The second pieces are the first ones with as many dashes in all, of which the left run has half,
and with one space on each side of the title. -/
structure Balances (r r' : Reading) : Prop where
  opening : r'.opening = r.opening
  title : r'.title = r.title
  closing : r'.closing = r.closing
  dashes_left : Dashes r'.left
  dashes_right : Dashes r'.right
  left_ne_nil : r'.left ≠ []
  length : r'.left.length + r'.right.length = r.left.length + r.right.length
  left_le : r'.left.length ≤ r'.right.length
  right_le : r'.right.length ≤ r'.left.length + 1
  before : r'.before = [' ']
  after : r'.after = [' ']

theorem Reading.center_parts (r : Reading) : r.parts.center = r.balanced.text := by
  simp [Parts.center, Reading.parts, Reading.balanced, Reading.text]

theorem Reading.balanced_balanced (r : Reading) : r.balanced.balanced = r.balanced := by
  have hsum := Nat.add_sub_cancel' (Nat.div_le_self (r.left.length + r.right.length) 2)
  simp only [Reading.balanced, List.length_replicate, hsum]

theorem not_mem_balanced (hlf : '\n' ∉ r.text) : '\n' ∉ r.balanced.text := by
  simp only [Reading.text, Reading.balanced, List.mem_append, not_or] at hlf ⊢
  simp [hlf]

namespace IsDivision

variable (h : IsDivision token.text r)
include h

theorem two_le_dashes : 2 ≤ r.left.length + r.right.length := by
  have hl := List.length_pos_iff.2 h.titled.left_ne_nil
  have hr := List.length_pos_iff.2 h.titled.right_ne_nil
  omega

theorem balances : Balances r r.balanced where
  opening := rfl
  title := rfl
  closing := rfl
  dashes_left := dashes_replicate _
  dashes_right := dashes_replicate _
  left_ne_nil := (isTitled_balance h.two_le_dashes h.titled.tight h.titled.title_ne_nil).left_ne_nil
  length := by
    simp only [Reading.balanced, List.length_replicate]
    omega
  left_le := by
    simp only [Reading.balanced, List.length_replicate]
    omega
  right_le := by
    simp only [Reading.balanced, List.length_replicate]
    omega
  before := rfl
  after := rfl

theorem balanced : IsDivision token.text r.balanced :=
  ⟨h.opening, isTitled_balance h.two_le_dashes h.titled.tight h.titled.title_ne_nil, h.closing,
    h.all_isDash⟩

theorem centerLine?_eq (hlf : '\n' ∉ r.text) :
    centerLine? token r.text = some r.balanced.text := by
  rw [centerLine?, h.split?_eq hlf, Option.map_some, Reading.center_parts]

end IsDivision

/-- The blanks around the title give way to two spaces. -/
theorem Balances.length_text (h : Balances r r') :
    r'.text.length + (r.before.length + r.after.length) = r.text.length + 2 := by
  have hlength := h.length
  simp only [Reading.text, List.length_append, h.opening, h.title, h.closing, h.before, h.after,
    List.length_singleton]
  omega

/-- A line that is taken apart around a title that is not blank is centered to one that is taken
apart at the same places, around the same title, with the dashes in balance; and that line is
centered to itself. -/
theorem split?_centered (token : Token) (line : Line) (p : Parts) (hlf : '\n' ∉ line)
    (h : split? token line = some p) (hw : ¬ Blank p.title) :
    ∃ r r' : Reading, r.text = line ∧ r.parts = p ∧ Blank r.before ∧ Blank r.after ∧
      centerLine? token line = some r'.text ∧ split? token r'.text = some r'.parts ∧
      Balances r r' ∧
      r'.text.length + (r.before.length + r.after.length) = line.length + 2 ∧
      centerLine? token r'.text = some r'.text := by
  obtain ⟨r, hr, rfl, hp⟩ := exists_division h hw hlf
  have hlf' := not_mem_balanced hlf
  have hagain := hr.balanced.centerLine?_eq hlf'
  rw [Reading.balanced_balanced] at hagain
  exact ⟨r, r.balanced, rfl, hp, hr.titled.blank_before, hr.titled.blank_after,
    hr.centerLine?_eq hlf, hr.balanced.split?_eq hlf', hr.balances, hr.balances.length_text, hagain⟩

/-- A token of dashes that stands in the title too, a title with dashes at both ends, and blanks of
other kinds around it. -/
theorem split?_centered_dashes :
    let token : Token := ⟨['-', '-'], by decide⟩
    let line := "\t-- ---\u2003-- A --\u3000\u0085- --".toList
    let p : Parts := ⟨"\t-- ".toList, "---".toList, "-- A --".toList, "-".toList, " --".toList⟩
    '\n' ∉ line ∧ split? token line = some p ∧ ¬ Blank p.title ∧
      ∃ r r' : Reading, r.text = line ∧ r.parts = p ∧ Balances r r' ∧
        centerLine? token line = some "\t-- -- -- A -- -- --".toList ∧
        split? token r'.text = some r'.parts ∧ r'.text = "\t-- -- -- A -- -- --".toList := by
  intro token line p
  have hlf : '\n' ∉ line := by decide
  have hsplit : split? token line = some p := by decide +kernel
  have hw : ¬ Blank p.title := fun h => absurd (h 'A' (by decide)) (by decide)
  have hcentered : centerLine? token line = some "\t-- -- -- A -- -- --".toList := by
    decide +kernel
  obtain ⟨r, r', hr, hp, -, -, hc, hs, hb, -⟩ := split?_centered token line p hlf hsplit hw
  rw [hcentered] at hc
  exact ⟨hlf, hsplit, hw, r, r', hr, hp, hb, hcentered, hs, (Option.some.inj hc).symm⟩

end Recenter.Banner.Section
