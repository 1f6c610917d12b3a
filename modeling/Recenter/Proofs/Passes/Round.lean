import Recenter.Proofs.Region.Pass
import Recenter.Proofs.Section.Pass

/-! One round: the region pass and then the section pass. The first changes outer blanks and keeps
the trimmed text, the second keeps the outer blanks. So the second never takes back what the first
has done to a line, and a round that leaves the lines as they are has changed nothing on the way
(`round_eq_self_iff`). -/

namespace Recenter.Banner

open Recenter.Text

variable {borders : Region.Borders} {token : Section.Token} {line : Line} {lines : List Line}

/-- The lines after the region pass and then the section pass. -/
def round (borders : Region.Borders) (token : Section.Token) (lines : List Line) : List Line :=
  (Section.centerLines token (Region.centerLines borders lines).lines).lines

theorem length_round : (round borders token lines).length = lines.length := by
  rw [round, Section.length_centerLines, Region.length_centerLines]

theorem not_mem_round (hlf : ∀ line ∈ lines, '\n' ∉ line) :
    ∀ line ∈ round borders token lines, '\n' ∉ line :=
  Section.not_mem_lines_centerLines (Region.not_mem_lines_centerLines hlf)

theorem getElem?_round (borders : Region.Borders) (token : Section.Token) (lines : List Line)
    (j : Nat) : (round borders token lines)[j]? =
      (Region.centerLines borders lines).lines[j]?.map (Section.recentered token) := by
  rw [round, Section.lines_centerLines, List.getElem?_map]

/-- Of a line with the same trimmed text and the same end only the outer blanks may differ, and
these the section pass keeps. -/
theorem eq_of_recentered_eq {line' : Line} (ht : trim (splitEol line').1 = trim (splitEol line).1)
    (hne : trim (splitEol line).1 ≠ []) (hlf : '\n' ∉ line')
    (h : Section.recentered token line' = line) : line' = line := by
  have hs := Section.splitEol_recentered token line'
  rw [h] at hs
  have hbody : (splitEol line).1 = Section.centered token (splitEol line').1 := by rw [hs]
  have hlf' := not_mem_splitEol_fst hlf
  have hlead := Section.takeWhile_centered token hlf'
  have htrail := Section.trailingBlanks_centered token hlf'
  rw [← hbody] at hlead htrail
  have hsame : (splitEol line').1 = (splitEol line).1 :=
    calc (splitEol line').1 = (splitEol line').1.takeWhile isBlank ++ trim (splitEol line').1 ++
          trailingBlanks (splitEol line').1 := eq_append_trim (ht ▸ hne)
      _ = (splitEol line).1.takeWhile isBlank ++ trim (splitEol line).1 ++
          trailingBlanks (splitEol line).1 := by rw [ht, hlead, htrail]
      _ = (splitEol line).1 := (eq_append_trim hne).symm
  rw [← splitEol_eq_iff, Prod.ext_iff]
  exact ⟨hsame, by rw [hs]⟩

/-- A line that comes back after both passes has not been changed by either. -/
theorem revised_eq_self_of_recentered {above below : Option Line} (hlf : '\n' ∉ line)
    (h : Section.recentered token (Region.revised borders above below line) = line) :
    Region.revised borders above below line = line := by
  rcases Region.revised_cases borders above below line with he | ⟨_, _, -, -, -, hne, -, -⟩
  · exact he
  · exact eq_of_recentered_eq (Region.trim_revised _ _ _ _) hne (Region.not_mem_revised hlf) h

/-- A line of the result that is as it was has not been changed by the region pass either. -/
theorem getElem?_region_of_round (hlf : ∀ line ∈ lines, '\n' ∉ line) {j : Nat}
    (h : (round borders token lines)[j]? = lines[j]?) :
    (Region.centerLines borders lines).lines[j]? = lines[j]? := by
  obtain ⟨above, below, hr⟩ := Region.getElem?_centerLines borders lines j
  rw [getElem?_round, hr] at h
  rw [hr]
  cases hl : lines[j]? with
  | none => rfl
  | some line =>
    rw [hl] at h
    have hline := hlf line (List.mem_of_getElem? hl)
    rw [Option.map_some, revised_eq_self_of_recentered hline (by simpa using h)]

/-- A round leaves the lines as they are exactly if each pass does. -/
theorem round_eq_self_iff (hlf : ∀ line ∈ lines, '\n' ∉ line) :
    round borders token lines = lines ↔
      (Region.centerLines borders lines).lines = lines ∧
        (Section.centerLines token lines).lines = lines := by
  constructor
  · intro h
    have hr : (Region.centerLines borders lines).lines = lines := by
      apply List.ext_getElem?
      intro j
      exact getElem?_region_of_round hlf (by rw [h])
    refine ⟨hr, ?_⟩
    rwa [round, hr] at h
  · intro hx
    obtain ⟨hr, hs⟩ := hx
    rw [round, hr, hs]

/-- A second round leaves the lines as they are exactly if the first one has left every region title
in the middle, and no line for the section pass to change twice. -/
theorem round_round_eq_iff (hlf : ∀ line ∈ lines, '\n' ∉ line) :
    round borders token (round borders token lines) = round borders token lines ↔
      Region.AllCentered borders (round borders token lines) ∧
        Section.Steady token (Region.centerLines borders lines).lines := by
  rw [round_eq_self_iff (not_mem_round hlf), Region.lines_centerLines_eq_self_iff]
  refine and_congr_right fun _ => ?_
  exact Section.lines_centerLines_map_eq_self_iff (Region.not_mem_lines_centerLines hlf)

end Recenter.Banner
