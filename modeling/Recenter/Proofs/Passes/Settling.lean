import Mathlib.Order.WellFounded
import Mathlib.Logic.Function.Iterate
import Recenter.Proofs.Passes.Round

/-! Rounds repeated. The section pass changes the text between a line's tokens twice at most, and
that text does not depend on the outer blanks, which are all that the region pass changes. A line
whose text stands is put into its final place once the line above it stands. So the lines come to
rest one after the other from the top, and then no pass changes anything (`exists_settled`). -/

namespace Recenter.Banner

open Recenter.Text

variable {borders : Region.Borders} {token : Section.Token} {line : Line} {lines : List Line}

/-! ## The text of a line settles -/

/-- How often the section pass still changes a text between two tokens. -/
def innerUnrest (inner : List Char) : Nat :=
  if Section.recast inner = inner then 0
  else if Section.recast (Section.recast inner) = Section.recast inner then 1
  else 2

/-- How often the section pass may still change the text between the tokens of a line. -/
def unrest (token : Section.Token) (line : Line) : Nat :=
  innerUnrest (Section.heart token.text (splitEol line).1)

theorem innerUnrest_recast_lt {inner : List Char} (hb : Section.Bounded inner) (hlf : '\n' ∉ inner)
    (h : Section.recast inner ≠ inner) :
    innerUnrest (Section.recast inner) < innerUnrest inner := by
  unfold innerUnrest
  rw [if_neg h, Section.recast_recast_recast hb hlf, if_pos rfl]
  split
  · exact Nat.zero_lt_one
  · exact Nat.one_lt_two

theorem unrest_revised (borders : Region.Borders) (above below : Option Line) (line : Line) :
    unrest token (Region.revised borders above below line) = unrest token line := by
  unfold unrest
  rw [Section.heart_eq_of_trim_eq (Region.trim_revised borders above below line)]

/-- The section pass changes a line only if its text has not settled. -/
theorem unrest_recentered_lt (hlf : '\n' ∉ line) (h : Section.recentered token line ≠ line) :
    unrest token (Section.recentered token line) < unrest token line := by
  have hs := Section.splitEol_recentered token line
  have hbody : Section.centered token (splitEol line).1 ≠ (splitEol line).1 := by
    intro he
    rw [Section.recentered_eq, he, splitEol_append] at h
    exact h rfl
  rcases Section.centered_cases token (splitEol line).1 with ⟨opening, inner, closing, hf, he⟩ | he
  · have hin := hf.not_mem (not_mem_splitEol_fst hlf)
    have hb := Section.bounded_recast hf.bounded hin
    have hne : Section.recast inner ≠ inner := by
      intro hr
      rw [he, hr, ← hf.eq] at hbody
      exact hbody rfl
    unfold unrest
    rw [hs, he, hf.heart_eq, (hf.replace hb).heart_eq]
    exact innerUnrest_recast_lt hf.bounded hin hne
  · exact absurd he hbody

/-! ## A line below one that stands comes to rest -/

/-- What becomes of one line, round after round, while the line above it stays. -/
structure Course (borders : Region.Borders) (token : Section.Token) (above : Option Line)
    (course : Nat → Line) : Prop where
  lineFeed : ∀ k, '\n' ∉ course k
  step : ∀ k, ∃ below,
    course (k + 1) = Section.recentered token (Region.revised borders above below (course k))

namespace Course

variable {above : Option Line} {course : Nat → Line} (h : Course borders token above course)
include h

theorem unrest_antitone (k i : Nat) : unrest token (course (k + i)) ≤ unrest token (course k) := by
  induction i with
  | zero => exact Nat.le_refl _
  | succ i ih =>
    obtain ⟨below, hs⟩ := h.step (k + i)
    refine Nat.le_trans ?_ ih
    rw [← Nat.add_assoc, hs, ← unrest_revised borders above below (course (k + i))]
    by_cases hr : Section.recentered token (Region.revised borders above below (course (k + i))) =
        Region.revised borders above below (course (k + i))
    · rw [hr]
    · exact Nat.le_of_lt (unrest_recentered_lt (Region.not_mem_revised (h.lineFeed _)) hr)

/-- From some round on the section pass leaves the line alone. -/
theorem exists_settled_text : ∃ start, ∀ i, ∃ below,
    course (start + i + 1) = Region.revised borders above below (course (start + i)) := by
  obtain ⟨start, hmin⟩ : ∃ start, ∀ k, unrest token (course start) ≤ unrest token (course k) :=
    ⟨_, fun k => Function.argmin_le (fun k => unrest token (course k)) k⟩
  refine ⟨start, fun i => ?_⟩
  obtain ⟨below, hs⟩ := h.step (start + i)
  refine ⟨below, ?_⟩
  by_contra hne
  rw [hs] at hne
  have hlt := unrest_recentered_lt (Region.not_mem_revised (h.lineFeed (start + i))) hne
  rw [← hs, unrest_revised] at hlt
  have hle := h.unrest_antitone start i
  have hge := hmin (start + i + 1)
  omega

/-- Once its text has settled a line moves once at most: the place of its title depends on the line
above alone. -/
theorem exists_rest : ∃ start, ∀ i, course (start + i) = course start := by
  obtain ⟨start, hs⟩ := h.exists_settled_text
  by_cases hstay : ∀ i, course (start + i + 1) = course (start + i)
  · refine ⟨start, fun i => ?_⟩
    induction i with
    | zero => rfl
    | succ i ih => rw [← Nat.add_assoc, hstay, ih]
  obtain ⟨i, hi⟩ := not_forall.1 hstay
  obtain ⟨below, hb⟩ := hs i
  rcases Region.revised_cases borders above below (course (start + i)) with he |
    ⟨top, bottom, habove, -, -, hne, -, he⟩
  · exact absurd (hb.trans he) hi
  have hpad := hb.trans he
  have hsplit := Region.splitEol_pad_append (splitEol top).1.length hne
  rw [← hpad] at hsplit
  have htrim : trim (splitEol (course (start + i + 1))).1 =
      trim (splitEol (course (start + i))).1 := by
    rw [hsplit]
    exact Region.trim_pad (tight_trim _) _
  refine ⟨start + i + 1, fun j => ?_⟩
  induction j with
  | zero => rfl
  | succ j ih =>
    obtain ⟨below', hb'⟩ := hs (i + 1 + j)
    rw [← Nat.add_assoc, ← Nat.add_assoc, ih] at hb'
    rw [← Nat.add_assoc, hb']
    rcases Region.revised_cases borders above below' (course (start + i + 1)) with he' |
      ⟨top', bottom', habove', -, -, -, -, he'⟩
    · exact he'
    · -- the same title in the width of the same line above
      obtain rfl : top = top' := Option.some.inj (habove.symm.trans habove')
      rw [he', htrim, hsplit, hpad]

end Course

/-! ## Round after round -/

theorem length_iterate_round (k : Nat) :
    ((round borders token)^[k] lines).length = lines.length := by
  induction k with
  | zero => rfl
  | succ k ih => rw [Function.iterate_succ_apply', length_round, ih]

theorem not_mem_iterate_round (hlf : ∀ line ∈ lines, '\n' ∉ line) (k : Nat) :
    ∀ line ∈ (round borders token)^[k] lines, '\n' ∉ line := by
  induction k with
  | zero => exact hlf
  | succ k ih =>
    rw [Function.iterate_succ_apply']
    exact not_mem_round ih

def lineAbove (lines : List Line) : Nat → Option Line
  | 0 => none
  | j + 1 => lines[j]?

/-- Where the line above stays in a round, a line is revised below it and then recentered. -/
theorem exists_getElem?_round (hlf : ∀ line ∈ lines, '\n' ∉ line) {m : Nat}
    (h : lineAbove (round borders token lines) m = lineAbove lines m) :
    ∃ below, (round borders token lines)[m]? = lines[m]?.map fun line =>
      Section.recentered token (Region.revised borders (lineAbove lines m) below line) := by
  rw [getElem?_round]
  cases m with
  | zero =>
    refine ⟨none, ?_⟩
    rw [Region.getElem?_centerLines_zero]
    rfl
  | succ j =>
    refine ⟨lines[j + 2]?, ?_⟩
    rw [Region.getElem?_centerLines_succ, getElem?_region_of_round hlf h, Option.map_map]
    rfl

/-- A line comes to rest once the line above it stays. -/
theorem exists_rest_at (hlf : ∀ line ∈ lines, '\n' ∉ line) {m : Nat} (hm : m < lines.length)
    (h : ∀ k, lineAbove ((round borders token)^[k] lines) m = lineAbove lines m) :
    ∃ start, ∀ i, ((round borders token)^[start + i] lines)[m]? =
      ((round borders token)^[start] lines)[m]? := by
  have hsome : ∀ k, ∃ line, ((round borders token)^[k] lines)[m]? = some line := by
    intro k
    exact ⟨_, List.getElem?_eq_getElem (by rwa [length_iterate_round])⟩
  choose course hcourse using hsome
  have hc : Course borders token (lineAbove lines m) course := by
    refine ⟨fun k => ?_, fun k => ?_⟩
    · exact not_mem_iterate_round hlf k _ (List.mem_of_getElem? (hcourse k))
    · have hstay : lineAbove (round borders token ((round borders token)^[k] lines)) m =
          lineAbove ((round borders token)^[k] lines) m := by
        rw [← Function.iterate_succ_apply' (round borders token), h, h]
      obtain ⟨below, hb⟩ := exists_getElem?_round (not_mem_iterate_round hlf k) hstay
      rw [← Function.iterate_succ_apply' (round borders token), hcourse, hcourse, h] at hb
      exact ⟨below, Option.some.inj hb⟩
  obtain ⟨start, hrest⟩ := hc.exists_rest
  refine ⟨start, fun i => ?_⟩
  rw [hcourse, hcourse, hrest]

/-- The first lines come to rest, however many of them. -/
theorem exists_rest_of_first (borders : Region.Borders) (token : Section.Token)
    (hlf : ∀ line ∈ lines, '\n' ∉ line) {m : Nat} (hm : m ≤ lines.length) :
    ∃ start, ∀ i, ∀ j < m, ((round borders token)^[start + i] lines)[j]? =
      ((round borders token)^[start] lines)[j]? := by
  induction m with
  | zero => exact ⟨0, fun i j hj => absurd hj (Nat.not_lt_zero j)⟩
  | succ m ih =>
    obtain ⟨start, hs⟩ := ih (Nat.le_of_succ_le hm)
    have habove : ∀ k,
        lineAbove ((round borders token)^[k] ((round borders token)^[start] lines)) m =
          lineAbove ((round borders token)^[start] lines) m := by
      intro k
      rw [← Function.iterate_add_apply, Nat.add_comm]
      cases m with
      | zero => rfl
      | succ j => exact hs k j (Nat.lt_succ_self j)
    obtain ⟨rest, hrest⟩ := exists_rest_at (not_mem_iterate_round hlf start)
      (by rw [length_iterate_round]; exact hm) habove
    refine ⟨start + rest, fun i j hj => ?_⟩
    rcases Nat.lt_succ_iff_lt_or_eq.1 hj with hj | rfl
    · rw [Nat.add_assoc, hs _ j hj, hs _ j hj]
    · rw [Nat.add_assoc, Nat.add_comm start, Nat.add_comm start,
        Function.iterate_add_apply _ (rest + i), Function.iterate_add_apply _ rest start]
      exact hrest i

/-- Rounds do not go on forever: after finitely many of them neither pass changes a line. -/
theorem exists_settled (borders : Region.Borders) (token : Section.Token) (lines : List Line)
    (hlf : ∀ line ∈ lines, '\n' ∉ line) :
    ∃ n, Region.centerLines borders ((round borders token)^[n] lines) =
        ⟨(round borders token)^[n] lines, false⟩ ∧
      Section.centerLines token ((round borders token)^[n] lines) =
        ⟨(round borders token)^[n] lines, false⟩ := by
  obtain ⟨start, hs⟩ := exists_rest_of_first borders token hlf (Nat.le_refl lines.length)
  refine ⟨start, ?_⟩
  rw [region_eq_iff, section_eq_iff, ← round_eq_self_iff (not_mem_iterate_round hlf start)]
  apply List.ext_getElem?
  intro j
  rw [← Function.iterate_succ_apply' (round borders token)]
  by_cases hj : j < lines.length
  · exact hs 1 j hj
  · rw [List.getElem?_eq_none_iff.2, List.getElem?_eq_none_iff.2]
    all_goals rw [length_iterate_round]; exact Nat.le_of_not_lt hj

/-- A section banner between two borders: the section pass widens the title that the region pass has
placed, and yet both come to rest. -/
theorem exists_settled_crossing :
    let lines := ["<==================".toList, "// ----Foo---- //".toList, ">".toList]
    (∀ line ∈ lines, '\n' ∉ line) ∧
      ∃ n, Region.centerLines ⟨['<'], ['>']⟩ ((round ⟨['<'], ['>']⟩ .slashes)^[n] lines) =
          ⟨(round ⟨['<'], ['>']⟩ .slashes)^[n] lines, false⟩ ∧
        Section.centerLines .slashes ((round ⟨['<'], ['>']⟩ .slashes)^[n] lines) =
          ⟨(round ⟨['<'], ['>']⟩ .slashes)^[n] lines, false⟩ := by
  intro lines
  have hlf : ∀ line ∈ lines, '\n' ∉ line := by decide
  exact ⟨hlf, exists_settled ⟨['<'], ['>']⟩ .slashes lines hlf⟩

end Recenter.Banner
