import Recenter.Banner.Region
import Recenter.Proofs.Text.Line
import Recenter.Proofs.Text.Trim

/-! The region pass line by line. Each line is revised once, between the line above as the pass
left it and the line below as it was (`getElem?_centerLines_succ`). A revised line keeps its trimmed
text and its end, so what the pass changes are outer blanks, and it reports a change exactly if a
line differs. -/

namespace Recenter.Banner.Region

open Recenter.Text

variable {borders : Borders} {top middle bottom line : Line} {lines below : List Line}

/-- A title with spaces on both sides, in `width` columns if it has no more of them. -/
def pad (width : Nat) (title : List Char) : List Char :=
  List.replicate ((width - title.length) / 2) ' ' ++ title ++
    List.replicate (width - title.length - (width - title.length) / 2) ' '

/-- The line between two others after the pass. A line at either end of the text has no second
neighbour, and stays. -/
def revised (borders : Borders) (above below : Option Line) (line : Line) : Line :=
  match above, below with
  | some top, some bottom => (recenter? borders top line bottom).getD line
  | _, _ => line

/-! ## One title -/

theorem trim_pad {title : List Char} (ht : Tight title) (width : Nat) :
    trim (pad width title) = title := by
  unfold pad
  rw [trim_append_of_blank (blank_replicate _) (blank_replicate _), ht.trim_eq]

theorem length_pad {width : Nat} {title : List Char} (h : title.length ≤ width) :
    (pad width title).length = width := by
  simp only [pad, List.length_append, List.length_replicate]
  omega

theorem getLast?_pad {width : Nat} {title : List Char} (ht : Tight title) (hne : title ≠ []) :
    (pad width title).getLast? ≠ some '\r' := by
  intro h
  unfold pad at h
  by_cases hr : List.replicate (width - title.length - (width - title.length) / 2) ' ' = []
  · rw [hr, List.append_nil, List.getLast?_append_of_ne_nil _ hne] at h
    have hblank := ht.last _ h
    revert hblank
    decide
  · rw [List.getLast?_append_of_ne_nil _ hr] at h
    have hc := List.eq_of_mem_replicate (List.mem_of_getLast? h)
    revert hc
    decide

theorem not_mem_pad {width : Nat} {title : List Char} (h : '\n' ∉ title) :
    '\n' ∉ pad width title := by
  simp [pad, h]

theorem not_mem_trim {s : List Char} {c : Char} (h : c ∉ s) : c ∉ trim s := by
  intro hc
  apply h
  have hd := (dropEndWhile_isPrefix isBlank (s.dropWhile isBlank)).subset hc
  exact (List.dropWhile_suffix isBlank).subset hd

theorem centerTitle?_eq (body : Line) (width : Nat) :
    centerTitle? body width =
      if trim body = [] ∨ width < (trim body).length then none
      else some (pad width (trim body)) := by
  unfold centerTitle?
  simp only [Bool.or_eq_true, List.isEmpty_iff, decide_eq_true_eq]
  rfl

theorem isCandidate_iff :
    isCandidate borders top bottom = true ↔
      borders.top <+: (splitEol top).1 ∧ borders.bottom <+: (splitEol bottom).1 := by
  rw [isCandidate, Bool.and_eq_true, List.isPrefixOf_iff_prefix, List.isPrefixOf_iff_prefix]

theorem recenter?_eq (borders : Borders) (top middle bottom : Line) :
    recenter? borders top middle bottom =
      if isCandidate borders top bottom = true ∧ trim (splitEol middle).1 ≠ [] ∧
          (trim (splitEol middle).1).length ≤ (splitEol top).1.length ∧
          pad (splitEol top).1.length (trim (splitEol middle).1) ≠ (splitEol middle).1 then
        some (pad (splitEol top).1.length (trim (splitEol middle).1) ++ (splitEol middle).2)
      else none := by
  unfold recenter?
  by_cases hc : isCandidate borders top bottom = true
  · rw [if_pos hc]
    simp only [centerTitle?_eq]
    by_cases ht : trim (splitEol middle).1 = [] ∨
        (splitEol top).1.length < (trim (splitEol middle).1).length
    · rw [if_pos ht, if_neg]
      intro hx
      obtain ⟨-, hne, hle, -⟩ := hx
      rcases ht with ht | ht
      exacts [hne ht, absurd ht (Nat.not_lt.2 hle)]
    · rw [not_or, Nat.not_lt] at ht
      rw [if_neg (by rw [not_or, Nat.not_lt]; exact ht)]
      by_cases hp : pad (splitEol top).1.length (trim (splitEol middle).1) = (splitEol middle).1
      · simp [hp]
      · simp [hc, ht.1, ht.2, hp]
  · rw [if_neg hc, if_neg fun h => hc h.1]

/-- A line that is revised is the padded title of a banner. -/
theorem revised_cases (borders : Borders) (above below : Option Line) (line : Line) :
    revised borders above below line = line ∨
      ∃ top bottom, above = some top ∧ below = some bottom ∧ isCandidate borders top bottom = true ∧
        trim (splitEol line).1 ≠ [] ∧ (trim (splitEol line).1).length ≤ (splitEol top).1.length ∧
        revised borders above below line =
          pad (splitEol top).1.length (trim (splitEol line).1) ++ (splitEol line).2 := by
  match above, below with
  | some top, some bottom =>
    simp only [revised, recenter?_eq]
    split
    · next h => exact .inr ⟨top, bottom, rfl, rfl, h.1, h.2.1, h.2.2.1, rfl⟩
    · exact .inl rfl
  | none, _ => exact .inl rfl
  | some _, none => exact .inl rfl

/-- Between two lines that are not both borders nothing is revised. -/
theorem revised_eq_id {above below : Option Line}
    (h : ∀ top bottom, above = some top → below = some bottom →
      ¬ isCandidate borders top bottom = true) : revised borders above below = id := by
  funext line
  rcases revised_cases borders above below line with he | ⟨top, bottom, ht, hb, hc, -⟩
  · exact he
  · exact absurd hc (h top bottom ht hb)

theorem splitEol_pad_append (width : Nat) (h : trim (splitEol line).1 ≠ []) :
    splitEol (pad width (trim (splitEol line).1) ++ (splitEol line).2) =
      (pad width (trim (splitEol line).1), (splitEol line).2) :=
  splitEol_append_eol fun _ => getLast?_pad (tight_trim _) h

theorem splitEol_revised_snd (borders : Borders) (above below : Option Line) (line : Line) :
    (splitEol (revised borders above below line)).2 = (splitEol line).2 := by
  rcases revised_cases borders above below line with he | ⟨_, _, -, -, -, hne, -, he⟩
  · rw [he]
  · rw [he, splitEol_pad_append _ hne]

theorem trim_revised (borders : Borders) (above below : Option Line) (line : Line) :
    trim (splitEol (revised borders above below line)).1 = trim (splitEol line).1 := by
  rcases revised_cases borders above below line with he | ⟨_, _, -, -, -, hne, -, he⟩
  · rw [he]
  · rw [he, splitEol_pad_append _ hne]
    exact trim_pad (tight_trim _) _

theorem not_mem_revised {above below : Option Line} (hlf : '\n' ∉ line) :
    '\n' ∉ revised borders above below line := by
  rcases revised_cases borders above below line with he | ⟨_, _, -, -, -, -, -, he⟩
  · rwa [he]
  · rw [he]
    exact not_mem_append_eol hlf (not_mem_pad (not_mem_trim (not_mem_splitEol_fst hlf)))

theorem recenter?_ne {middle' : Line} (h : recenter? borders top middle bottom = some middle') :
    middle' ≠ middle := by
  rw [recenter?_eq] at h
  split at h
  · next hc =>
    cases h
    intro he
    have hs := splitEol_pad_append (splitEol top).1.length hc.2.1
    rw [he] at hs
    exact hc.2.2.2 (congrArg Prod.fst hs).symm
  · cases h

/-! ## All lines -/

theorem slide_cons_cons (borders : Borders) (top middle bottom : Line) (rest : List Line) :
    slide borders top (middle :: bottom :: rest) =
      let under := slide borders (revised borders (some top) (some bottom) middle) (bottom :: rest)
      ⟨top :: under.lines, (recenter? borders top middle bottom).isSome || under.changed⟩ := by
  rw [slide]
  cases h : recenter? borders top middle bottom <;> simp [revised, h]

theorem getElem?_slide_zero (borders : Borders) (top : Line) (below : List Line) :
    (slide borders top below).lines[0]? = some top := by
  unfold slide
  split
  · split <;> rfl
  · rfl

theorem getElem?_slide_succ (borders : Borders) (top : Line) (below : List Line) (j : Nat) :
    (slide borders top below).lines[j + 1]? =
      below[j]?.map (revised borders (slide borders top below).lines[j]? below[j + 1]?) := by
  induction below generalizing top j with
  | nil => simp [slide]
  | cons middle below ih =>
    cases below with
    | nil =>
      cases j with
      | zero => simp [slide, revised]
      | succ j => simp [slide]
    | cons bottom rest =>
      simp only [slide_cons_cons, List.getElem?_cons_succ]
      cases j with
      | zero => simp [getElem?_slide_zero]
      | succ j => simpa using ih (revised borders (some top) (some bottom) middle) j

theorem getElem?_centerLines_zero (borders : Borders) (lines : List Line) :
    (centerLines borders lines).lines[0]? = lines[0]? := by
  cases lines with
  | nil => rfl
  | cons top below => simp [centerLines, getElem?_slide_zero]

/-- A line is revised between the one above as the pass left it and the one below as it was. -/
theorem getElem?_centerLines_succ (borders : Borders) (lines : List Line) (j : Nat) :
    (centerLines borders lines).lines[j + 1]? =
      lines[j + 1]?.map (revised borders (centerLines borders lines).lines[j]? lines[j + 2]?) := by
  cases lines with
  | nil => rfl
  | cons top below => simpa [centerLines] using getElem?_slide_succ borders top below j

/-- Whatever the pass makes of a line, it is the line revised between some neighbours. -/
theorem getElem?_centerLines (borders : Borders) (lines : List Line) (j : Nat) :
    ∃ above below, (centerLines borders lines).lines[j]? =
      lines[j]?.map (revised borders above below) := by
  cases j with
  | zero =>
    refine ⟨none, none, ?_⟩
    have hid : revised borders none none = id := rfl
    rw [getElem?_centerLines_zero, hid, Option.map_id_fun, id]
  | succ j => exact ⟨_, _, getElem?_centerLines_succ borders lines j⟩

theorem length_centerLines (borders : Borders) (lines : List Line) :
    (centerLines borders lines).lines.length = lines.length := by
  have key : ∀ j : Nat, (centerLines borders lines).lines[j]? = none ↔ lines[j]? = none := by
    intro j
    obtain ⟨above, below, h⟩ := getElem?_centerLines borders lines j
    rw [h, Option.map_eq_none_iff]
  simp only [List.getElem?_eq_none_iff] at key
  exact Nat.le_antisymm ((key _).2 (Nat.le_refl _)) ((key _).1 (Nat.le_refl _))

theorem not_mem_lines_centerLines (hlf : ∀ line ∈ lines, '\n' ∉ line) :
    ∀ line ∈ (centerLines borders lines).lines, '\n' ∉ line := by
  intro line hm
  obtain ⟨j, hj⟩ := List.getElem?_of_mem hm
  obtain ⟨above, below, h⟩ := getElem?_centerLines borders lines j
  rw [h] at hj
  obtain ⟨line', hl, rfl⟩ := Option.map_eq_some_iff.1 hj
  exact not_mem_revised (hlf line' (List.mem_of_getElem? hl))

theorem changed_slide_iff (borders : Borders) (top : Line) (below : List Line) :
    (slide borders top below).changed = true ↔ (slide borders top below).lines ≠ top :: below := by
  induction below generalizing top with
  | nil => simp [slide]
  | cons middle below ih =>
    cases below with
    | nil => simp [slide]
    | cons bottom rest =>
      rw [slide_cons_cons]
      simp only [ne_eq, List.cons.injEq, true_and]
      cases h : recenter? borders top middle bottom with
      | none => simpa [revised, h] using ih middle
      | some middle' =>
        simp only [revised, h, Option.isSome_some, Bool.true_or, Option.getD_some, true_iff]
        intro he
        have hhead := getElem?_slide_zero borders middle' (bottom :: rest)
        rw [he] at hhead
        exact recenter?_ne h (by simpa using hhead.symm)

/-- The pass reports a change exactly if a line differs. -/
theorem changed_centerLines_iff (borders : Borders) (lines : List Line) :
    (centerLines borders lines).changed = true ↔ (centerLines borders lines).lines ≠ lines := by
  cases lines with
  | nil => simp [centerLines]
  | cons top below => exact changed_slide_iff borders top below

/-! ## Lines that stay -/

/-- If the outer two lines are borders, the one between them holds its title in the middle of the
upper border's width, or holds none, or one that is wider. -/
def IsCentered (borders : Borders) (top middle bottom : Line) : Prop :=
  isCandidate borders top bottom = true → trim (splitEol middle).1 ≠ [] →
    (trim (splitEol middle).1).length ≤ (splitEol top).1.length →
      (splitEol middle).1 = pad (splitEol top).1.length (trim (splitEol middle).1)

def AllCentered (borders : Borders) (lines : List Line) : Prop :=
  ∀ (j : Nat) (top middle bottom : Line), lines[j]? = some top → lines[j + 1]? = some middle →
    lines[j + 2]? = some bottom → IsCentered borders top middle bottom

theorem revised_eq_self_iff :
    revised borders (some top) (some bottom) middle = middle ↔
      IsCentered borders top middle bottom := by
  rw [revised]
  cases h : recenter? borders top middle bottom with
  | none =>
    rw [recenter?_eq] at h
    simp only [Option.getD_none, true_iff]
    intro hc hne hle
    by_contra hp
    rw [if_pos ⟨hc, hne, hle, Ne.symm hp⟩] at h
    cases h
  | some middle' =>
    have hne := recenter?_ne h
    rw [recenter?_eq] at h
    rw [Option.getD_some]
    refine ⟨fun he => absurd he hne, fun hcentered => ?_⟩
    split at h
    · next hc => exact absurd (hcentered hc.1 hc.2.1 hc.2.2.1).symm hc.2.2.2
    · cases h

/-- The pass leaves the lines as they are exactly if each of them is centered. -/
theorem lines_centerLines_eq_self_iff :
    (centerLines borders lines).lines = lines ↔ AllCentered borders lines := by
  constructor
  · intro h j top middle bottom htop hmiddle hbottom
    have hj := getElem?_centerLines_succ borders lines j
    rw [h, htop, hmiddle, hbottom, Option.map_some] at hj
    exact revised_eq_self_iff.1 (Option.some.inj hj).symm
  · intro h
    apply List.ext_getElem?
    intro j
    induction j with
    | zero => exact getElem?_centerLines_zero borders lines
    | succ j ih =>
      rw [getElem?_centerLines_succ, ih]
      cases hmiddle : lines[j + 1]? with
      | none => rfl
      | some middle =>
        rw [Option.map_some]
        cases htop : lines[j]? with
        | none => rfl
        | some top =>
          cases hbottom : lines[j + 2]? with
          | none => rfl
          | some bottom =>
            rw [revised_eq_self_iff.2 (h j top middle bottom htop hmiddle hbottom)]

end Recenter.Banner.Region

namespace Recenter.Banner

open Recenter.Text

theorem region_eq_iff {borders : Region.Borders} {lines : List Line} :
    Region.centerLines borders lines = ⟨lines, false⟩ ↔
      (Region.centerLines borders lines).lines = lines :=
  Revision.eq_unchanged_iff (Region.changed_centerLines_iff borders lines)

end Recenter.Banner
