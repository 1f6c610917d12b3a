import Recenter.Proofs.Section.Pass

/-! Dividers: lines with dashes and blanks between their tokens, and no title. One run of dashes is
read as a divider, and so are two of which the second is longer than one dash, and three. In every
other text a title is found (`centerLine?_eq_none_iff_titleless`): in two runs of which the second
is one dash the last blank of the gap, and in four or more the inner runs with the gaps between
them. Behind a blank that is taken for a title the pass puts a space, which the next pass takes for
the title in its place. So a second pass changes nothing exactly if between two single dashes the
last blank is always a space, and a third one never does (`centerLines_again_iff_steady`). -/

namespace Recenter.Banner.Section

open Recenter.Text

variable {token : Token} {left gap middle gap' right title inner : List Char}
  {line opening closing : Line} {lines : List Line}

/-! ## Texts without a title -/

/-- One run of dashes, two of which the second is longer than one dash, or three. -/
inductive Titleless : List Char → Prop
  | one {s : List Char} : Dashes s → Titleless s
  | two {left gap right : List Char} : Dashes left → left ≠ [] → Blank gap → gap ≠ [] →
      Dashes right → right ≠ [] → Titleless (left ++ gap ++ '-' :: right)
  | three {left gap middle gap' right : List Char} : Dashes left → left ≠ [] → Blank gap →
      gap ≠ [] → Dashes middle → middle ≠ [] → Blank gap' → gap' ≠ [] → Dashes right → right ≠ [] →
      Titleless (left ++ gap ++ middle ++ gap' ++ right)

/-- The middle one of three runs is between the outer ones as a title is. -/
theorem isTitled_dashes (hl : Dashes left) (hl' : left ≠ []) (hg : Blank gap) (hg' : gap ≠ [])
    (hm : Dashes middle) (hm' : middle ≠ []) (ha : Blank gap') (ha' : gap' ≠ [])
    (hr : Dashes right) (hr' : right ≠ []) : IsTitled left gap middle gap' right where
  dashes_left := hl
  left_ne_nil := hl'
  blank_before := hg
  tight := (hm.bounded hm').tight
  title_ne_nil := hm'
  blank_after := ha
  dashes_right := hr
  right_ne_nil := hr'
  head_ne h := absurd h hg'
  last_ne h := absurd h ha'

/-- What is found in such a text consists of dashes. -/
theorem Titleless.all_isDash (h : Titleless inner)
    (hi : inner? inner = some (left, title, right)) : title.all isDash = true := by
  cases h with
  | one hd => exact List.all_eq_true.2 fun c hc => hd c (mem_of_inner? hi c hc)
  | two hl hl' hg hg' hr hr' =>
    rw [inner?_gap_more hl hl' hg hg' hr hr'] at hi
    cases hi
    rfl
  | three hl hl' hg hg' hm hm' ha ha' hr hr' =>
    have hlf : '\n' ∉ _ := fun hc => absurd (hm '\n' hc) (by decide)
    rw [inner?_titled (isTitled_dashes hl hl' hg hg' hm hm' ha ha' hr hr') hlf] at hi
    cases hi
    exact List.all_eq_true.2 hm

theorem Titleless.recast_eq (h : Titleless inner) : recast inner = inner := by
  unfold recast
  split
  · next hi => rw [if_pos (h.all_isDash hi)]
  · rfl

/-- Every text in which no title is found is of this form: the other shapes have one. -/
theorem titleless_of_inner? (hb : Bounded inner) (hlf : '\n' ∉ inner)
    (h : ∀ left title right, inner? inner = some (left, title, right) → title.all isDash = true) :
    Titleless inner := by
  cases shape_of_bounded hb with
  | @titled left before title after right ht =>
    have hdashes : Dashes title :=
      List.all_eq_true.1 (h _ _ _ (inner?_titled ht fun hm => hlf (by simp [hm])))
    refine .three ht.dashes_left ht.left_ne_nil ht.blank_before (fun hn => ?_) hdashes
      ht.title_ne_nil ht.blank_after (fun hn => ?_) ht.dashes_right ht.right_ne_nil
    · exact ht.head_ne hn (hdashes.head ht.title_ne_nil)
    · exact ht.last_ne hn (hdashes.last ht.title_ne_nil)
  | @gap left gap right hl hl' hg hg' hr hr' =>
    rcases gap_cases hg' hr hr' with ⟨gap, c, rfl, rfl⟩ | ⟨right, rfl, hr, hr'⟩
    · have hclf : c ≠ '\n' := by
        rintro rfl
        exact hlf (by simp)
      -- the last blank of the gap is no dash
      have hdash := h _ _ _ (inner?_gap_one hl hl' hg hclf)
      simp [isDash_of_isBlank (hg c (by simp))] at hdash
    · exact .two hl hl' hg hg' hr hr'
  | rule hd => exact .one hd

/-! ## Lines without a title -/

/-- A line in a frame is no banner exactly if no title stands in its frame. -/
theorem centerLine?_framed_eq_none_iff (hf : Framed token.text line opening inner closing)
    (hlf : '\n' ∉ line) : centerLine? token line = none ↔ Titleless inner := by
  rw [centerLine?, Option.map_eq_none_iff, split?_framed hf, Option.filter_eq_none_iff]
  constructor
  · intro h
    refine titleless_of_inner? hf.bounded (hf.not_mem hlf) fun left title right hi => ?_
    simpa using h ⟨opening, left, title, right, closing⟩ (by rw [hi, Option.map_some])
  · intro h p hp
    obtain ⟨⟨left, title, right⟩, hi, rfl⟩ := Option.map_eq_some_iff.1 hp
    simpa using h.all_isDash hi

theorem Framed.append_blank {token s opening inner closing trail : List Char}
    (h : Framed token s opening inner closing) (ht : Blank trail) :
    Framed token (s ++ trail) opening inner (closing ++ trail) := by
  obtain ⟨gap, trail', hg, hne, ht', hc⟩ := h.closing
  refine ⟨by simp [h.eq], h.opening, ⟨gap, trail' ++ trail, hg, hne, ht'.append ht, ?_⟩, h.bounded⟩
  rw [hc, List.append_assoc]

/-- The pass leaves a line alone in whose frame there is no title, whether the line's end belongs to
the closing's blanks or to the token. -/
theorem Titleless.recentered_eq_self (h : Titleless inner)
    (hf : Framed token.text line opening inner closing) : recentered token line = line := by
  have hbody : centered token (splitEol line).1 = (splitEol line).1 := by
    rcases centered_cases token (splitEol line).1 with ⟨opening', inner', closing', hf', he⟩ | he
    · have hline := hf'.append_blank (blank_splitEol_snd line)
      rw [splitEol_append] at hline
      obtain ⟨-, rfl, -⟩ := hf.unique hline
      rw [he, h.recast_eq, ← hf'.eq]
    · exact he
  rw [recentered_eq, hbody, splitEol_append]

/-- A line is read as a divider exactly if it has one run of dashes between its tokens, two of which
the second is longer than one dash, or three; and then the pass leaves it as it is. -/
theorem centerLine?_eq_none_iff_titleless (token : Token) (line opening inner closing : Line)
    (hf : Framed token.text line opening inner closing) (hlf : '\n' ∉ line) :
    (centerLine? token line = none ↔ Titleless inner) ∧
      (Titleless inner → ∀ (lines : List Line) (j : Nat), lines[j]? = some line →
        (centerLines token lines).lines[j]? = some line) := by
  refine ⟨centerLine?_framed_eq_none_iff hf hlf, fun h lines j hj => ?_⟩
  rw [lines_centerLines, List.getElem?_map, hj, Option.map_some, h.recentered_eq_self hf]

theorem centerLine?_eq_none_iff_titleless_runs :
    let line := "  // --  - ---- //\r".toList
    Framed Token.slashes.text line "  // ".toList "--  - ----".toList " //\r".toList ∧
      '\n' ∉ line ∧ Titleless "--  - ----".toList ∧ centerLine? .slashes line = none ∧
      (centerLines .slashes ["// - d --- //".toList, line]).lines[1]? = some line := by
  intro line
  have hf : Framed Token.slashes.text line "  // ".toList "--  - ----".toList " //\r".toList :=
    ⟨rfl, ⟨"  ".toList, [' '], blank_replicate 2, blank_replicate 1, by decide, rfl⟩,
      ⟨[' '], ['\r'], blank_replicate 1, by decide, by simp [Blank, isBlank], rfl⟩, rfl, rfl⟩
  have ht : Titleless "--  - ----".toList :=
    .three (dashes_replicate 2) (by decide) (blank_replicate 2) (by decide) (dashes_replicate 1)
      (by decide) (blank_replicate 1) (by decide) (dashes_replicate 4) (by decide)
  have hlf : '\n' ∉ line := by decide
  obtain ⟨hnone, hstays⟩ := centerLine?_eq_none_iff_titleless _ _ _ _ _ hf hlf
  exact ⟨hf, hlf, ht, hnone.2 ht, hstays ht _ 1 rfl⟩

/-- Two single dashes: the blank between them is taken for a title. -/
theorem centerLine?_two_dashes :
    Framed Token.slashes.text "// - - //".toList "// ".toList "- -".toList " //".toList ∧
      (∀ c ∈ "- -".toList, isBlank c = true ∨ isDash c = true) ∧ '\n' ∉ "// - - //".toList ∧
      centerLine? .slashes "// - - //".toList = some "// -   - //".toList ∧
      (centerLines .slashes ["// - - //".toList]).lines = ["// -   - //".toList] := by
  have hf : Framed Token.slashes.text "// - - //".toList "// ".toList "- -".toList " //".toList :=
    ⟨rfl, ⟨[], [' '], Blank.nil, blank_replicate 1, by decide, rfl⟩,
      ⟨[' '], [], blank_replicate 1, by decide, Blank.nil, rfl⟩, rfl, rfl⟩
  exact ⟨hf, by simp [isBlank, isDash], by decide +kernel⟩

/-! ## A second pass -/

theorem not_wavers_recast (hb : Bounded inner) (hlf : '\n' ∉ inner) : ¬ Wavers (recast inner) :=
  (recast_recast_iff (bounded_recast hb hlf) (not_mem_recast hlf)).1 (recast_recast_recast hb hlf)

/-- After one pass no line wavers. -/
theorem steady_centerLines (hlf : ∀ line ∈ lines, '\n' ∉ line) :
    Steady token (centerLines token lines).lines := by
  intro line hm opening inner closing hf
  obtain ⟨line, hline, rfl⟩ := List.mem_map.1 hm
  have hbody := not_mem_splitEol_fst (hlf line hline)
  change Framed token.text (splitEol (recentered token line)).1 opening inner closing at hf
  rw [splitEol_recentered] at hf
  rcases centered_cases token (splitEol line).1 with ⟨opening', inner', closing', hf', he⟩ | he
  · have hin := hf'.not_mem hbody
    rw [he] at hf
    obtain ⟨-, rfl, -⟩ := hf.unique (hf'.replace (bounded_recast hf'.bounded hin))
    exact not_wavers_recast hf'.bounded hin
  · rw [he] at hf
    have hstays := centered_framed hf
    rw [he, hf.eq, List.append_cancel_right_eq, List.append_cancel_left_eq] at hstays
    have hnot := not_wavers_recast hf.bounded (hf.not_mem hbody)
    rwa [← hstays] at hnot

/-- A second pass changes nothing exactly if no line holds two single dashes around a gap whose last
blank is no space, and a third pass never changes anything. -/
theorem centerLines_again_iff_steady (token : Token) (lines : List Line)
    (hlf : ∀ line ∈ lines, '\n' ∉ line) :
    (centerLines token (centerLines token lines).lines = ⟨(centerLines token lines).lines, false⟩ ↔
        Steady token lines) ∧
      centerLines token (centerLines token (centerLines token lines).lines).lines =
        ⟨(centerLines token (centerLines token lines).lines).lines, false⟩ := by
  rw [section_eq_iff, section_eq_iff]
  exact ⟨lines_centerLines_map_eq_self_iff hlf,
    (lines_centerLines_map_eq_self_iff (not_mem_lines_centerLines hlf)).2 (steady_centerLines hlf)⟩

/-- The last blank of the gap decides: a space stays a space, and a tab is replaced by one. -/
theorem centerLines_again_iff_steady_gap :
    (∀ line ∈ ["// -\t - //".toList], '\n' ∉ line) ∧ Steady .slashes ["// -\t - //".toList] ∧
      (∀ line ∈ ["// - \t- //".toList], '\n' ∉ line) ∧
      ¬ Steady .slashes ["// - \t- //".toList] := by
  have hspace : ∀ line ∈ ["// -\t - //".toList], '\n' ∉ line := by decide
  have htab : ∀ line ∈ ["// - \t- //".toList], '\n' ∉ line := by decide
  refine ⟨hspace, (centerLines_again_iff_steady .slashes _ hspace).1.1 (by decide +kernel), htab,
    fun h => ?_⟩
  have hagain := (centerLines_again_iff_steady .slashes _ htab).1.2 h
  revert hagain
  decide +kernel

theorem centerLines_again_tab :
    (∀ line ∈ ["// -\t- //".toList], '\n' ∉ line) ∧
      centerLines .slashes ["// -\t- //".toList] = ⟨["// - \t - //".toList], true⟩ ∧
      centerLines .slashes (centerLines .slashes ["// -\t- //".toList]).lines =
        ⟨["// -   - //".toList], true⟩ := by
  decide +kernel

end Recenter.Banner.Section
