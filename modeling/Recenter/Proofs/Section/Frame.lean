import Recenter.Banner.Section
import Recenter.Proofs.Text.Trim

/-! The comment tokens around a section banner. An opening is blanks, the token and at least one
blank, a closing the same read backwards, and what stands between them begins and ends with a dash.
A line can be framed in one way only: the token begins at the first character that is no blank, and
the gap behind it ends at the dash. So `split?` reads the frame that is there
(`split?_eq_some_iff`), and what stands in the frame depends on the trimmed line alone
(`heart_eq_of_trim_eq`). -/

namespace Recenter.Banner.Section

open Recenter.Text

variable {token line opening closing inner rest : List Char}

/-- Blanks, the token and at least one blank. -/
def IsOpening (token opening : List Char) : Prop :=
  ∃ indent gap, Blank indent ∧ Blank gap ∧ gap ≠ [] ∧ opening = indent ++ token ++ gap

/-- At least one blank, the token and blanks. -/
def IsClosing (token closing : List Char) : Prop :=
  ∃ gap trail, Blank gap ∧ gap ≠ [] ∧ Blank trail ∧ closing = gap ++ token ++ trail

/-- What may stand between an opening and a closing: it begins and ends with a dash. -/
structure Bounded (inner : List Char) : Prop where
  head : inner.head? = some '-'
  last : inner.getLast? = some '-'

/-- A line with comment tokens around a text that begins and ends with a dash. -/
structure Framed (token line opening inner closing : List Char) : Prop where
  eq : line = opening ++ inner ++ closing
  opening : IsOpening token opening
  closing : IsClosing token closing
  bounded : Bounded inner

theorem isBlank_dash : isBlank '-' = false := by decide

theorem head_not_blank (h : rest.head? = some '-') :
    ∀ c, rest.head? = some c → isBlank c = false := by
  intro c hc
  rw [h] at hc
  cases hc
  exact isBlank_dash

theorem isOpening_reverse_iff :
    IsOpening token.reverse closing.reverse ↔ IsClosing token closing := by
  constructor
  · intro hx
    obtain ⟨trail, gap, ht, hg, hne, h⟩ := hx
    refine ⟨gap.reverse, trail.reverse, hg.reverse, by simpa using hne, ht.reverse, ?_⟩
    simpa using congrArg List.reverse h
  · intro hx
    obtain ⟨gap, trail, hg, hne, ht, rfl⟩ := hx
    exact ⟨trail.reverse, gap.reverse, ht.reverse, hg.reverse, by simpa using hne, by simp⟩

namespace Bounded

theorem tight (h : Bounded inner) : Tight inner where
  head := head_not_blank h.head
  last c hc := by
    rw [h.last] at hc
    cases hc
    exact isBlank_dash

theorem reverse (h : Bounded inner) : Bounded inner.reverse :=
  ⟨by simpa using h.last, by simpa using h.head⟩

theorem head_append (h : Bounded inner) (s : List Char) : (inner ++ s).head? = some '-' := by
  rw [List.head?_append, h.head, Option.some_or]

theorem last_append (h : Bounded inner) (s : List Char) : (s ++ inner).getLast? = some '-' := by
  rw [List.getLast?_append, h.last, Option.some_or]

end Bounded

/-! ## One frame for each line -/

/-- What follows the token and the gap behind it, if the token is the first thing in a text. -/
def front (token s : List Char) : List Char :=
  ((s.dropWhile isBlank).drop (token.dropWhile isBlank).length).dropWhile isBlank

theorem front_dropWhile (token s : List Char) :
    front token (s.dropWhile isBlank) = front token s := by
  unfold front
  rw [List.dropWhile_idempotent]

/-- A token of blanks leaves only the gap in front of the dash, and any other begins at the first
character that is no blank. -/
theorem front_opening (ho : IsOpening token opening) (hr : rest.head? = some '-') :
    front token (opening ++ rest) = rest := by
  obtain ⟨indent, gap, hi, hg, -, rfl⟩ := ho
  have hrest := dropWhile_eq_self (head_not_blank hr)
  have htoken : (indent ++ token ++ gap ++ rest).dropWhile isBlank =
      token.dropWhile isBlank ++ (if token.dropWhile isBlank = [] then [] else gap) ++ rest := by
    rw [List.append_assoc, List.append_assoc, List.dropWhile_append_of_pos hi,
      List.dropWhile_append]
    split
    · next h =>
      rw [List.isEmpty_iff.1 h, List.dropWhile_append_of_pos hg, hrest]
      simp
    · next h => rw [if_neg (fun he => h (List.isEmpty_iff.2 he)), List.append_assoc]
  unfold front
  rw [htoken, List.append_assoc, List.drop_left]
  split
  · exact hrest
  · rw [List.dropWhile_append_of_pos hg, hrest]

theorem isOpening_unique {opening' rest' : List Char} (ho : IsOpening token opening)
    (ho' : IsOpening token opening') (hr : rest.head? = some '-') (hr' : rest'.head? = some '-')
    (h : opening ++ rest = opening' ++ rest') : opening = opening' ∧ rest = rest' := by
  have hrest : rest = rest' := by
    rw [← front_opening ho hr, h, front_opening ho' hr']
  subst hrest
  exact ⟨List.append_cancel_right h, rfl⟩

theorem isClosing_unique {inner' closing' : List Char} (hc : IsClosing token closing)
    (hc' : IsClosing token closing') (hl : inner.getLast? = some '-')
    (hl' : inner'.getLast? = some '-') (h : inner ++ closing = inner' ++ closing') :
    inner = inner' ∧ closing = closing' := by
  have hrev : closing.reverse ++ inner.reverse = closing'.reverse ++ inner'.reverse := by
    simpa using congrArg List.reverse h
  obtain ⟨he, hi⟩ := isOpening_unique (isOpening_reverse_iff.2 hc) (isOpening_reverse_iff.2 hc')
    (by simpa using hl) (by simpa using hl') hrev
  exact ⟨List.reverse_injective hi, List.reverse_injective he⟩

/-! ## Reading the frame -/

theorem isPrefixOf?_eq_some_iff {s : List Char} :
    token.isPrefixOf? s = some rest ↔ s = token ++ rest := by
  induction token generalizing s with
  | nil => simp [List.isPrefixOf?, eq_comm]
  | cons c token ih =>
    cases s with
    | nil => simp [List.isPrefixOf?]
    | cons d s =>
      by_cases hc : c = d
      · simp [List.isPrefixOf?, hc, ih]
      · simp [List.isPrefixOf?, hc, Ne.symm hc]

theorem tokenAndGap?_eq_some_iff {s : List Char} :
    tokenAndGap? token s = some (opening, rest) ↔
      ∃ gap, Blank gap ∧ gap ≠ [] ∧ rest.head? = some '-' ∧ opening = token ++ gap ∧
        s = token ++ gap ++ rest := by
  unfold tokenAndGap?
  constructor
  · intro h
    split at h
    · cases h
    · next after ha =>
      simp only [Bool.or_eq_true, List.isEmpty_iff, bne_iff_ne, ne_eq] at h
      split at h
      · cases h
      · next hn =>
        rw [not_or, Decidable.not_not] at hn
        cases h
        refine ⟨_, fun c => List.mem_takeWhile_imp, hn.1, hn.2, rfl, ?_⟩
        rw [List.append_assoc, List.takeWhile_append_dropWhile]
        exact isPrefixOf?_eq_some_iff.1 ha
  · intro hx
    obtain ⟨gap, hg, hne, hr, rfl, rfl⟩ := hx
    rw [List.append_assoc, isPrefixOf?_eq_some_iff.2 rfl]
    simp [takeWhile_append_of_head hg (head_not_blank hr),
      dropWhile_append_of_head hg (head_not_blank hr), hr, hne]

theorem opening?_sound {s : List Char} (h : opening? token s = some (opening, rest)) :
    IsOpening token opening ∧ rest.head? = some '-' ∧ s = opening ++ rest := by
  induction s generalizing opening with
  | nil => cases h
  | cons c s ih =>
    rw [opening?] at h
    split at h
    · next found hf =>
      cases h
      obtain ⟨gap, hg, hne, hr, rfl, hs⟩ := tokenAndGap?_eq_some_iff.1 hf
      exact ⟨⟨[], gap, Blank.nil, hg, hne, rfl⟩, hr, hs⟩
    · split at h
      · next hc =>
        obtain ⟨⟨opening', rest'⟩, ho, he⟩ := Option.map_eq_some_iff.1 h
        cases he
        obtain ⟨⟨indent, gap, hi, hg, hne, rfl⟩, hr, rfl⟩ := ih ho
        refine ⟨⟨c :: indent, gap, ?_, hg, hne, rfl⟩, hr, rfl⟩
        intro d hd
        rcases List.mem_cons.1 hd with rfl | hd
        exacts [hc, hi d hd]
      · cases h

theorem opening?_isSome (ho : IsOpening token opening) (hr : rest.head? = some '-') :
    (opening? token (opening ++ rest)).isSome = true := by
  obtain ⟨indent, gap, hi, hg, hne, rfl⟩ := ho
  induction indent with
  | nil =>
    have hf : tokenAndGap? token (token ++ gap ++ rest) = some (token ++ gap, rest) :=
      tokenAndGap?_eq_some_iff.2 ⟨gap, hg, hne, hr, rfl, rfl⟩
    cases hs : token ++ gap ++ rest with
    | nil => simp [hne] at hs
    | cons c s =>
      rw [hs] at hf
      simp [opening?, hs, hf]
  | cons c indent ih =>
    have hc : isBlank c = true := hi c (by simp)
    have hi' : Blank indent := fun d hd => hi d (by simp [hd])
    simp only [List.cons_append, opening?]
    split
    · rfl
    · simpa [hc] using ih hi'

/-- Reading an opening finds the one that is there. -/
theorem opening?_eq_some_iff {s : List Char} :
    opening? token s = some (opening, rest) ↔
      IsOpening token opening ∧ rest.head? = some '-' ∧ s = opening ++ rest := by
  constructor
  · exact opening?_sound
  · intro hx
    obtain ⟨ho, hr, rfl⟩ := hx
    obtain ⟨⟨opening', rest'⟩, h⟩ := Option.isSome_iff_exists.1 (opening?_isSome ho hr)
    obtain ⟨ho', hr', he⟩ := opening?_sound h
    obtain ⟨rfl, rfl⟩ := isOpening_unique ho ho' hr hr' he
    exact h

/-- A line is taken apart in its one frame, and what stands there is divided by `inner?`. -/
theorem split?_eq_some_iff {token : Token} {line : Line} {p : Parts} :
    split? token line = some p ↔
      ∃ inner, Framed token.text line p.opening inner p.closing ∧
        inner? inner = some (p.left, p.title, p.right) ∧ p.title.all isDash = false := by
  unfold split?
  simp only [bind, Option.bind_eq_some_iff, Prod.exists]
  constructor
  · intro hx
    obtain ⟨opening, rest, hopen, endward, reversed, hclose, left, title, right, hi, h⟩ := hx
    obtain ⟨ho, hr, rfl⟩ := opening?_eq_some_iff.1 hopen
    obtain ⟨hc, hl, hrest⟩ := opening?_eq_some_iff.1 hclose
    split at h
    · cases h
    · next ht =>
      cases h
      have hrest : rest = reversed.reverse ++ endward.reverse := by
        simpa using congrArg List.reverse hrest
      have hhead : reversed.reverse.head? = some '-' := by
        rw [hrest, List.head?_append] at hr
        cases hrev : reversed.reverse with
        | nil => simp [List.reverse_eq_nil_iff.1 hrev] at hl
        | cons c s => simpa [hrev] using hr
      have hc : IsClosing token.text endward.reverse := isOpening_reverse_iff.1 (by simpa using hc)
      exact ⟨reversed.reverse, ⟨by simp [hrest], ho, hc, ⟨hhead, by simpa using hl⟩⟩, hi,
        by simpa using ht⟩
  · intro hx
    obtain ⟨inner, ⟨rfl, ho, hc, hb⟩, hi, ht⟩ := hx
    refine ⟨_, inner ++ p.closing, opening?_eq_some_iff.2 ⟨ho, hb.head_append _, by simp⟩,
      p.closing.reverse, inner.reverse, opening?_eq_some_iff.2
        ⟨isOpening_reverse_iff.2 hc, hb.reverse.head, by simp⟩, p.left, p.title, p.right, ?_, ?_⟩
    · simpa using hi
    · simp [ht]

/-! ## What stands in the frame -/

/-- What stands between the tokens of a line, whatever the blanks outside of them. -/
def heart (token s : List Char) : List Char :=
  (front token.reverse (front token (trim s)).reverse).reverse

theorem heart_eq_of_trim_eq {s t : List Char} (h : trim s = trim t) :
    heart token s = heart token t := by
  unfold heart
  rw [h]

namespace Framed

variable (h : Framed token line opening inner closing)
include h

/-- The frame's outer blanks do not matter to the heart: each side is cut off as a whole. -/
theorem heart_eq : heart token line = inner := by
  obtain ⟨rfl, ho, hc, hb⟩ := h
  have hlast : ∀ c, (opening ++ inner).getLast? = some c → isBlank c = false := by
    rw [hb.last_append]
    intro c hx
    cases hx
    exact isBlank_dash
  have hfront : front token (trim (opening ++ inner ++ closing)) =
      inner ++ dropEndWhile isBlank closing := by
    rw [trim_eq_dropWhile_dropEndWhile, front_dropWhile, dropEndWhile_append_right hlast,
      List.append_assoc, front_opening ho (hb.head_append _)]
  have hback :
      front token.reverse (inner ++ dropEndWhile isBlank closing).reverse = inner.reverse := by
    rw [List.reverse_append, dropEndWhile, List.reverse_reverse,
      ← dropWhile_append_left hb.tight.reverse.head, front_dropWhile,
      front_opening (isOpening_reverse_iff.2 hc) hb.reverse.head]
  rw [heart, hfront, hback, List.reverse_reverse]

theorem not_mem (hlf : '\n' ∉ line) : '\n' ∉ inner := by
  rw [h.eq] at hlf
  intro hm
  exact hlf (by simp [hm])

theorem unique {opening' inner' closing' : List Char}
    (h' : Framed token line opening' inner' closing') :
    opening = opening' ∧ inner = inner' ∧ closing = closing' := by
  have hi : inner = inner' := by rw [← h.heart_eq, h'.heart_eq]
  subst hi
  obtain ⟨ho, hrest⟩ := isOpening_unique h.opening h'.opening (h.bounded.head_append closing)
    (h.bounded.head_append closing') (by rw [← List.append_assoc, ← h.eq, h'.eq, List.append_assoc])
  exact ⟨ho, rfl, List.append_cancel_left hrest⟩

/-- Another text may stand in a frame. -/
theorem replace {inner' : List Char} (hb : Bounded inner') :
    Framed token (opening ++ inner' ++ closing) opening inner' closing :=
  ⟨rfl, h.opening, h.closing, hb⟩

theorem takeWhile_eq {inner' : List Char} (hb : Bounded inner') :
    (opening ++ inner' ++ closing).takeWhile isBlank = line.takeWhile isBlank := by
  have key : ∀ s, s.head? = some '-' →
      (opening ++ s).takeWhile isBlank = (opening ++ ['-']).takeWhile isBlank := by
    intro s hs
    cases s with
    | nil => cases hs
    | cons c s =>
      cases hs
      rw [List.takeWhile_append, List.takeWhile_append]
      simp [isBlank_dash]
  rw [h.eq, List.append_assoc, List.append_assoc, key _ (hb.head_append _),
    key _ (h.bounded.head_append _)]

theorem trailingBlanks_eq {inner' : List Char} (hb : Bounded inner') :
    trailingBlanks (opening ++ inner' ++ closing) = trailingBlanks line := by
  have hrev : Framed token.reverse line.reverse closing.reverse inner.reverse opening.reverse :=
    ⟨by simp [h.eq], isOpening_reverse_iff.2 h.closing,
      isOpening_reverse_iff.1 (by simpa using h.opening), h.bounded.reverse⟩
  have ht := hrev.takeWhile_eq hb.reverse
  unfold trailingBlanks List.rtakeWhile
  rw [← ht]
  simp

theorem getLast?_eq (s : List Char) : (s ++ closing).getLast? = line.getLast? := by
  have hne : closing ≠ [] := by
    obtain ⟨gap, trail, -, hne, -, rfl⟩ := h.closing
    simp [hne]
  rw [h.eq, List.getLast?_append_of_ne_nil _ hne, List.getLast?_append_of_ne_nil _ hne]

end Framed

theorem split?_framed {token : Token} {line : Line}
    (h : Framed token.text line opening inner closing) :
    split? token line = ((inner? inner).map fun found =>
      ⟨opening, found.1, found.2.1, found.2.2, closing⟩).filter fun p => !p.title.all isDash := by
  ext p
  simp only [split?_eq_some_iff, Option.filter_eq_some_iff, Option.map_eq_some_iff, Prod.exists,
    Bool.not_eq_true']
  constructor
  · intro hx
    obtain ⟨inner', hf, hi, ht⟩ := hx
    obtain ⟨rfl, rfl, rfl⟩ := h.unique hf
    exact ⟨⟨_, _, _, hi, rfl⟩, ht⟩
  · intro hx
    obtain ⟨⟨left, title, right, hi, rfl⟩, ht⟩ := hx
    exact ⟨inner, h, hi, ht⟩

end Recenter.Banner.Section
