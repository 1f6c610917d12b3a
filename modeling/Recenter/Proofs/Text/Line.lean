import Recenter.Text.Line

/-! Lines that hold no line feed. Splitting a text gives only such lines, and such lines, if there
is at least one, come back from the text that they are joined to. Texts of as many lines have the
same characters up to the first line that differs. A line whose text changes while its end stays
splits into the new text and the old end. -/

namespace Recenter.Text

/-! ## Splitting and joining -/

theorem splitLines_eq_splitOn (text : List Char) : splitLines text = text.splitOn '\n' := by
  induction text with
  | nil => rfl
  | cons c rest ih =>
    have hcons : splitLines (c :: rest) = pushFront c (splitLines rest) := rfl
    rw [hcons, ih, List.splitOn_cons_eq_if_modifyHead]
    cases h : rest.splitOn '\n' with
    | nil => exact absurd h (List.splitOn_ne_nil _ _)
    | cons line lines => by_cases hc : c = '\n' <;> simp [pushFront, hc]

theorem splitLines_joinLines {lines : List Line} (hl : ∀ line ∈ lines, '\n' ∉ line)
    (hne : lines ≠ []) : splitLines (joinLines lines) = lines := by
  rw [splitLines_eq_splitOn]
  exact List.splitOn_intercalate '\n' hl hne

theorem length_splitLines (text : List Char) :
    (splitLines text).length = text.count '\n' + 1 := by
  induction text with
  | nil => rfl
  | cons c rest ih =>
    have hcons : splitLines (c :: rest) = pushFront c (splitLines rest) := rfl
    rw [hcons, List.count_cons]
    cases h : splitLines rest with
    | nil => exact absurd h (splitLines_ne_nil rest)
    | cons line lines =>
      rw [h] at ih
      by_cases hc : c = '\n'
      · simp [pushFront, hc, ← ih]
      · simpa [pushFront, hc] using ih

theorem not_mem_of_mem_pushFront {c : Char} {lines : List Line} {line : Line}
    (h : ∀ line ∈ lines, '\n' ∉ line) (hc : lines ≠ []) (hm : line ∈ pushFront c lines) :
    '\n' ∉ line := by
  cases lines with
  | nil => exact absurd rfl hc
  | cons first rest =>
    simp only [pushFront] at hm
    split at hm
    · rcases List.mem_cons.1 hm with rfl | hm
      · simp
      · exact h line hm
    · next hne =>
      rcases List.mem_cons.1 hm with rfl | hm
      · simpa [Ne.symm hne] using h first (by simp)
      · exact h line (by simp [hm])

theorem not_mem_of_mem_splitLines (text : List Char) : ∀ line ∈ splitLines text, '\n' ∉ line := by
  induction text with
  | nil => simp [splitLines]
  | cons c rest ih =>
    intro line hm
    exact not_mem_of_mem_pushFront ih (splitLines_ne_nil rest) hm

section

variable {α : Type} {a : α} {sep part : List α} {parts : List (List α)}

theorem mem_intercalate_of_mem (hp : part ∈ parts) (ha : a ∈ part) : a ∈ sep.intercalate parts := by
  induction parts with
  | nil => cases hp
  | cons first rest ih =>
    cases rest with
    | nil =>
      rw [List.mem_singleton.1 hp] at ha
      simpa using ha
    | cons next rest =>
      rw [List.intercalate_cons_cons]
      rcases List.mem_cons.1 hp with rfl | hp
      · simp [ha]
      · exact List.mem_append_right _ (ih hp)

theorem mem_of_mem_intercalate (ha : a ∈ sep.intercalate parts) :
    (∃ part ∈ parts, a ∈ part) ∨ a ∈ sep := by
  induction parts with
  | nil => cases ha
  | cons first rest ih =>
    cases rest with
    | nil => exact .inl ⟨first, by simp, by simpa using ha⟩
    | cons next rest =>
      rw [List.intercalate_cons_cons] at ha
      simp only [List.mem_append] at ha
      rcases ha with (ha | ha) | ha
      · exact .inl ⟨first, by simp, ha⟩
      · exact .inr ha
      · refine (ih ha).imp_left fun hx => ?_
        obtain ⟨part, hp, ha⟩ := hx
        exact ⟨part, by simp [hp], ha⟩

end

theorem mem_joinLines_of_mem {c : Char} {lines : List Line} {line : Line} (hl : line ∈ lines)
    (hc : c ∈ line) : c ∈ joinLines lines :=
  mem_intercalate_of_mem hl hc

/-- Joining brings nothing but line feeds. -/
theorem mem_of_mem_joinLines {c : Char} {lines : List Line} (hc : c ∈ joinLines lines) :
    (∃ line ∈ lines, c ∈ line) ∨ c = '\n' :=
  (mem_of_mem_intercalate hc).imp_right List.mem_singleton.1

theorem mem_of_mem_splitLines {c : Char} {text : List Char} {line : Line}
    (hl : line ∈ splitLines text) (hc : c ∈ line) : c ∈ text := by
  have hjoin := mem_joinLines_of_mem hl hc
  rwa [joinLines_splitLines] at hjoin

/-! ## Lines ahead of a change -/

/-- The lines ahead of line `k`, with the line feeds that end them. -/
def ahead (lines : List Line) (k : Nat) : List Char :=
  (lines.take k).flatMap (· ++ ['\n'])

theorem joinLines_eq_ahead_append {lines : List Line} {k : Nat} (hk : k < lines.length) :
    joinLines lines = ahead lines k ++ joinLines (lines.drop k) := by
  induction lines generalizing k with
  | nil => cases hk
  | cons line lines ih =>
    cases k with
    | zero => rfl
    | succ k =>
      have hk : k < lines.length := Nat.lt_of_succ_lt_succ hk
      have hne : lines ≠ [] := List.ne_nil_of_length_pos (Nat.zero_lt_of_lt hk)
      obtain ⟨second, more, rfl⟩ := List.exists_cons_of_ne_nil hne
      have hjoin : joinLines (line :: second :: more) =
          line ++ '\n' :: joinLines (second :: more) := by
        simp [joinLines, List.intercalate]
      have hahead : ahead (line :: second :: more) (k + 1) =
          line ++ '\n' :: ahead (second :: more) k := by
        simp [ahead]
      rw [hjoin, ih hk, hahead, List.drop_succ_cons, List.append_assoc, List.cons_append]

/-- Two lists of as many lines that are not the same first differ in some line. -/
theorem exists_first_change {lines lines' : List Line} (hl : lines'.length = lines.length)
    (hne : lines' ≠ lines) :
    ∃ k < lines.length, lines'.take k = lines.take k ∧ lines'[k]? ≠ lines[k]? := by
  induction lines generalizing lines' with
  | nil => exact absurd (List.eq_nil_of_length_eq_zero hl) hne
  | cons line lines ih =>
    obtain ⟨line', lines', rfl⟩ :=
      List.exists_cons_of_length_pos (hl.symm ▸ Nat.succ_pos _ : 0 < lines'.length)
    by_cases hline : line' = line
    · obtain ⟨k, hk, htake, hget⟩ := ih (Nat.succ.inj hl) fun h => hne (by rw [hline, h])
      exact ⟨k + 1, Nat.succ_lt_succ hk, by simp [hline, htake], by simpa using hget⟩
    · exact ⟨0, Nat.succ_pos _, rfl, by simpa using hline⟩

/-! ## The end of a line -/

theorem splitEol_snd (line : Line) :
    (splitEol line).2 = ['\r'] ∨ (splitEol line = (line, []) ∧ line.getLast? ≠ some '\r') := by
  unfold splitEol
  split
  · exact .inl rfl
  · next h => exact .inr ⟨rfl, h⟩

theorem splitEol_snd_eq_iff {line : Line} :
    (splitEol line).2 = ['\r'] ↔ line.getLast? = some '\r' := by
  unfold splitEol
  split
  · next h => exact ⟨fun _ => h, fun _ => rfl⟩
  · next h => exact ⟨nofun, fun he => absurd he h⟩

theorem splitEol_eq_iff {line line' : Line} : splitEol line = splitEol line' ↔ line = line' := by
  constructor
  · intro h
    rw [← splitEol_append line, h, splitEol_append line']
  · exact congrArg splitEol

/-- A text in front of an old end is split off again, unless it brings an end of its own. -/
theorem splitEol_append_eol {line body : Line}
    (h : (splitEol line).2 = [] → body.getLast? ≠ some '\r') :
    splitEol (body ++ (splitEol line).2) = (body, (splitEol line).2) := by
  rcases splitEol_snd line with he | ⟨he, -⟩
  · rw [he]
    simp [splitEol]
  · rw [he] at h ⊢
    simp [splitEol, h rfl]

theorem getLast?_splitEol_fst {line : Line} (h : (splitEol line).2 = []) :
    (splitEol line).1.getLast? ≠ some '\r' := by
  rcases splitEol_snd line with he | ⟨he, hl⟩
  · rw [he] at h
    cases h
  · rw [he]
    exact hl

theorem not_mem_splitEol_fst {line : Line} {c : Char} (h : c ∉ line) : c ∉ (splitEol line).1 := by
  rw [← splitEol_append line] at h
  exact fun hc => h (List.mem_append_left _ hc)

theorem not_mem_append_eol {line body : Line} (hl : '\n' ∉ line) (hb : '\n' ∉ body) :
    '\n' ∉ body ++ (splitEol line).2 := by
  rw [← splitEol_append line] at hl
  simp only [List.mem_append, not_or] at hl ⊢
  exact ⟨hb, hl.2⟩

end Recenter.Text
