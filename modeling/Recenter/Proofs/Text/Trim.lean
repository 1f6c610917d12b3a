import Mathlib.Data.List.DropRight
import Mathlib.Data.List.TakeWhile
import Recenter.Text.Blank
import Recenter.Text.Line

/-! A text between its outer blanks. `trim` gives a tight text, one that neither begins nor ends
with a blank, and a text that is not blank throughout is its leading blanks, its trimmed text and
its trailing blanks. So two texts with the same trimmed text differ in their outer blanks only. -/

namespace Recenter.Text

/-! ## Ends that satisfy a predicate, or do not -/

section Ends

variable {α : Type} {p : α → Bool} {s t v : List α}

theorem dropWhile_eq_self (h : ∀ c, s.head? = some c → p c = false) : s.dropWhile p = s := by
  cases s with
  | nil => rfl
  | cons c rest => exact List.dropWhile_cons_of_neg (by simp [h c rfl])

theorem takeWhile_eq_nil (h : ∀ c, s.head? = some c → p c = false) : s.takeWhile p = [] := by
  cases s with
  | nil => rfl
  | cons c rest => exact List.takeWhile_cons_of_neg (by simp [h c rfl])

theorem dropWhile_append_of_head (hs : ∀ c ∈ s, p c = true)
    (ht : ∀ c, t.head? = some c → p c = false) : (s ++ t).dropWhile p = t := by
  rw [List.dropWhile_append_of_pos hs, dropWhile_eq_self ht]

theorem takeWhile_append_of_head (hs : ∀ c ∈ s, p c = true)
    (ht : ∀ c, t.head? = some c → p c = false) : (s ++ t).takeWhile p = s := by
  rw [List.takeWhile_append_of_pos hs, takeWhile_eq_nil ht, List.append_nil]

/-- A list in front of one that does not begin with `p` keeps what it would have left alone. -/
theorem dropWhile_append_left (ht : ∀ c, t.head? = some c → p c = false) :
    (s ++ t).dropWhile p = s.dropWhile p ++ t := by
  rw [List.dropWhile_append]
  split
  · next h => rw [List.isEmpty_iff.1 h, dropWhile_eq_self ht, List.nil_append]
  · rfl

theorem head_dropWhile {c : α} (h : (s.dropWhile p).head? = some c) : p c = false := by
  simpa [h] using List.head?_dropWhile_not p s

theorem dropEndWhile_append (h : ∀ c ∈ v, p c = true) :
    dropEndWhile p (s ++ v) = dropEndWhile p s := by
  unfold dropEndWhile
  rw [List.reverse_append, List.dropWhile_append_of_pos (by simpa using h)]

theorem dropEndWhile_eq_self (h : ∀ c, s.getLast? = some c → p c = false) :
    dropEndWhile p s = s := by
  unfold dropEndWhile
  rw [dropWhile_eq_self (by simpa using h), List.reverse_reverse]

theorem dropEndWhile_append_right (hs : ∀ c, s.getLast? = some c → p c = false) :
    dropEndWhile p (s ++ v) = s ++ dropEndWhile p v := by
  unfold dropEndWhile
  rw [List.reverse_append, dropWhile_append_left (by simpa using hs), List.reverse_append,
    List.reverse_reverse]

theorem last_dropEndWhile {c : α} (h : (dropEndWhile p s).getLast? = some c) : p c = false := by
  unfold dropEndWhile at h
  rw [List.getLast?_reverse] at h
  exact head_dropWhile h

theorem dropEndWhile_eq_nil_iff : dropEndWhile p s = [] ↔ ∀ c ∈ s, p c = true :=
  List.rdropWhile_eq_nil_iff

/-- A list is a run of `p` and what does not begin with `p`. -/
theorem exists_run_append (p : α → Bool) (s : List α) :
    ∃ u x, s = u ++ x ∧ (∀ c ∈ u, p c = true) ∧ ∀ c, x.head? = some c → p c = false :=
  ⟨s.takeWhile p, s.dropWhile p, List.takeWhile_append_dropWhile.symm,
    fun _ => List.mem_takeWhile_imp, fun _ => head_dropWhile⟩

/-- A list is what does not end with `p` and a run of `p`. -/
theorem exists_append_run (p : α → Bool) (s : List α) :
    ∃ x v, s = x ++ v ∧ (∀ c ∈ v, p c = true) ∧ ∀ c, x.getLast? = some c → p c = false :=
  ⟨dropEndWhile p s, s.rtakeWhile p, List.rdropWhile_append_rtakeWhile.symm,
    fun _ => List.mem_rtakeWhile_imp, fun _ => last_dropEndWhile⟩

theorem dropEndWhile_isPrefix (p : α → Bool) (s : List α) : dropEndWhile p s <+: s :=
  List.rdropWhile_prefix p s

end Ends

/-! ## Blank and tight texts -/

def Blank (s : List Char) : Prop := ∀ c ∈ s, isBlank c = true

/-- Neither the first character nor the last one is a blank. -/
structure Tight (s : List Char) : Prop where
  head : ∀ c, s.head? = some c → isBlank c = false
  last : ∀ c, s.getLast? = some c → isBlank c = false

variable {s u v : List Char}

theorem Blank.nil : Blank [] := by simp [Blank]

theorem Blank.append (hu : Blank u) (hv : Blank v) : Blank (u ++ v) := by
  intro c hc
  rcases List.mem_append.1 hc with h | h
  exacts [hu c h, hv c h]

theorem Blank.reverse (h : Blank s) : Blank s.reverse := fun c hc => h c (List.mem_reverse.1 hc)

theorem blank_replicate (n : Nat) : Blank (List.replicate n ' ') := by
  intro c hc
  rw [List.eq_of_mem_replicate hc]
  decide

theorem Blank.dropWhile_eq_nil (h : Blank s) : s.dropWhile isBlank = [] :=
  List.dropWhile_eq_nil_iff.2 h

theorem Tight.reverse (h : Tight s) : Tight s.reverse :=
  ⟨by simpa using h.last, by simpa using h.head⟩

theorem Tight.trim_eq (h : Tight s) : trim s = s := by
  rw [trim, dropWhile_eq_self h.head, dropEndWhile_eq_self h.last]

theorem tight_trim (s : List Char) : Tight (trim s) where
  head c hc := by
    obtain ⟨v, hv⟩ := dropEndWhile_isPrefix isBlank (s.dropWhile isBlank)
    apply head_dropWhile (s := s)
    rw [← hv, List.head?_append]
    simp only [trim] at hc
    simp [hc]
  last _ hc := last_dropEndWhile hc

/-- A tight text that another one begins with is what the trimmed text begins with. -/
theorem Tight.isPrefix_trim (hs : Tight s) (h : s <+: u) : s <+: trim u := by
  obtain ⟨rest, rfl⟩ := h
  by_cases hne : s = []
  · rw [hne]
    exact List.nil_prefix
  have hhead : (s ++ rest).dropWhile isBlank = s ++ rest := by
    apply dropWhile_eq_self
    rw [List.head?_append_of_ne_nil _ hne]
    exact hs.head
  rw [trim, hhead, dropEndWhile_append_right hs.last]
  exact List.prefix_append s _

/-- Outer blanks do not matter to the trimmed text. -/
theorem trim_append_of_blank (hu : Blank u) (hv : Blank v) : trim (u ++ s ++ v) = trim s := by
  have hd : (s ++ v).dropWhile isBlank =
      if s.dropWhile isBlank = [] then [] else s.dropWhile isBlank ++ v := by
    rw [List.dropWhile_append, hv.dropWhile_eq_nil]
    simp
  unfold trim
  rw [List.append_assoc, List.dropWhile_append_of_pos hu, hd]
  split
  · next h => rw [h]
  · exact dropEndWhile_append hv

theorem trim_append_left (hu : Blank u) : trim (u ++ s) = trim s := by
  simpa using trim_append_of_blank (s := s) hu Blank.nil

theorem trim_append_right (hv : Blank v) : trim (s ++ v) = trim s := by
  simpa using trim_append_of_blank (s := s) Blank.nil hv

/-- The two ends may be trimmed in either order. -/
theorem trim_eq_dropWhile_dropEndWhile (s : List Char) :
    trim s = (dropEndWhile isBlank s).dropWhile isBlank := by
  have hlast : ∀ c, ((dropEndWhile isBlank s).dropWhile isBlank).getLast? = some c →
      isBlank c = false := by
    intro c hc
    obtain ⟨u, hu⟩ := List.dropWhile_suffix (l := dropEndWhile isBlank s) isBlank
    apply last_dropEndWhile (s := s)
    rw [← hu, List.getLast?_append, hc, Option.some_or]
  calc trim s = trim (dropEndWhile isBlank s ++ s.rtakeWhile isBlank) :=
        congrArg trim List.rdropWhile_append_rtakeWhile.symm
    _ = trim (dropEndWhile isBlank s) := trim_append_right fun _ => List.mem_rtakeWhile_imp
    _ = (dropEndWhile isBlank s).dropWhile isBlank := dropEndWhile_eq_self hlast

theorem trim_eq_nil_iff : trim s = [] ↔ Blank s := by
  rw [trim, dropEndWhile_eq_nil_iff]
  constructor
  · intro h
    have hnil : s.dropWhile isBlank = [] := by
      cases hd : s.dropWhile isBlank with
      | nil => rfl
      | cons c rest =>
        have hc := head_dropWhile (s := s) (p := isBlank) (c := c) (by rw [hd]; rfl)
        rw [h c (by simp [hd])] at hc
        cases hc
    exact List.dropWhile_eq_nil_iff.1 hnil
  · intro h c hc
    rw [Blank.dropWhile_eq_nil h] at hc
    simp at hc

/-! ## Outer blanks -/

def trailingBlanks (s : List Char) : List Char := s.rtakeWhile isBlank

theorem dropEndWhile_append_trailingBlanks (s : List Char) :
    dropEndWhile isBlank s ++ trailingBlanks s = s := List.rdropWhile_append_rtakeWhile

theorem trailingBlanks_append (h : trim v ≠ []) : trailingBlanks (u ++ v) = trailingBlanks v := by
  have hv : v.reverse.takeWhile isBlank ≠ v.reverse := by
    intro he
    exact h (trim_eq_nil_iff.2 fun c hc =>
      (List.takeWhile_eq_self_iff.1 he) c (List.mem_reverse.2 hc))
  unfold trailingBlanks List.rtakeWhile
  rw [List.reverse_append, List.takeWhile_append]
  split
  · next he =>
    exact absurd ((List.takeWhile_prefix isBlank).eq_of_length he) hv
  · rfl

/-- Leading blanks, the trimmed text and trailing blanks make up a text that is not blank. -/
theorem eq_append_trim (h : trim s ≠ []) :
    s = s.takeWhile isBlank ++ trim s ++ trailingBlanks s := by
  have hd : trim (s.dropWhile isBlank) ≠ [] := by
    intro he
    apply h
    rw [← List.takeWhile_append_dropWhile (p := isBlank) (l := s),
      trim_append_left (fun _ => List.mem_takeWhile_imp), he]
  have ht : trailingBlanks (s.dropWhile isBlank) = trailingBlanks s := by
    rw [← trailingBlanks_append (u := s.takeWhile isBlank) hd, List.takeWhile_append_dropWhile]
  calc s = s.takeWhile isBlank ++ s.dropWhile isBlank := List.takeWhile_append_dropWhile.symm
    _ = s.takeWhile isBlank ++ trim s ++ trailingBlanks s := by
      rw [List.append_assoc, ← ht, trim, dropEndWhile_append_trailingBlanks]

/-! ## The end of a line -/

theorem blank_splitEol_snd (line : Line) : Blank (splitEol line).2 := by
  unfold splitEol
  split
  · simp [Blank, isBlank]
  · exact Blank.nil

theorem trim_splitEol_fst (line : Line) : trim (splitEol line).1 = trim line := by
  rw [← trim_append_right (blank_splitEol_snd line), splitEol_append]

/-- A tight text that a line begins with does not reach into the line's end. -/
theorem Tight.isPrefix_splitEol_fst_iff {line : Line} (hs : Tight s) :
    s <+: (splitEol line).1 ↔ s <+: line := by
  constructor
  · intro h
    rw [← splitEol_append line]
    exact h.trans (List.prefix_append _ _)
  · intro h
    unfold splitEol
    split
    · next hlast =>
      obtain ⟨body, rfl⟩ := List.getLast?_eq_some_iff.1 hlast
      rw [List.dropLast_concat]
      rcases List.prefix_concat_iff.1 h with rfl | h
      · exact absurd (hs.last '\r' hlast) (by decide)
      · exact h
    · exact h

end Recenter.Text
