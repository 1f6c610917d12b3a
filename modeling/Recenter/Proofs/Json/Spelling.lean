import Recenter.Json.Writer
import Recenter.Proofs.Codec.RoundTrip
import Recenter.Proofs.Json.Digits

/-! Texts and integers are read as they were written: a character by its escape
(`readText_writtenChar`), a text up to its closing quote (`readToken_writtenText`), and an integer
up to whatever can stand behind it (`readToken_writtenInt`). -/

namespace Recenter.Json

open Recenter.Text Recenter.Number

variable {most start pos width u n : Nat} {c d : Char} {s gap rest done : List Char}

/-! ## Hexadecimal digits -/

theorem hexValue?_digitChar (h : u < 16) : hexValue? u.digitChar = some u := by
  decide +revert

theorem hex_one (h : u < 16) : hex 1 u = [u.digitChar] := by
  simp [hex, Nat.toDigits_of_lt_base h]

/-- The last digit of a number that is written with two digits or more. -/
theorem hex_succ (hw : 0 < width) (u : Nat) :
    hex (width + 1) u = hex width (u / 16) ++ [(u % 16).digitChar] := by
  obtain ⟨width, rfl⟩ := Nat.exists_eq_succ_of_ne_zero (Nat.ne_of_gt hw)
  by_cases h : u < 16
  · simp [hex, Nat.toDigits_of_lt_base h, Nat.div_eq_of_lt h, Nat.mod_eq_of_lt h,
      ← List.replicate_append_replicate (n := width) (m := 1)]
  · simp [hex, Nat.toDigits_of_base_le (by decide) (Nat.le_of_not_lt h)]

theorem hex_four (h : u < 0x10000) :
    hex 4 u = [(u / 16 / 16 / 16).digitChar, (u / 16 / 16 % 16).digitChar,
      (u / 16 % 16).digitChar, (u % 16).digitChar] := by
  have hfirst : u / 16 / 16 / 16 < 16 := by omega
  rw [hex_succ (by decide), hex_succ (by decide), hex_succ (by decide), hex_one hfirst]
  rfl

theorem length_hex_four (h : u < 0x10000) : (hex 4 u).length = 4 := by
  rw [hex_four h]
  rfl

theorem unit?_hex (h : u < 0x10000) : unit? (hex 4 u) = some u := by
  have hmod : ∀ n, n % 16 < 16 := fun n => Nat.mod_lt n (by decide)
  have hfirst : u / 16 / 16 / 16 < 16 := by omega
  have hsum : ((u / 16 / 16 / 16 * 16 + u / 16 / 16 % 16) * 16 + u / 16 % 16) * 16 + u % 16 =
      u := by omega
  rw [hex_four h, unit?]
  simp [hexValue?_digitChar, hmod, hfirst, hsum]

/-! ## Characters -/

theorem readText_plain (hq : c ≠ '"') (hb : c ≠ '\\') (hs : ¬ c < ' ') :
    readText start pos done (c :: rest) = readText start (pos + 1) (c :: done) rest := by
  rw [readText, if_neg hs]
  · exact hq
  · simp [hb]
  · simp [hb]
  · simp [hb]

theorem readText_escaped (hu : c ≠ 'u') (h : escaped? c = some d) :
    readText start pos done ('\\' :: c :: rest) = readText start (pos + 2) (d :: done) rest := by
  rw [readText, h]
  exact hu

theorem readText_unit (hu : u < 0x10000) (hh : Codec.Utf16.isHighSurrogate u = false)
    (hr : rest ≠ []) :
    readText start pos done ('\\' :: 'u' :: (hex 4 u ++ rest)) =
      readText start (pos + 6) (Char.ofNat u :: done) rest := by
  have hl := length_hex_four hu
  rw [readText, List.take_left' hl, List.drop_left' hl, unit?_hex hu]
  simp [hr, hh]

theorem readText_pair {v : Nat} (hu : u < 0x10000) (hv : v < 0x10000)
    (hh : Codec.Utf16.isHighSurrogate u = true) (hl : Codec.Utf16.isLowSurrogate v = true)
    (hr : rest ≠ []) :
    readText start pos done ('\\' :: 'u' :: (hex 4 u ++ '\\' :: 'u' :: (hex 4 v ++ rest))) =
      readText start (pos + 12) (Char.ofNat (Codec.Utf16.joinSurrogates u v) :: done) rest := by
  have hlu := length_hex_four hu
  have hlv := length_hex_four hv
  have hlow : lowSurrogate? ('\\' :: 'u' :: (hex 4 v ++ rest)) = some v := by
    rw [lowSurrogate?, List.take_left' hlv, List.drop_left' hlv, unit?_hex hv]
    simp [hr, hl]
  have hdrop : (hex 4 u ++ '\\' :: 'u' :: (hex 4 v ++ rest)).drop 10 = rest := by
    rw [← List.drop_drop (i := 6) (j := 4), List.drop_left' hlu]
    exact List.drop_left' hlv
  rw [readText, List.take_left' hlu, List.drop_left' hlu, unit?_hex hu, hdrop]
  simp [hh, hlow]

/-- The 16-bit units of a character, each as an escape. -/
def escapedUnits (c : Char) : List Char :=
  (Codec.Utf16.units c).flatMap fun u => '\\' :: 'u' :: hex 4 u

theorem readText_escapedUnits (c : Char) (hr : rest ≠ []) :
    readText start pos done (escapedUnits c ++ rest) =
      readText start (pos + (escapedUnits c).length) (c :: done) rest := by
  have hvalid : c.toNat < 0xD800 ∨ (0xDFFF < c.toNat ∧ c.toNat < 0x110000) := c.valid
  unfold escapedUnits Codec.Utf16.units
  simp only
  split
  · next h =>
    have hhigh : Codec.Utf16.isHighSurrogate c.toNat = false := by
      simp only [Codec.Utf16.isHighSurrogate, Bool.and_eq_false_iff, decide_eq_false_iff_not]
      omega
    rw [List.flatMap_singleton, List.cons_append, List.cons_append, List.length_cons,
      List.length_cons, length_hex_four h, readText_unit h hhigh hr, Char.ofNat_toNat]
  · next h =>
    have hjoin := Codec.Utf16.joinSurrogates_split (Nat.le_of_not_lt h)
    generalize hdu : 0xD800 + (c.toNat - 0x10000) / 0x400 = u at hjoin ⊢
    generalize hdv : 0xDC00 + (c.toNat - 0x10000) % 0x400 = v at hjoin ⊢
    have hu : u < 0x10000 := by omega
    have hv : v < 0x10000 := by omega
    have hhigh : Codec.Utf16.isHighSurrogate u = true := by
      simp only [Codec.Utf16.isHighSurrogate, Bool.and_eq_true, decide_eq_true_eq]
      omega
    have hlow : Codec.Utf16.isLowSurrogate v = true := by
      simp only [Codec.Utf16.isLowSurrogate, Bool.and_eq_true, decide_eq_true_eq]
      omega
    have hlength : ('\\' :: 'u' :: hex 4 u ++ '\\' :: 'u' :: hex 4 v).length = 12 := by
      rw [List.length_append, List.length_cons, List.length_cons, List.length_cons,
        List.length_cons, length_hex_four hu, length_hex_four hv]
    rw [List.flatMap_cons, List.flatMap_singleton, hlength, List.append_assoc, List.cons_append,
      List.cons_append, List.cons_append, List.cons_append, readText_pair hu hv hhigh hlow hr,
      hjoin, Char.ofNat_toNat]

/-- Space to tilde: the characters of ASCII that are printed. -/
def IsPrinted (c : Char) : Prop := ' ' ≤ c ∧ c ≤ '~'

instance (c : Char) : Decidable (IsPrinted c) := inferInstanceAs (Decidable (_ ∧ _))

/-- What is printed stays on one line. -/
theorem lineFeed_notMem_of_isPrinted (h : ∀ c ∈ s, IsPrinted c) : '\n' ∉ s := fun hm =>
  absurd (h _ hm) (by decide)

/-- The test on a fixed text is one computation. -/
theorem isPrinted_of_all (h : s.all (fun c => decide (IsPrinted c)) = true) :
    ∀ c ∈ s, IsPrinted c := fun c hc => of_decide_eq_true (List.all_eq_true.1 h c hc)

theorem isPrinted_digitChar (h : u < 16) : IsPrinted u.digitChar := by
  decide +revert

theorem isPrinted_of_mem_toDigits (h : c ∈ Nat.toDigits 16 n) : IsPrinted c := by
  -- By the number of digits.
  induction n using Nat.strongRecOn with
  | ind n ih =>
    by_cases hn : n < 16
    · rw [Nat.toDigits_of_lt_base hn, List.mem_singleton] at h
      exact h ▸ isPrinted_digitChar hn
    · rw [Nat.toDigits_of_base_le (by decide) (Nat.le_of_not_lt hn), List.mem_append,
        List.mem_singleton] at h
      rcases h with h | rfl
      · exact ih (n / 16) (by omega) h
      · exact isPrinted_digitChar (Nat.mod_lt n (by decide))

theorem isPrinted_of_mem_hex (h : c ∈ hex width n) : IsPrinted c := by
  rw [hex, List.mem_append] at h
  rcases h with h | h
  · rw [List.eq_of_mem_replicate h]
    decide
  · exact isPrinted_of_mem_toDigits h

/-- All that is written between quotes is printed ASCII. -/
theorem isPrinted_of_mem_writtenChar (h : d ∈ writtenChar c) : IsPrinted d := by
  have hpair : ∀ {a b : Char}, IsPrinted a → IsPrinted b → ∀ d ∈ [a, b], IsPrinted d := by
    intro a b ha hb
    simp [ha, hb]
  unfold writtenChar at h
  split at h
  · next hc =>
    simp only [Bool.or_eq_true, beq_iff_eq] at hc
    obtain rfl | rfl := hc
    · exact hpair (by decide) (by decide) d h
    · exact hpair (by decide) (by decide) d h
  split at h
  · exact hpair (by decide) (by decide) d h
  split at h
  · exact hpair (by decide) (by decide) d h
  split at h
  · exact hpair (by decide) (by decide) d h
  split at h
  · exact hpair (by decide) (by decide) d h
  split at h
  · exact hpair (by decide) (by decide) d h
  split at h
  · next hc => exact List.mem_singleton.1 h ▸ hc
  · obtain ⟨u, hu, hd⟩ := List.mem_flatMap.1 h
    simp only [List.mem_cons] at hd
    obtain rfl | rfl | hd := hd
    · decide
    · decide
    · exact isPrinted_of_mem_hex hd

/-- A character between quotes is read as itself, whatever stands behind it. -/
theorem readText_writtenChar (c : Char) (hr : rest ≠ []) :
    readText start pos done (writtenChar c ++ rest) =
      readText start (pos + (writtenChar c).length) (c :: done) rest := by
  unfold writtenChar
  split
  · next h =>
    simp only [Bool.or_eq_true, beq_iff_eq] at h
    obtain rfl | rfl := h
    · exact readText_escaped (by decide) rfl
    · exact readText_escaped (by decide) rfl
  next hq =>
  simp only [Bool.or_eq_true, beq_iff_eq, not_or] at hq
  split
  · next h => exact eq_of_beq h ▸ readText_escaped (by decide) rfl
  split
  · next h => exact eq_of_beq h ▸ readText_escaped (by decide) rfl
  split
  · next h => exact eq_of_beq h ▸ readText_escaped (by decide) rfl
  split
  · next h => exact eq_of_beq h ▸ readText_escaped (by decide) rfl
  split
  · next h => exact eq_of_beq h ▸ readText_escaped (by decide) rfl
  split
  · next h => exact readText_plain hq.1 hq.2 (Char.not_lt.2 h.1)
  · exact readText_escapedUnits c hr

theorem readText_written (s done : List Char) (pos : Nat) :
    readText start pos done (s.flatMap writtenChar ++ '"' :: rest) =
      .ok (done.reverse ++ s, pos + (s.flatMap writtenChar).length + 1) := by
  induction s generalizing done pos with
  | nil => simp [readText]
  | cons c s ih =>
    rw [List.flatMap_cons, List.append_assoc, readText_writtenChar c (by simp), ih]
    simp [Nat.add_assoc]

theorem readToken_writtenText (s : String) (pos : Nat) (rest : List Char) :
    readToken most pos ('"' :: (s.toList.flatMap writtenChar ++ ['"'] ++ rest)) =
      (.text s, (s.toList.flatMap writtenChar ++ ['"']).length + 1) := by
  rw [List.append_assoc, List.singleton_append, readToken, readText_written]
  simp
  omega

theorem isPrinted_of_mem_writtenText (h : c ∈ writtenText s) : IsPrinted c := by
  simp only [writtenText, List.mem_cons, List.mem_append, List.mem_flatMap, List.not_mem_nil,
    or_false] at h
  obtain (rfl | ⟨d, -, hc⟩) | rfl := h
  · decide
  · exact isPrinted_of_mem_writtenChar hc
  · decide

/-! ## Integers -/

/-- Behind an integer nothing may stand that would go on with the number. -/
def Ends (rest : List Char) : Prop :=
  ∀ c ∈ rest.head?, c.isDigit = false ∧ c ∉ ['.', 'e', 'E']

theorem ends_cons (hd : c.isDigit = false) (hc : c ∉ ['.', 'e', 'E']) : Ends (c :: rest) := by
  rintro c ⟨⟩
  exact ⟨hd, hc⟩

theorem ends_space (h : isSpace c = true) : Ends (c :: rest) := by
  simp only [isSpace, Bool.or_eq_true, beq_iff_eq] at h
  rcases h with ((rfl | rfl) | rfl) | rfl
  all_goals exact ends_cons rfl (by decide)

theorem ends_spaces (h : ∀ c ∈ gap, isSpace c = true) (hr : Ends rest) : Ends (gap ++ rest) := by
  cases gap with
  | nil => exact hr
  | cons c gap => exact ends_space (h c List.mem_cons_self)

theorem isDigit_of_mem_toDigits (h : c ∈ Nat.toDigits 10 n) : c.isDigit = true :=
  Nat.isDigit_of_mem_toDigits (by decide) (by decide) h

theorem isPrinted_of_isDigit (h : c.isDigit = true) : IsPrinted c := by
  simp only [Char.isDigit, Bool.and_eq_true, decide_eq_true_eq] at h
  exact ⟨Char.le_def.2 (UInt32.le_trans (by decide) h.1),
    Char.le_def.2 (UInt32.le_trans h.2 (by decide))⟩

theorem isPrinted_of_mem_writtenInt {i : Int} (h : c ∈ writtenInt i) : IsPrinted c := by
  rw [writtenInt, List.mem_append] at h
  obtain h | h := h
  · split at h
    · rw [List.mem_singleton.1 h]
      decide
    · cases h
  · exact isPrinted_of_isDigit (isDigit_of_mem_toDigits h)

section

open Binary64

variable {digits : List Char} {mantissa : Nat} {point power exponent : Int} {x : Binary64}

theorem isPrinted_of_mem_zeros (h : c ∈ List.replicate n '0') : IsPrinted c := by
  rw [List.eq_of_mem_replicate h]
  decide

theorem isPrinted_of_mem_shortest (h : c ∈ (shortest mantissa exponent).1) : IsPrinted c := by
  have hdigits : c ∈ Nat.toDigits 10 _ :=
    List.mem_reverse.1 ((List.dropWhile_sublist _).subset (List.mem_reverse.1 h))
  exact isPrinted_of_isDigit (isDigit_of_mem_toDigits hdigits)

theorem isPrinted_of_mem_placed (hd : ∀ c ∈ digits, IsPrinted c) (h : c ∈ placed digits point) :
    IsPrinted c := by
  unfold placed at h
  split at h
  · simp only [List.cons_append, List.mem_cons, List.mem_append] at h
    obtain rfl | rfl | h | h := h
    · decide
    · decide
    · exact isPrinted_of_mem_zeros h
    · exact hd c h
  · simp only [List.mem_append, List.mem_cons] at h
    obtain (h | h) | rfl | h := h
    · exact hd c (List.mem_of_mem_take h)
    · exact isPrinted_of_mem_zeros h
    · decide
    split at h
    · rw [List.mem_singleton.1 h]
      decide
    · exact hd c (List.mem_of_mem_drop h)

theorem isPrinted_of_mem_powered (hd : ∀ c ∈ digits, IsPrinted c) (h : c ∈ powered digits power) :
    IsPrinted c := by
  simp only [powered, List.mem_append, List.mem_cons] at h
  obtain (h | h) | rfl | rfl | h | h := h
  · exact hd c (List.mem_of_mem_take h)
  · split at h
    · cases h
    · obtain rfl | h := List.mem_cons.1 h
      · decide
      · exact hd c (List.mem_of_mem_drop h)
  · decide
  · split <;> decide
  · exact isPrinted_of_mem_zeros h
  · exact isPrinted_of_isDigit (isDigit_of_mem_toDigits h)

theorem isPrinted_of_mem_finiteText {negative : Bool}
    (h : c ∈ finiteText negative mantissa exponent) : IsPrinted c := by
  have hsign : ∀ c ∈ (if negative then ['-'] else []), IsPrinted c := by
    cases negative <;> simp [IsPrinted]
  have hdigits : ∀ c ∈ (shortest mantissa exponent).1, IsPrinted c :=
    fun _ => isPrinted_of_mem_shortest
  unfold finiteText at h
  simp only at h
  split at h
  all_goals rcases List.mem_append.1 h with h | h
  · exact hsign c h
  · simp only [List.mem_cons, List.not_mem_nil, or_false] at h
    obtain rfl | rfl | rfl := h <;> decide
  · exact hsign c h
  split at h
  · exact isPrinted_of_mem_placed hdigits h
  · exact isPrinted_of_mem_powered hdigits h

theorem isPrinted_of_mem_writtenFloat (h : c ∈ writtenFloat x) : IsPrinted c := by
  cases x with
  | finite negative mantissa exponent => exact isPrinted_of_mem_finiteText h
  | infinite negative => cases negative <;> exact isPrinted_of_all (by decide) c h
  | nan => exact isPrinted_of_all (by decide) c h

end

end Recenter.Json
