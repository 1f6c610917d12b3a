import Recenter.Proofs.Codec.RoundTrip
import Recenter.Proofs.Text.Line

/-! UTF-8 writes a text in one way only. The bounds of the second octet shut out what a shorter
sequence could say, so octets that are read as a text are the octets that it is written as
(`encode_of_decode`). A line feed is one octet, which no other character has in it, so the octets
between line feeds are those of the lines (`splitOn_encode`). -/

namespace Recenter.Codec.Utf8

open Recenter.Text

variable {text : List Char} {c : Char} {pos n : Nat} {done : List Char} {rest more : List UInt8}
  {octets : List UInt8} {b low high : UInt8} {lead : Lead}

/-! ## One character -/

theorem val_ofNat (h : n.isValidChar) : (Char.ofNat n).val.toNat = n := by
  rw [Char.ofNat, dif_pos h]
  rfl

theorem ofNat_eq_iff (h : n < 256) : UInt8.ofNat n = b ↔ n = b.toNat := by
  rw [← UInt8.toNat_inj, toNat_ofNat h]

theorem utf8EncodeChar_one (h : n ≤ 0x7F) (hb : n = b.toNat) :
    String.utf8EncodeChar (Char.ofNat n) = [b] := by
  simp only [String.utf8EncodeChar, val_ofNat (.inl (by omega : n < 0xD800)), if_pos h]
  rw [(ofNat_eq_iff (by omega)).2 hb]

theorem utf8EncodeChar_two {b₁ : UInt8} (h : 0x7F < n) (h' : n ≤ 0x7FF)
    (hb : n / 64 + 0xC0 = b.toNat) (hb₁ : n % 64 + 0x80 = b₁.toNat) :
    String.utf8EncodeChar (Char.ofNat n) = [b, b₁] := by
  simp only [String.utf8EncodeChar, val_ofNat (.inl (by omega : n < 0xD800)),
    if_neg (Nat.not_le.2 h), if_pos h']
  rw [(ofNat_eq_iff (by omega)).2 (by omega : _ = b.toNat), (ofNat_eq_iff (by omega)).2 hb₁]

theorem utf8EncodeChar_three {b₁ b₂ : UInt8} (h : 0x7FF < n) (h' : n ≤ 0xFFFF)
    (hs : n < 0xD800 ∨ 0xDFFF < n) (hb : n / 4096 + 0xE0 = b.toNat)
    (hb₁ : n / 64 % 64 + 0x80 = b₁.toNat) (hb₂ : n % 64 + 0x80 = b₂.toNat) :
    String.utf8EncodeChar (Char.ofNat n) = [b, b₁, b₂] := by
  have hvalid : n.isValidChar := hs.imp id fun hs => ⟨hs, by omega⟩
  simp only [String.utf8EncodeChar, val_ofNat hvalid, if_neg (by omega : ¬ n ≤ 0x7F),
    if_neg (Nat.not_le.2 h), if_pos h']
  rw [(ofNat_eq_iff (by omega)).2 (by omega : _ = b.toNat), (ofNat_eq_iff (by omega)).2 hb₁,
    (ofNat_eq_iff (by omega)).2 hb₂]

theorem utf8EncodeChar_four {b₁ b₂ b₃ : UInt8} (h : 0xFFFF < n) (h' : n < 0x110000)
    (hb : n / 262144 + 0xF0 = b.toNat) (hb₁ : n / 4096 % 64 + 0x80 = b₁.toNat)
    (hb₂ : n / 64 % 64 + 0x80 = b₂.toNat) (hb₃ : n % 64 + 0x80 = b₃.toNat) :
    String.utf8EncodeChar (Char.ofNat n) = [b, b₁, b₂, b₃] := by
  have hvalid : n.isValidChar := .inr ⟨by omega, h'⟩
  simp only [String.utf8EncodeChar, val_ofNat hvalid, if_neg (by omega : ¬ n ≤ 0x7F),
    if_neg (by omega : ¬ n ≤ 0x7FF), if_neg (Nat.not_le.2 h)]
  rw [(ofNat_eq_iff (by omega)).2 (by omega : _ = b.toNat), (ofNat_eq_iff (by omega)).2 hb₁,
    (ofNat_eq_iff (by omega)).2 hb₂, (ofNat_eq_iff (by omega)).2 hb₃]

/-! ## One sequence -/

/-- What a lead announces, by the number of octets that follow it. -/
theorem Lead.cases_of_ofByte? (h : Lead.ofByte? b = some lead) :
    (lead = ⟨1, 0x80, 0xBF, b.toNat - 0xC0⟩ ∧ 0xC2 ≤ b.toNat ∧ b.toNat < 0xE0) ∨
    (∃ low high, lead = ⟨2, low, high, b.toNat - 0xE0⟩ ∧ 0xE0 ≤ b.toNat ∧ b.toNat < 0xF0 ∧
      0x80 ≤ low.toNat ∧ high.toNat ≤ 0xBF ∧ (b.toNat = 0xE0 → 0xA0 ≤ low.toNat) ∧
      (b.toNat = 0xED → high.toNat ≤ 0x9F)) ∨
    (∃ low high, lead = ⟨3, low, high, b.toNat - 0xF0⟩ ∧ 0xF0 ≤ b.toNat ∧ b.toNat < 0xF5 ∧
      0x80 ≤ low.toNat ∧ high.toNat ≤ 0xBF ∧ (b.toNat = 0xF0 → 0x90 ≤ low.toNat) ∧
      (b.toNat = 0xF4 → high.toNat ≤ 0x8F)) := by
  have hlt := b.toNat_lt
  rw [← UInt8.ofNat_toNat (x := b), ofByte?_ofNat (by omega)] at h
  by_cases h2 : b.toNat < 0xE0
  · rw [if_pos h2] at h
    split at h
    · cases h
    · cases h
      exact .inl ⟨rfl, by omega, h2⟩
  rw [if_neg (by omega : ¬ b.toNat < 0xC2), if_neg h2] at h
  by_cases h3 : b.toNat < 0xF0
  · refine .inr (.inl ?_)
    split at h
    · next he =>
      cases h
      -- An overlong form is shut out.
      exact ⟨0xA0, 0xBF, by rw [he], by omega, h3, by decide, by decide, fun _ => by decide,
        fun _ => by omega⟩
    split at h
    · next he =>
      cases h
      -- So are surrogates,
      exact ⟨0x80, 0x9F, by rw [he], by omega, h3, by decide, by decide, fun _ => by omega,
        fun _ => by decide⟩
    · cases h
      exact ⟨0x80, 0xBF, rfl, by omega, h3, by decide, by decide, fun _ => by omega,
        fun _ => by omega⟩
  · refine .inr (.inr ?_)
    rw [if_neg (by omega : ¬ b.toNat = 0xE0), if_neg (by omega : ¬ b.toNat = 0xED), if_neg h3] at h
    split at h
    · next he =>
      cases h
      exact ⟨0x90, 0xBF, by rw [he], by omega, by omega, by decide, by decide, fun _ => by decide,
        fun _ => by omega⟩
    split at h
    · next hlt' =>
      cases h
      exact ⟨0x80, 0xBF, rfl, by omega, by omega, by decide, by decide, fun _ => by omega,
        fun _ => by omega⟩
    split at h
    · next he =>
      cases h
      -- and what is beyond Unicode.
      exact ⟨0x80, 0x8F, by rw [he], by omega, by omega, by decide, by decide, fun _ => by omega,
        fun _ => by decide⟩
    · cases h

theorem exists_of_continuing (h : continuing (n + 1) low high rest = n + 1) :
    ∃ b₁ more, rest = b₁ :: more ∧ low.toNat ≤ b₁.toNat ∧ b₁.toNat ≤ high.toNat ∧
      continuing n 0x80 0xBF more = n := by
  cases rest with
  | nil => cases h
  | cons b₁ more =>
    rw [continuing] at h
    split at h
    · next hb =>
      rw [UInt8.le_iff_toNat_le, UInt8.le_iff_toNat_le] at hb
      exact ⟨b₁, more, rfl, hb.1, hb.2, Nat.succ.inj h⟩
    · cases h

theorem exists_continuation (h : continuing (n + 1) 0x80 0xBF rest = n + 1) :
    ∃ b₁ more, rest = b₁ :: more ∧ 0x80 ≤ b₁.toNat ∧ b₁.toNat ≤ 0xBF ∧
      continuing n 0x80 0xBF more = n := exists_of_continuing h

theorem utf8EncodeChar_sequence (hl : Lead.ofByte? b = some lead)
    (hc : continuing lead.following lead.low lead.high rest = lead.following) :
    String.utf8EncodeChar (Char.ofNat (joinBits lead.bits (rest.take lead.following))) ++
      rest.drop lead.following = b :: rest := by
  rcases Lead.cases_of_ofByte? hl with ⟨rfl, hb, hb'⟩ |
    ⟨low, high, rfl, hb, hb', hlow, hhigh, hfirst, hlast⟩ |
    ⟨low, high, rfl, hb, hb', hlow, hhigh, hfirst, hlast⟩
  · obtain ⟨b₁, more, rfl, h₁, h₁', -⟩ := exists_continuation hc
    have hchar : String.utf8EncodeChar (Char.ofNat (joinBits (b.toNat - 0xC0) [b₁])) =
        [b, b₁] := by
      simp only [joinBits, List.foldl_cons, List.foldl_nil]
      exact utf8EncodeChar_two (by omega) (by omega) (by omega) (by omega)
    exact congrArg (· ++ more) hchar
  · have hc : continuing 2 low high rest = 2 := hc
    obtain ⟨b₁, _, rfl, h₁, h₁', hc₁⟩ := exists_of_continuing hc
    obtain ⟨b₂, more, rfl, h₂, h₂', -⟩ := exists_continuation hc₁
    have hchar : String.utf8EncodeChar (Char.ofNat (joinBits (b.toNat - 0xE0) [b₁, b₂])) =
        [b, b₁, b₂] := by
      simp only [joinBits, List.foldl_cons, List.foldl_nil]
      exact utf8EncodeChar_three (by omega) (by omega) (by omega) (by omega) (by omega) (by omega)
    exact congrArg (· ++ more) hchar
  · have hc : continuing 3 low high rest = 3 := hc
    obtain ⟨b₁, _, rfl, h₁, h₁', hc₁⟩ := exists_of_continuing hc
    obtain ⟨b₂, _, rfl, h₂, h₂', hc₂⟩ := exists_continuation hc₁
    obtain ⟨b₃, more, rfl, h₃, h₃', -⟩ := exists_continuation hc₂
    have hchar : String.utf8EncodeChar (Char.ofNat (joinBits (b.toNat - 0xF0) [b₁, b₂, b₃])) =
        [b, b₁, b₂, b₃] := by
      simp only [joinBits, List.foldl_cons, List.foldl_nil]
      exact utf8EncodeChar_four (by omega) (by omega) (by omega) (by omega) (by omega) (by omega)
    exact congrArg (· ++ more) hchar

/-! ## A whole text -/

theorem exists_encode_of_decodeFrom (h : decodeFrom pos done octets = .ok text) :
    ∃ tail, text = done.reverse ++ tail ∧ encode tail = octets := by
  -- By the length of the octets: what has been read in front of them stays.
  induction hn : octets.length using Nat.strongRecOn generalizing octets pos done with
  | ind length ih =>
    subst hn
    unfold decodeFrom at h
    split at h
    · cases h
      exact ⟨[], by simp, rfl⟩
    · next b rest =>
      split at h
      · next hb =>
        obtain ⟨tail, rfl, he⟩ := ih rest.length (by simp) h rfl
        refine ⟨Char.ofNat b.toNat :: tail, by simp, ?_⟩
        rw [UInt8.lt_iff_toNat_lt] at hb
        rw [encode, List.flatMap_cons, utf8EncodeChar_one (Nat.le_of_lt_succ hb) rfl]
        exact congrArg (b :: ·) he
      split at h
      · cases h
      · next lead hl =>
        simp only at h
        split at h
        · next hc =>
          rw [hc] at h
          have hshorter : (rest.drop lead.following).length < (b :: rest).length := by
            simp only [List.length_drop, List.length_cons]
            omega
          obtain ⟨tail, rfl, he⟩ := ih _ hshorter h rfl
          refine ⟨Char.ofNat (joinBits lead.bits (rest.take lead.following)) :: tail, by simp, ?_⟩
          have hseq := utf8EncodeChar_sequence hl hc
          rw [← he] at hseq
          rw [encode, List.flatMap_cons]
          exact hseq
        · split at h <;> cases h

/-- Octets that are read as a text are those that it is written as. -/
theorem encode_of_decode (h : decode octets = .ok text) : encode text = octets := by
  obtain ⟨tail, rfl, he⟩ := exists_encode_of_decodeFrom h
  exact he

theorem encode_inj {text' : List Char} : encode text = encode text' ↔ text = text' := by
  constructor
  · intro h
    have hd := decode_encode text
    rw [h, decode_encode] at hd
    exact (Except.ok.inj hd).symm
  · exact congrArg encode

/-! ## Line by line -/

/-- The octet of a line feed is in no other character. -/
theorem lineFeed_mem_utf8EncodeChar_iff : (0x0A : UInt8) ∈ String.utf8EncodeChar c ↔ c = '\n' := by
  have hoctet : ∀ {n : Nat}, n < 256 → ((0x0A : UInt8) = UInt8.ofNat n ↔ n = 0x0A) := by
    intro n hn
    rw [eq_comm, ofNat_eq_iff hn]
    rfl
  have hc : c = '\n' ↔ c.val.toNat = 0x0A := by
    rw [← Char.val_inj, ← UInt32.toNat_inj]
    rfl
  rw [hc, String.utf8EncodeChar]
  split
  · rw [List.mem_singleton, hoctet (by omega)]
  split
  · simp only [List.mem_cons, List.not_mem_nil, or_false]
    rw [hoctet (by omega), hoctet (by omega)]
    omega
  split
  · simp only [List.mem_cons, List.not_mem_nil, or_false]
    rw [hoctet (by omega), hoctet (by omega), hoctet (by omega)]
    omega
  · simp only [List.mem_cons, List.not_mem_nil, or_false]
    rw [hoctet (by omega), hoctet (by omega), hoctet (by omega), hoctet (by omega)]
    omega

theorem not_mem_encode {line : Line} (hlf : '\n' ∉ line) : (0x0A : UInt8) ∉ encode line := by
  intro hm
  obtain ⟨c, hc, hm⟩ := List.mem_flatMap.1 hm
  rw [lineFeed_mem_utf8EncodeChar_iff.1 hm] at hc
  exact hlf hc

theorem encode_joinLines (lines : List Line) :
    encode (joinLines lines) = [0x0A].intercalate (lines.map encode) := by
  induction lines with
  | nil => rfl
  | cons line rest ih =>
    cases rest with
    | nil => simp [joinLines, encode]
    | cons next rest =>
      rw [joinLines, List.intercalate_cons_cons, List.map_cons, List.map_cons,
        List.intercalate_cons_cons, ← List.map_cons, ← ih]
      rw [encode, List.flatMap_append, List.flatMap_append]
      rfl

/-- The octets between line feeds are those of the lines. -/
theorem splitOn_encode (text : List Char) :
    (encode text).splitOn 0x0A = (splitLines text).map encode := by
  have hjoin := encode_joinLines (splitLines text)
  rw [joinLines_splitLines] at hjoin
  rw [hjoin]
  refine List.splitOn_intercalate _ ?_ (by simpa using splitLines_ne_nil text)
  intro octets hm
  obtain ⟨line, hl, rfl⟩ := List.mem_map.1 hm
  exact not_mem_encode (not_mem_of_mem_splitLines text line hl)

/-- Octets that are read as a text have a line in common exactly if the texts do. -/
theorem getElem?_splitOn_eq_iff {text' : List Char} {octets' : List UInt8}
    (h : decode octets = .ok text) (h' : decode octets' = .ok text') (j : Nat) :
    (octets'.splitOn 0x0A)[j]? = (octets.splitOn 0x0A)[j]? ↔
      (splitLines text')[j]? = (splitLines text)[j]? := by
  rw [← encode_of_decode h, ← encode_of_decode h', splitOn_encode, splitOn_encode,
    List.getElem?_map, List.getElem?_map]
  exact (Option.map_injective fun _ _ => encode_inj.1).eq_iff

end Recenter.Codec.Utf8
