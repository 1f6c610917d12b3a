import Recenter.Proofs.Codec.RoundTrip

/-! Which texts an encoding can write: those of characters that it has (`exists_encode_iff`). Only
an encoding of one octet a character lacks any. It has the characters of every text that it reads
(`has_of_decode`) and the ASCII ones, so what has been read can be written again with spaces and
dashes put into it (`exists_encode_of_decode`). -/

namespace Recenter.Codec

variable {text : List Char} {c : Char} {pos : Nat} {octets : List UInt8}

/-! ## One octet a character -/

namespace OctetCodec

variable {codec : OctetCodec} {b : UInt8}

theorem exists_encodeFrom_iff {done : List UInt8} :
    (∃ octets, codec.encodeFrom pos done text = .ok octets) ↔
      ∀ c ∈ text, (codec.ofChar? c).isSome := by
  induction text generalizing pos done with
  | nil => simp [encodeFrom]
  | cons c text ih =>
    rw [encodeFrom, List.forall_mem_cons]
    cases codec.ofChar? c with
    | none => simp
    | some b => simpa using ih

theorem mem_of_decodeFrom {done : List Char} (h : codec.decodeFrom pos done octets = .ok text)
    (hc : c ∈ text) : c ∈ done ∨ ∃ b ∈ octets, codec.toChar? b = some c := by
  induction octets generalizing pos done with
  | nil =>
    cases h
    exact .inl (List.mem_reverse.1 hc)
  | cons b octets ih =>
    rw [decodeFrom] at h
    split at h
    · next found hb =>
      rcases ih h with hm | ⟨b', hm, hb'⟩
      · rcases List.mem_cons.1 hm with rfl | hm
        · exact .inr ⟨b, by simp, hb⟩
        · exact .inl hm
      · exact .inr ⟨b', by simp [hm], hb'⟩
    · cases h

/-- Every character that is read can be written, and so can the ASCII ones. -/
structure Closed (codec : OctetCodec) : Prop where
  ofChar?_isSome : ∀ {b c}, codec.toChar? b = some c → (codec.ofChar? c).isSome
  ofChar?_ascii : ∀ {c : Char}, c.toNat < 0x80 → (codec.ofChar? c).isSome

theorem Closed.has_of_decode (h : codec.Closed) (hd : codec.decode octets = .ok text) :
    ∀ c ∈ text, (codec.ofChar? c).isSome := by
  intro c hc
  rcases mem_of_decodeFrom hd hc with hm | ⟨b, -, hb⟩
  · cases hm
  · exact h.ofChar?_isSome hb

/-- A table of what the octets stand for, looked through from end to end. -/
theorem isSome_of_table
    (h : ∀ n < 256, (codec.toChar? (UInt8.ofNat n)).all fun c => (codec.ofChar? c).isSome)
    (hb : codec.toChar? b = some c) : (codec.ofChar? c).isSome := by
  have hall := h b.toNat b.toNat_lt
  rw [UInt8.ofNat_toNat, hb] at hall
  exact hall

theorem closed_ascii : ascii.Closed where
  ofChar?_isSome := isSome_of_table (by decide +kernel)
  ofChar?_ascii h := by simp [ascii, h]

theorem closed_latin1 : latin1.Closed where
  ofChar?_isSome := isSome_of_table (by decide +kernel)
  ofChar?_ascii h := by simp [latin1, Nat.lt_trans h (by decide : 0x80 < 0x100)]

theorem closed_windows1252 : windows1252.Closed where
  ofChar?_isSome := isSome_of_table (by decide +kernel)
  ofChar?_ascii h := by simp [windows1252, h]

end OctetCodec

/-! ## All encodings -/

namespace Encoding

variable {encoding : Encoding}

def has : Encoding → Char → Bool
  | ascii, c => (OctetCodec.ascii.ofChar? c).isSome
  | latin1, c => (OctetCodec.latin1.ofChar? c).isSome
  | windows1252, c => (OctetCodec.windows1252.ofChar? c).isSome
  | utf8, _ | utf8Marked, _ | utf16 _, _ | utf32 _, _ => true

theorem exists_encode_iff :
    (∃ octets, encoding.encode text = .ok octets) ↔ ∀ c ∈ text, encoding.has c = true := by
  cases encoding with
  | ascii => exact OctetCodec.exists_encodeFrom_iff
  | latin1 => exact OctetCodec.exists_encodeFrom_iff
  | windows1252 => exact OctetCodec.exists_encodeFrom_iff
  | utf8 => simp [encode, has]
  | utf8Marked => simp [encode, has]
  | utf16 order => cases order <;> simp [encode, has]
  | utf32 order => cases order <;> simp [encode, has]

/-- An encoding has what it reads. -/
theorem has_of_decode (h : encoding.decode octets = .ok text) :
    ∀ c ∈ text, encoding.has c = true := by
  cases encoding with
  | ascii => exact OctetCodec.closed_ascii.has_of_decode h
  | latin1 => exact OctetCodec.closed_latin1.has_of_decode h
  | windows1252 => exact OctetCodec.closed_windows1252.has_of_decode h
  | utf8 | utf8Marked | utf16 order | utf32 order => exact fun _ _ => rfl

theorem has_of_lt (h : c.toNat < 0x80) : encoding.has c = true := by
  cases encoding with
  | ascii => exact OctetCodec.closed_ascii.ofChar?_ascii h
  | latin1 => exact OctetCodec.closed_latin1.ofChar?_ascii h
  | windows1252 => exact OctetCodec.closed_windows1252.ofChar?_ascii h
  | utf8 | utf8Marked | utf16 order | utf32 order => rfl

/-- What has been read can be written with ASCII characters put into it. -/
theorem exists_encode_of_decode {text' : List Char} (h : encoding.decode octets = .ok text)
    (hc : ∀ c ∈ text', c ∈ text ∨ c.toNat < 0x80) :
    ∃ octets', encoding.encode text' = .ok octets' :=
  exists_encode_iff.2 fun c hm => (hc c hm).elim (has_of_decode h c) has_of_lt

end Encoding

end Recenter.Codec
