import Recenter.Proofs.Codec.Canonical

/-! Encodings that have no mark. Each character of a text is written for itself, so the octets of a
text begin with those of its beginning (`IsFixed.encode_append`); and each is written in one way
only, so octets that are read as a text are the octets that it is written as
(`IsFixed.encode_of_decode`). -/

namespace Recenter.Codec

variable {text front back : List Char} {c : Char} {pos n : Nat} {done : List Char}
  {octets rest : List UInt8} {a b : UInt8} {order : ByteOrder}

/-! ## One octet a character -/

namespace OctetCodec

variable {codec : OctetCodec}

theorem encodeFrom_eq_ok_iff {done : List UInt8} :
    codec.encodeFrom pos done text = .ok octets ↔
      ∃ tail, octets = done.reverse ++ tail ∧ text.map codec.ofChar? = tail.map some := by
  induction text generalizing pos done with
  | nil =>
    rw [encodeFrom, Except.ok.injEq, List.map_nil]
    constructor
    · rintro rfl
      exact ⟨[], by simp, rfl⟩
    · rintro ⟨tail, rfl, htail⟩
      rw [List.map_eq_nil_iff.1 htail.symm, List.append_nil]
  | cons c text ih =>
    rw [encodeFrom, List.map_cons]
    cases hc : codec.ofChar? c with
    | none =>
      refine iff_of_false (fun h => by cases h) ?_
      rintro ⟨tail, -, htail⟩
      obtain ⟨_, _, -, hb, -⟩ := List.map_eq_cons_iff.1 htail.symm
      cases hb
    | some b =>
      simp only [ih, List.reverse_cons, List.append_assoc, List.singleton_append]
      constructor
      · rintro ⟨tail, rfl, htail⟩
        exact ⟨b :: tail, rfl, by rw [htail, List.map_cons]⟩
      · rintro ⟨tail, rfl, htail⟩
        obtain ⟨_, tail, rfl, hb, -⟩ := List.map_eq_cons_iff.1 htail.symm
        cases hb
        exact ⟨tail, rfl, (List.cons.inj htail).2⟩

/-- A text is written character by character. -/
theorem encode_eq_ok_iff :
    codec.encode text = .ok octets ↔ text.map codec.ofChar? = octets.map some := by
  rw [encode, encodeFrom_eq_ok_iff]
  simp

theorem exists_tail_of_decodeFrom (h : codec.decodeFrom pos done octets = .ok text) :
    ∃ tail, text = done.reverse ++ tail ∧ octets.map codec.toChar? = tail.map some := by
  induction octets generalizing pos done with
  | nil =>
    cases h
    exact ⟨[], by simp, rfl⟩
  | cons b octets ih =>
    rw [decodeFrom] at h
    split at h
    · next c hc =>
      obtain ⟨tail, rfl, htail⟩ := ih h
      exact ⟨c :: tail, by simp, by rw [List.map_cons, List.map_cons, hc, htail]⟩
    · cases h

/-- Every octet is written for the character that it is read as. -/
def Canonical (codec : OctetCodec) : Prop :=
  ∀ b c, codec.toChar? b = some c → codec.ofChar? c = some b

theorem canonical_of_table
    (h : ∀ n < 256, (codec.toChar? (UInt8.ofNat n)).all fun c =>
      codec.ofChar? c == some (UInt8.ofNat n)) : codec.Canonical := by
  intro b c hb
  have hall := h b.toNat b.toNat_lt
  rw [UInt8.ofNat_toNat, hb] at hall
  exact beq_iff_eq.1 hall

theorem canonical_ascii : ascii.Canonical := canonical_of_table (by decide +kernel)

theorem canonical_latin1 : latin1.Canonical := canonical_of_table (by decide +kernel)

theorem canonical_windows1252 : windows1252.Canonical := canonical_of_table (by decide +kernel)

theorem Canonical.encode_of_decode (h : codec.Canonical) (hd : codec.decode octets = .ok text) :
    codec.encode text = .ok octets := by
  obtain ⟨_, rfl, htail⟩ := exists_tail_of_decodeFrom hd
  rw [encode_eq_ok_iff]
  clear hd
  induction octets generalizing text with
  | nil =>
    rw [List.map_nil] at htail
    rw [List.map_eq_nil_iff.1 htail.symm]
    rfl
  | cons b octets ih =>
    obtain ⟨c, tail, rfl, hc, htail⟩ := List.map_eq_cons_iff.1 htail.symm
    rw [List.map_cons, List.map_cons, h b c hc.symm, ih htail.symm]

end OctetCodec

/-! ## Two and four octets -/

/-- The octets of a number, the lowest first. -/
theorem octet_add (b : UInt8) (n : Nat) : octet (n * 256 + b.toNat) = b := by
  have hb := b.toNat_lt
  rw [← UInt8.toNat_inj, toNat_octet]
  omega

theorem add_div (b : UInt8) (n : Nat) : (n * 256 + b.toNat) / 256 = n := by
  have hb := b.toNat_lt
  omega

theorem ByteOrder.arrange_pair (order : ByteOrder) (a b : UInt8) :
    order.value [a, b] < 0x10000 ∧
      order.arrange [octet (order.value [a, b]), octet (order.value [a, b] / 256)] = [a, b] := by
  obtain ⟨x, y, he⟩ : ∃ x y, order.arrange [a, b] = [x, y] := by
    cases order <;> exact ⟨_, _, rfl⟩
  have hx := x.toNat_lt
  have hy := y.toNat_lt
  rw [value, he]
  simp only [List.foldr_cons, List.foldr_nil, add_div, octet_add]
  exact ⟨by omega, by rw [← he, order.arrange_arrange]⟩

theorem ByteOrder.arrange_quad (order : ByteOrder) (a b c d : UInt8) :
    order.arrange [octet (order.value [a, b, c, d]), octet (order.value [a, b, c, d] / 0x100),
      octet (order.value [a, b, c, d] / 0x10000),
      octet (order.value [a, b, c, d] / 0x1000000)] = [a, b, c, d] := by
  obtain ⟨x, y, z, w, he⟩ : ∃ x y z w, order.arrange [a, b, c, d] = [x, y, z, w] := by
    cases order <;> exact ⟨_, _, _, _, rfl⟩
  have hthird : ∀ n : Nat, n / 0x10000 = n / 256 / 256 := fun n => by omega
  have hfourth : ∀ n : Nat, n / 0x1000000 = n / 256 / 256 / 256 := fun n => by omega
  rw [value, he, hthird, hfourth]
  simp only [List.foldr_cons, List.foldr_nil, add_div, octet_add]
  rw [← he, order.arrange_arrange]

namespace Utf16

theorem encode_append (order : ByteOrder) (front back : List Char) :
    encode order (front ++ back) = encode order front ++ encode order back :=
  List.flatMap_append

theorem units_ofNat (h : n < 0x10000) (hlow : isLowSurrogate n = false)
    (hhigh : isHighSurrogate n = false) : units (Char.ofNat n) = [n] := by
  simp only [isLowSurrogate, isHighSurrogate, Bool.and_eq_false_iff, decide_eq_false_iff_not] at *
  have hvalid : n.isValidChar := by
    rcases hlow with hlow | hlow
    · exact .inl (by omega)
    · exact .inr ⟨by omega, by omega⟩
  have hn : (Char.ofNat n).toNat = n := Utf8.val_ofNat hvalid
  rw [units, hn, if_pos h]

/-- Two surrogates are those of the character that they are joined to. -/
theorem units_joinSurrogates {u v : Nat} (hhigh : isHighSurrogate u = true)
    (hlow : isLowSurrogate v = true) : units (Char.ofNat (joinSurrogates u v)) = [u, v] := by
  simp only [isLowSurrogate, isHighSurrogate, Bool.and_eq_true, decide_eq_true_eq] at *
  have hvalid : (joinSurrogates u v).isValidChar := by
    unfold joinSurrogates
    exact .inr ⟨by omega, by omega⟩
  have hn : (Char.ofNat (joinSurrogates u v)).toNat = joinSurrogates u v := Utf8.val_ofNat hvalid
  have hfirst : 0xD800 + (joinSurrogates u v - 0x10000) / 0x400 = u := by
    unfold joinSurrogates
    omega
  have hsecond : 0xDC00 + (joinSurrogates u v - 0x10000) % 0x400 = v := by
    unfold joinSurrogates
    omega
  rw [units, hn, if_neg (by unfold joinSurrogates; omega), hfirst, hsecond]

/-- Octets that are read as a text are those that it is written as in the same order. -/
theorem exists_encode_of_decodeFrom (h : decodeFrom order pos done octets = .ok text) :
    ∃ tail, text = done.reverse ++ tail ∧ encode order tail = octets := by
  fun_induction decodeFrom order pos done octets with
  | case1 pos done =>
    cases h
    exact ⟨[], by simp, rfl⟩
  | case2 | case3 | case5 | case6 => cases h
  | case4 pos done a b u hlow hhigh c d rest v hlow' ih =>
    obtain ⟨tail, rfl, rfl⟩ := ih h
    refine ⟨Char.ofNat (joinSurrogates u v) :: tail, by simp, ?_⟩
    have hfirst : order.arrange [octet u, octet (u / 256)] = [a, b] := (order.arrange_pair a b).2
    have hsecond : order.arrange [octet v, octet (v / 256)] = [c, d] := (order.arrange_pair c d).2
    rw [encode, List.flatMap_cons, units_joinSurrogates hhigh hlow', List.flatMap_cons,
      List.flatMap_singleton, hfirst, hsecond]
    rfl
  | case7 pos done a b rest u hlow hhigh ih =>
    obtain ⟨tail, rfl, rfl⟩ := ih h
    refine ⟨Char.ofNat u :: tail, by simp, ?_⟩
    obtain ⟨hlt, hpair⟩ := order.arrange_pair a b
    have hunits : units (Char.ofNat u) = [u] :=
      units_ofNat hlt (Bool.eq_false_iff.2 hlow) (Bool.eq_false_iff.2 hhigh)
    rw [encode, List.flatMap_cons, hunits, List.flatMap_singleton]
    exact congrArg (· ++ encode order tail) hpair

theorem encode_of_decodeFrom (order : ByteOrder) (pos : Nat) (octets : List UInt8)
    (text : List Char) (h : decodeFrom order pos [] octets = .ok text) :
    encode order text = octets := by
  obtain ⟨_, rfl, he⟩ := exists_encode_of_decodeFrom h
  exact he

end Utf16

namespace Utf32

theorem encode_append (order : ByteOrder) (front back : List Char) :
    encode order (front ++ back) = encode order front ++ encode order back :=
  List.flatMap_append

theorem exists_encode_of_decodeFrom (h : decodeFrom order pos done octets = .ok text) :
    ∃ tail, text = done.reverse ++ tail ∧ encode order tail = octets := by
  fun_induction decodeFrom order pos done octets with
  | case1 | case2 | case5 => cases h
  | case3 pos done a b c d rest n hsurrogate hlt ih =>
    obtain ⟨tail, rfl, rfl⟩ := ih h
    have hvalid : n.isValidChar := by
      simp only [Bool.and_eq_true, decide_eq_true_eq, not_and, Nat.not_lt] at hsurrogate hlt
      by_cases hn : n < 0xD800
      · exact .inl hn
      · exact .inr ⟨by have := hsurrogate (Nat.le_of_not_lt hn); omega, by omega⟩
    refine ⟨Char.ofNat n :: tail, by simp, ?_⟩
    have hn : (Char.ofNat n).toNat = n := Utf8.val_ofNat hvalid
    rw [encode, List.flatMap_cons]
    simp only [hn]
    exact congrArg (· ++ encode order tail) (order.arrange_quad a b c d)
  | case4 pos done =>
    cases h
    exact ⟨[], by simp, rfl⟩

theorem encode_of_decodeFrom (order : ByteOrder) (pos : Nat) (octets : List UInt8)
    (text : List Char) (h : decodeFrom order pos [] octets = .ok text) :
    encode order text = octets := by
  obtain ⟨_, rfl, he⟩ := exists_encode_of_decodeFrom h
  exact he

end Utf32

/-! ## Encodings without a mark -/

namespace Encoding

/-- The encodings that neither write a mark nor look for one. -/
inductive IsFixed : Encoding → Prop
  | ascii : IsFixed .ascii
  | latin1 : IsFixed .latin1
  | windows1252 : IsFixed .windows1252
  | utf8 : IsFixed .utf8
  | utf16 (order : ByteOrder) : IsFixed (.utf16 (some order))
  | utf32 (order : ByteOrder) : IsFixed (.utf32 (some order))

variable {encoding : Encoding}

/-- What is read without a mark is what would be written. -/
theorem IsFixed.encode_of_decode (hf : encoding.IsFixed) (h : encoding.decode octets = .ok text) :
    encoding.encode text = .ok octets := by
  cases hf with
  | ascii => exact OctetCodec.canonical_ascii.encode_of_decode h
  | latin1 => exact OctetCodec.canonical_latin1.encode_of_decode h
  | windows1252 => exact OctetCodec.canonical_windows1252.encode_of_decode h
  | utf8 => exact congrArg Except.ok (Utf8.encode_of_decode h)
  | utf16 order => exact congrArg Except.ok (Utf16.encode_of_decodeFrom _ _ _ _ h)
  | utf32 order => exact congrArg Except.ok (Utf32.encode_of_decodeFrom _ _ _ _ h)

theorem IsFixed.encode_append (hf : encoding.IsFixed)
    (h : encoding.encode (front ++ back) = .ok octets) :
    ∃ first second, encoding.encode front = .ok first ∧ encoding.encode back = .ok second ∧
      octets = first ++ second := by
  have hoctets : ∀ codec : OctetCodec, codec.encode (front ++ back) = .ok octets →
      ∃ first second, codec.encode front = .ok first ∧ codec.encode back = .ok second ∧
        octets = first ++ second := by
    intro codec h
    rw [OctetCodec.encode_eq_ok_iff, List.map_append] at h
    obtain ⟨first, second, rfl, hfirst, hsecond⟩ := List.map_eq_append_iff.1 h.symm
    exact ⟨first, second, OctetCodec.encode_eq_ok_iff.2 hfirst.symm,
      OctetCodec.encode_eq_ok_iff.2 hsecond.symm, rfl⟩
  cases hf with
  | ascii => exact hoctets .ascii h
  | latin1 => exact hoctets .latin1 h
  | windows1252 => exact hoctets .windows1252 h
  | utf8 =>
    cases h
    exact ⟨_, _, rfl, rfl, List.flatMap_append⟩
  | utf16 order =>
    cases h
    exact ⟨_, _, rfl, rfl, Utf16.encode_append order front back⟩
  | utf32 order =>
    cases h
    exact ⟨_, _, rfl, rfl, Utf32.encode_append order front back⟩

end Encoding

end Recenter.Codec
