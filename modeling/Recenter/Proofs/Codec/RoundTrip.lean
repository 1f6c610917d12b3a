import Recenter.Codec.Encoding

/-! What an encoding has written it reads back as the same text (`decode_encode`). Each decoder
takes one character's octets off the front at a time, so one induction over the text serves them
all. -/

namespace Recenter.Codec

variable {text : List Char} {c : Char} {pos n : Nat} {done : List Char} {rest octets : List UInt8}

/-- A decoder that takes the octets of each character off the front reads a whole text. -/
theorem decode_flatMap {write : Char → List UInt8}
    {read : Nat → List Char → List UInt8 → Except DecodeError (List Char)}
    (hnil : ∀ pos done, read pos done [] = .ok done.reverse)
    (hstep : ∀ c pos done rest,
      ∃ pos', read pos done (write c ++ rest) = read pos' (c :: done) rest)
    (text : List Char) (pos : Nat) (done : List Char) :
    read pos done (text.flatMap write) = .ok (done.reverse ++ text) := by
  induction text generalizing pos done with
  | nil => simpa using hnil pos done
  | cons c text ih =>
    obtain ⟨pos', h⟩ := hstep c pos done (text.flatMap write)
    rw [List.flatMap_cons, h, ih]
    simp

theorem toNat_ofNat (h : n < 256) : (UInt8.ofNat n).toNat = n := UInt8.toNat_ofNat_of_lt' h

/-! ## One octet a character -/

namespace OctetCodec

/-- Every character is read from the octet that it is written as. -/
def Lawful (codec : OctetCodec) : Prop :=
  ∀ c b, codec.ofChar? c = some b → codec.toChar? b = some c

variable {codec : OctetCodec}

theorem Lawful.encodeFrom (h : codec.Lawful) {done : List UInt8}
    (he : codec.encodeFrom pos done text = .ok octets) :
    ∃ tail, octets = done.reverse ++ tail ∧
      ∀ pos done, codec.decodeFrom pos done tail = .ok (done.reverse ++ text) := by
  induction text generalizing pos done with
  | nil =>
    cases he
    exact ⟨[], by simp, fun pos done => by simp [OctetCodec.decodeFrom]⟩
  | cons c text ih =>
    rw [OctetCodec.encodeFrom] at he
    split at he
    · next b hb =>
      obtain ⟨tail, rfl, htail⟩ := ih he
      refine ⟨b :: tail, by simp, fun pos done => ?_⟩
      rw [OctetCodec.decodeFrom, h c b hb]
      simp only
      rw [htail]
      simp
    · cases he

theorem Lawful.decode_encode (h : codec.Lawful) (he : codec.encode text = .ok octets) :
    codec.decode octets = .ok text := by
  obtain ⟨tail, rfl, htail⟩ := h.encodeFrom he
  exact htail 0 []

theorem lawful_ascii : ascii.Lawful := by
  intro c b h
  simp only [ascii, Option.ite_none_right_eq_some, Option.some.injEq] at h ⊢
  obtain ⟨hc, rfl⟩ := h
  rw [UInt8.lt_iff_toNat_lt, toNat_ofNat (by omega)]
  exact ⟨hc, Char.ofNat_toNat c⟩

theorem lawful_latin1 : latin1.Lawful := by
  intro c b h
  simp only [latin1, Option.ite_none_right_eq_some, Option.some.injEq] at h ⊢
  obtain ⟨hc, rfl⟩ := h
  rw [toNat_ofNat hc, Char.ofNat_toNat]

/-- The octets below 0x80 and from 0xA0 on stand for their own numbers. -/
theorem windows1252_own_iff (h : n < 256) :
    UInt8.ofNat n < 0x80 ∨ 0xA0 ≤ UInt8.ofNat n ↔ n < 0x80 ∨ 0xA0 ≤ n := by
  rw [UInt8.lt_iff_toNat_lt, UInt8.le_iff_toNat_le, toNat_ofNat h]
  rfl

theorem lawful_windows1252 : windows1252.Lawful := by
  intro c b h
  simp only [windows1252] at h ⊢
  split at h
  · next hn =>
    cases h
    have hlt : c.toNat < 256 := by omega
    rw [if_pos ((windows1252_own_iff hlt).2 (hn.imp id And.left)), toNat_ofNat hlt,
      Char.ofNat_toNat]
  · split at h
    · cases h
    · next hn hge =>
      obtain ⟨i, hi, rfl⟩ := Option.map_eq_some_iff.1 h
      obtain ⟨hlen, hget, -⟩ := List.findIdx?_eq_some_iff_getElem.1 hi
      have hi32 : i < 32 := hlen
      rw [beq_iff_eq] at hget
      have hlt : 0x80 + i < 256 := by omega
      rw [if_neg (fun ho => absurd ((windows1252_own_iff hlt).1 ho) (by omega)), toNat_ofNat hlt,
        Nat.add_sub_cancel_left, List.getElem?_eq_getElem hlen, hget]
      split
      · next heq =>
        rw [Option.some.injEq] at heq
        omega
      · next heq => cases heq
      · next n _ heq =>
        cases heq
        rw [Char.ofNat_toNat]

end OctetCodec

/-! ## UTF-8 -/

namespace Utf8

theorem decodeFrom_ascii {b : UInt8} (h : b < 0x80) :
    decodeFrom pos done (b :: rest) = decodeFrom (pos + 1) (Char.ofNat b.toNat :: done) rest := by
  rw [decodeFrom, if_pos h]

/-- A sequence is read if its lead announces what follows. -/
theorem decodeFrom_lead {b : UInt8} {lead : Lead} {more : List UInt8} (hb : ¬ b < 0x80)
    (hl : Lead.ofByte? b = some lead) (hlen : lead.following = more.length)
    (hm : continuing lead.following lead.low lead.high (more ++ rest) = lead.following) :
    decodeFrom pos done (b :: (more ++ rest)) =
      decodeFrom (pos + 1 + more.length) (Char.ofNat (joinBits lead.bits more) :: done) rest := by
  rw [hlen] at hm
  rw [decodeFrom, if_neg hb, hl]
  simp only [hlen, hm, if_true]
  rw [List.take_left, List.drop_left]

theorem ofByte?_ofNat (h : n < 256) :
    Lead.ofByte? (UInt8.ofNat n) =
      if n < 0xC2 then none
      else if n < 0xE0 then some ⟨1, 0x80, 0xBF, n - 0xC0⟩
      else if n = 0xE0 then some ⟨2, 0xA0, 0xBF, 0⟩
      else if n = 0xED then some ⟨2, 0x80, 0x9F, 0xD⟩
      else if n < 0xF0 then some ⟨2, 0x80, 0xBF, n - 0xE0⟩
      else if n = 0xF0 then some ⟨3, 0x90, 0xBF, 0⟩
      else if n < 0xF4 then some ⟨3, 0x80, 0xBF, n - 0xF0⟩
      else if n = 0xF4 then some ⟨3, 0x80, 0x8F, 4⟩
      else none := by
  simp only [Lead.ofByte?, UInt8.lt_iff_toNat_lt, ← UInt8.toNat_inj, toNat_ofNat h]
  rfl

/-- The bits of an octet that continues a sequence. -/
theorem toNat_continuation (m : Nat) : (UInt8.ofNat (m % 0x40 + 0x80)).toNat = m % 0x40 + 0x80 :=
  toNat_ofNat (by omega)

theorem continuing_of_mem {low high : UInt8} (m : Nat)
    (hl : low.toNat ≤ m % 0x40 + 0x80) (hh : m % 0x40 + 0x80 ≤ high.toNat) :
    continuing (n + 1) low high (UInt8.ofNat (m % 0x40 + 0x80) :: rest) =
      continuing n 0x80 0xBF rest + 1 := by
  rw [continuing, if_pos]
  rw [UInt8.le_iff_toNat_le, UInt8.le_iff_toNat_le, toNat_continuation]
  exact ⟨hl, hh⟩

theorem continuing_continuation (m : Nat) :
    continuing (n + 1) 0x80 0xBF (UInt8.ofNat (m % 0x40 + 0x80) :: rest) =
      continuing n 0x80 0xBF rest + 1 := by
  apply continuing_of_mem
  · show 0x80 ≤ _
    omega
  · show _ ≤ 0xBF
    omega

theorem not_lt_of_le {m : Nat} (h : m < 256) (h' : 0x80 ≤ m) : ¬ UInt8.ofNat m < 0x80 := by
  rw [UInt8.lt_iff_toNat_lt, toNat_ofNat h]
  exact Nat.not_lt.2 h'

theorem decodeFrom_two (h : 0x7F < n) (h' : n ≤ 0x7FF) :
    decodeFrom pos done ([UInt8.ofNat (n / 64 % 0x20 + 0xC0), UInt8.ofNat (n % 0x40 + 0x80)] ++
      rest) = decodeFrom (pos + 2) (Char.ofNat n :: done) rest := by
  have hlead : Lead.ofByte? (UInt8.ofNat (n / 64 % 0x20 + 0xC0)) =
      some ⟨1, 0x80, 0xBF, n / 64⟩ := by
    have hbits : n / 64 % 0x20 + 0xC0 - 0xC0 = n / 64 := by omega
    rw [ofByte?_ofNat (by omega), if_neg (by omega), if_pos (by omega), hbits]
  have hm : continuing 1 0x80 0xBF ([UInt8.ofNat (n % 0x40 + 0x80)] ++ rest) = 1 := by
    rw [List.singleton_append, continuing_continuation]
    rfl
  have hjoin : joinBits (n / 64) [UInt8.ofNat (n % 0x40 + 0x80)] = n := by
    simp only [joinBits, List.foldl_cons, List.foldl_nil, toNat_continuation]
    omega
  refine (decodeFrom_lead (not_lt_of_le (by omega) (by omega)) hlead rfl hm).trans ?_
  rw [hjoin]
  rfl

theorem exists_lead_three (h : 0x7FF < n) (h' : n ≤ 0xFFFF) (hs : n < 0xD800 ∨ 0xDFFF < n) :
    ∃ low high,
      Lead.ofByte? (UInt8.ofNat (n / 4096 % 0x10 + 0xE0)) = some ⟨2, low, high, n / 4096⟩ ∧
      low.toNat ≤ n / 64 % 0x40 + 0x80 ∧ n / 64 % 0x40 + 0x80 ≤ high.toNat := by
  have hbits : n / 4096 % 0x10 + 0xE0 - 0xE0 = n / 4096 := by omega
  rw [ofByte?_ofNat (by omega), if_neg (by omega), if_neg (by omega), hbits]
  by_cases h0 : n / 4096 = 0
  · rw [if_pos (by omega), h0]
    refine ⟨_, _, rfl, ?_, ?_⟩
    · show 0xA0 ≤ _
      omega
    · show _ ≤ 0xBF
      omega
  by_cases hd : n / 4096 = 0xD
  · rw [if_neg (by omega), if_pos (by omega), hd]
    refine ⟨_, _, rfl, ?_, ?_⟩
    · show 0x80 ≤ _
      omega
    · show _ ≤ 0x9F
      omega
  · rw [if_neg (by omega), if_neg (by omega), if_pos (by omega)]
    refine ⟨_, _, rfl, ?_, ?_⟩
    · show 0x80 ≤ _
      omega
    · show _ ≤ 0xBF
      omega

theorem decodeFrom_three (h : 0x7FF < n) (h' : n ≤ 0xFFFF) (hs : n < 0xD800 ∨ 0xDFFF < n) :
    decodeFrom pos done ([UInt8.ofNat (n / 4096 % 0x10 + 0xE0), UInt8.ofNat (n / 64 % 0x40 + 0x80),
      UInt8.ofNat (n % 0x40 + 0x80)] ++ rest) =
        decodeFrom (pos + 3) (Char.ofNat n :: done) rest := by
  obtain ⟨low, high, hlead, hlow, hhigh⟩ := exists_lead_three h h' hs
  have hm : continuing 2 low high
      ([UInt8.ofNat (n / 64 % 0x40 + 0x80), UInt8.ofNat (n % 0x40 + 0x80)] ++ rest) = 2 := by
    rw [List.cons_append, List.singleton_append, continuing_of_mem _ hlow hhigh,
      continuing_continuation]
    rfl
  have hjoin : joinBits (n / 4096)
      [UInt8.ofNat (n / 64 % 0x40 + 0x80), UInt8.ofNat (n % 0x40 + 0x80)] = n := by
    simp only [joinBits, List.foldl_cons, List.foldl_nil, toNat_continuation]
    omega
  refine (decodeFrom_lead (not_lt_of_le (by omega) (by omega)) hlead rfl hm).trans ?_
  rw [hjoin]
  rfl

theorem exists_lead_four (h : 0xFFFF < n) (h' : n < 0x110000) :
    ∃ low high, Lead.ofByte? (UInt8.ofNat (n / 262144 % 0x08 + 0xF0)) =
        some ⟨3, low, high, n / 262144⟩ ∧
      low.toNat ≤ n / 4096 % 0x40 + 0x80 ∧ n / 4096 % 0x40 + 0x80 ≤ high.toNat := by
  have hbits : n / 262144 % 0x08 + 0xF0 - 0xF0 = n / 262144 := by omega
  rw [ofByte?_ofNat (by omega), if_neg (by omega), if_neg (by omega), if_neg (by omega),
    if_neg (by omega), if_neg (by omega), hbits]
  by_cases h0 : n / 262144 = 0
  · rw [if_pos (by omega), h0]
    refine ⟨_, _, rfl, ?_, ?_⟩
    · show 0x90 ≤ _
      omega
    · show _ ≤ 0xBF
      omega
  by_cases h4 : n / 262144 = 4
  · rw [if_neg (by omega), if_neg (by omega), if_pos (by omega), h4]
    refine ⟨_, _, rfl, ?_, ?_⟩
    · show 0x80 ≤ _
      omega
    · show _ ≤ 0x8F
      omega
  · rw [if_neg (by omega), if_pos (by omega)]
    refine ⟨_, _, rfl, ?_, ?_⟩
    · show 0x80 ≤ _
      omega
    · show _ ≤ 0xBF
      omega

theorem decodeFrom_four (h : 0xFFFF < n) (h' : n < 0x110000) :
    decodeFrom pos done ([UInt8.ofNat (n / 262144 % 0x08 + 0xF0),
      UInt8.ofNat (n / 4096 % 0x40 + 0x80), UInt8.ofNat (n / 64 % 0x40 + 0x80),
      UInt8.ofNat (n % 0x40 + 0x80)] ++ rest) =
        decodeFrom (pos + 4) (Char.ofNat n :: done) rest := by
  obtain ⟨low, high, hlead, hlow, hhigh⟩ := exists_lead_four h h'
  have hm : continuing 3 low high ([UInt8.ofNat (n / 4096 % 0x40 + 0x80),
      UInt8.ofNat (n / 64 % 0x40 + 0x80), UInt8.ofNat (n % 0x40 + 0x80)] ++ rest) = 3 := by
    rw [List.cons_append, List.cons_append, List.singleton_append, continuing_of_mem _ hlow hhigh,
      continuing_continuation, continuing_continuation]
    rfl
  have hjoin : joinBits (n / 262144) [UInt8.ofNat (n / 4096 % 0x40 + 0x80),
      UInt8.ofNat (n / 64 % 0x40 + 0x80), UInt8.ofNat (n % 0x40 + 0x80)] = n := by
    simp only [joinBits, List.foldl_cons, List.foldl_nil, toNat_continuation]
    omega
  refine (decodeFrom_lead (not_lt_of_le (by omega) (by omega)) hlead rfl hm).trans ?_
  rw [hjoin]
  rfl

/-- The octets of a character are read as the character. -/
theorem decodeFrom_utf8EncodeChar (c : Char) (pos : Nat) (done : List Char) (rest : List UInt8) :
    ∃ pos', decodeFrom pos done (String.utf8EncodeChar c ++ rest) =
      decodeFrom pos' (c :: done) rest := by
  have hvalid : c.val.toNat < 0xD800 ∨ (0xDFFF < c.val.toNat ∧ c.val.toNat < 0x110000) := c.valid
  have hc : Char.ofNat c.val.toNat = c := Char.ofNat_toNat c
  unfold String.utf8EncodeChar
  simp only
  split
  · next h =>
    refine ⟨pos + 1, ?_⟩
    rw [List.singleton_append, decodeFrom_ascii, toNat_ofNat (by omega), hc]
    rw [UInt8.lt_iff_toNat_lt, toNat_ofNat (by omega)]
    exact Nat.lt_succ_of_le h
  · split
    · refine ⟨pos + 2, ?_⟩
      rw [decodeFrom_two (by omega) (by omega), hc]
    · split
      · refine ⟨pos + 3, ?_⟩
        rw [decodeFrom_three (by omega) (by omega) (by omega), hc]
      · refine ⟨pos + 4, ?_⟩
        rw [decodeFrom_four (by omega) (by omega), hc]

theorem decode_encode (text : List Char) : decode (encode text) = .ok text :=
  decode_flatMap (fun _ _ => by rw [decodeFrom]) decodeFrom_utf8EncodeChar text 0 []

theorem decodeMarked_encodeMarked (text : List Char) :
    decodeMarked (encodeMarked text) = .ok text := by
  have hshort : ¬ ((mark ++ encode text).length < mark.length &&
      (mark ++ encode text).isPrefixOf mark) = true := by
    rw [Bool.and_eq_true, decide_eq_true_eq, List.length_append]
    exact fun h => absurd h.1 (Nat.not_lt.2 (Nat.le_add_right _ _))
  have hmark : mark.isPrefixOf (mark ++ encode text) = true :=
    List.isPrefixOf_iff_prefix.2 (List.prefix_append _ _)
  rw [decodeMarked, encodeMarked, if_neg hshort, if_pos hmark, List.drop_left, decode_encode]

end Utf8

/-! ## Two and four octets -/

theorem toNat_octet (n : Nat) : (octet n).toNat = n % 256 := toNat_ofNat (Nat.mod_lt _ (by omega))

theorem ByteOrder.arrange_arrange (order : ByteOrder) (octets : List UInt8) :
    order.arrange (order.arrange octets) = octets := by
  cases order
  · rfl
  · exact List.reverse_reverse octets

theorem ByteOrder.exists_pair (order : ByteOrder) (h : n < 0x10000) :
    ∃ a b, order.arrange [octet n, octet (n / 256)] = [a, b] ∧ order.value [a, b] = n := by
  obtain ⟨a, b, he⟩ : ∃ a b, order.arrange [octet n, octet (n / 256)] = [a, b] := by
    cases order <;> exact ⟨_, _, rfl⟩
  refine ⟨a, b, he, ?_⟩
  rw [value, ← he, order.arrange_arrange]
  simp only [List.foldr_cons, List.foldr_nil, toNat_octet]
  omega

theorem ByteOrder.exists_quad (order : ByteOrder) (h : n < 0x110000) :
    ∃ a b c d, order.arrange [octet n, octet (n / 0x100), octet (n / 0x10000),
      octet (n / 0x1000000)] = [a, b, c, d] ∧ order.value [a, b, c, d] = n := by
  obtain ⟨a, b, c, d, he⟩ : ∃ a b c d, order.arrange [octet n, octet (n / 0x100),
      octet (n / 0x10000), octet (n / 0x1000000)] = [a, b, c, d] := by
    cases order <;> exact ⟨_, _, _, _, rfl⟩
  refine ⟨a, b, c, d, he, ?_⟩
  rw [value, ← he, order.arrange_arrange]
  simp only [List.foldr_cons, List.foldr_nil, toNat_octet]
  omega

namespace Utf16

variable {order : ByteOrder}

theorem decodeFrom_unit {a b : UInt8} (hlow : isLowSurrogate (order.value [a, b]) = false)
    (hhigh : isHighSurrogate (order.value [a, b]) = false) :
    decodeFrom order pos done (a :: b :: rest) =
      decodeFrom order (pos + 2) (Char.ofNat (order.value [a, b]) :: done) rest := by
  match rest with
  | c :: d :: rest =>
    rw [decodeFrom.eq_3]
    simp only [hlow, hhigh, Bool.false_eq_true, if_false]
  | [] | [c] =>
    rw [decodeFrom.eq_4 _ _ _ _ _ _ (by simp)]
    simp only [hlow, hhigh, Bool.false_eq_true, if_false]

theorem decodeFrom_surrogates {a b c d : UInt8}
    (hlow : isLowSurrogate (order.value [a, b]) = false)
    (hhigh : isHighSurrogate (order.value [a, b]) = true)
    (hlow' : isLowSurrogate (order.value [c, d]) = true) :
    decodeFrom order pos done (a :: b :: c :: d :: rest) =
      decodeFrom order (pos + 4)
        (Char.ofNat (joinSurrogates (order.value [a, b]) (order.value [c, d])) :: done) rest := by
  rw [decodeFrom.eq_3]
  simp [hlow, hhigh, hlow']

theorem joinSurrogates_split (h : 0x10000 ≤ n) :
    joinSurrogates (0xD800 + (n - 0x10000) / 0x400) (0xDC00 + (n - 0x10000) % 0x400) = n := by
  obtain ⟨m, rfl⟩ := Nat.exists_eq_add_of_le h
  unfold joinSurrogates
  rw [Nat.add_sub_cancel_left, Nat.add_sub_cancel_left, Nat.add_sub_cancel_left, Nat.add_assoc,
    Nat.div_add_mod']

/-- The units of a character are read as the character. -/
theorem exists_decodeFrom_units (order : ByteOrder) (c : Char) (pos : Nat) (done : List Char)
    (rest : List UInt8) :
    ∃ pos', decodeFrom order pos done
      ((units c).flatMap (fun u => order.arrange [octet u, octet (u / 256)]) ++ rest) =
        decodeFrom order pos' (c :: done) rest := by
  have hvalid : c.toNat < 0xD800 ∨ (0xDFFF < c.toNat ∧ c.toNat < 0x110000) := c.valid
  unfold units
  simp only
  split
  · next h =>
    obtain ⟨a, b, he, hv⟩ := order.exists_pair h
    have hlow : isLowSurrogate (order.value [a, b]) = false := by
      simp only [hv, isLowSurrogate, Bool.and_eq_false_iff, decide_eq_false_iff_not]
      omega
    have hhigh : isHighSurrogate (order.value [a, b]) = false := by
      simp only [hv, isHighSurrogate, Bool.and_eq_false_iff, decide_eq_false_iff_not]
      omega
    refine ⟨pos + 2, ?_⟩
    rw [List.flatMap_singleton, he, List.cons_append, List.singleton_append,
      decodeFrom_unit hlow hhigh, hv, Char.ofNat_toNat]
  · next h =>
    obtain ⟨a, b, he, hv⟩ :=
      order.exists_pair (n := 0xD800 + (c.toNat - 0x10000) / 0x400) (by omega)
    obtain ⟨a', b', he', hv'⟩ :=
      order.exists_pair (n := 0xDC00 + (c.toNat - 0x10000) % 0x400) (by omega)
    have hlow : isLowSurrogate (order.value [a, b]) = false := by
      simp only [hv, isLowSurrogate, Bool.and_eq_false_iff, decide_eq_false_iff_not]
      omega
    have hhigh : isHighSurrogate (order.value [a, b]) = true := by
      simp only [hv, isHighSurrogate, Bool.and_eq_true, decide_eq_true_eq]
      omega
    have hlow' : isLowSurrogate (order.value [a', b']) = true := by
      simp only [hv', isLowSurrogate, Bool.and_eq_true, decide_eq_true_eq]
      omega
    have hjoin : joinSurrogates (order.value [a, b]) (order.value [a', b']) = c.toNat := by
      rw [hv, hv', joinSurrogates_split (Nat.le_of_not_lt h)]
    refine ⟨pos + 4, ?_⟩
    rw [List.flatMap_cons, List.flatMap_singleton, he, he', List.cons_append, List.singleton_append,
      List.cons_append, List.cons_append, List.cons_append, List.singleton_append,
      decodeFrom_surrogates hlow hhigh hlow', hjoin, Char.ofNat_toNat]

theorem decodeFrom_encode (order : ByteOrder) (pos : Nat) (text : List Char) :
    decodeFrom order pos [] (encode order text) = .ok text :=
  decode_flatMap (fun _ _ => by rw [decodeFrom]) (exists_decodeFrom_units order) text pos []

theorem decodeMarked_encode (text : List Char) :
    decodeMarked (mark .little ++ encode .little text) = .ok text := by
  have hmark : (mark .little).isPrefixOf (mark .little ++ encode .little text) = true :=
    List.isPrefixOf_iff_prefix.2 (List.prefix_append _ _)
  rw [decodeMarked, if_pos hmark]
  exact decodeFrom_encode .little 2 text

end Utf16

namespace Utf32

theorem exists_decodeFrom_char (order : ByteOrder) (c : Char) (pos : Nat) (done : List Char)
    (rest : List UInt8) :
    ∃ pos', decodeFrom order pos done
      (order.arrange [octet c.toNat, octet (c.toNat / 0x100), octet (c.toNat / 0x10000),
        octet (c.toNat / 0x1000000)] ++ rest) = decodeFrom order pos' (c :: done) rest := by
  have hvalid : c.toNat < 0xD800 ∨ (0xDFFF < c.toNat ∧ c.toNat < 0x110000) := c.valid
  obtain ⟨x, y, z, w, he, hv⟩ := order.exists_quad (n := c.toNat) (by omega)
  have hsurrogate : ¬ (0xD800 ≤ c.toNat && c.toNat < 0xE000) = true := by
    rw [Bool.and_eq_true, decide_eq_true_eq, decide_eq_true_eq]
    omega
  refine ⟨pos + 4, ?_⟩
  rw [he]
  show decodeFrom order pos done (x :: y :: z :: w :: rest) = _
  rw [decodeFrom.eq_1, hv, if_neg hsurrogate, if_neg (by omega), Char.ofNat_toNat]

theorem decodeFrom_encode (order : ByteOrder) (pos : Nat) (text : List Char) :
    decodeFrom order pos [] (encode order text) = .ok text :=
  decode_flatMap (fun _ _ => by rw [decodeFrom.eq_2]) (exists_decodeFrom_char order) text pos []

theorem decodeMarked_encode (text : List Char) :
    decodeMarked (mark .little ++ encode .little text) = .ok text := by
  have hmark : (mark .little).isPrefixOf (mark .little ++ encode .little text) = true :=
    List.isPrefixOf_iff_prefix.2 (List.prefix_append _ _)
  rw [decodeMarked, if_pos hmark]
  exact decodeFrom_encode .little 4 text

end Utf32

/-! ## Every encoding -/

namespace Encoding

variable {encoding : Encoding}

/-- What an encoding has written it reads back as the same text. -/
theorem decode_encode (h : encoding.encode text = .ok octets) :
    encoding.decode octets = .ok text := by
  cases encoding with
  | ascii => exact OctetCodec.lawful_ascii.decode_encode h
  | latin1 => exact OctetCodec.lawful_latin1.decode_encode h
  | windows1252 => exact OctetCodec.lawful_windows1252.decode_encode h
  | utf8 =>
    cases h
    exact Utf8.decode_encode text
  | utf8Marked =>
    cases h
    exact Utf8.decodeMarked_encodeMarked text
  | utf16 order =>
    cases order with
    | none =>
      cases h
      exact Utf16.decodeMarked_encode text
    | some order =>
      cases h
      exact Utf16.decodeFrom_encode order 0 text
  | utf32 order =>
    cases order with
    | none =>
      cases h
      exact Utf32.decodeMarked_encode text
    | some order =>
      cases h
      exact Utf32.decodeFrom_encode order 0 text

end Encoding

end Recenter.Codec
