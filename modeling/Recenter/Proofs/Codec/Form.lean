import Recenter.Proofs.Codec.Fixed

/-! Octets as a mark and a text behind it. What is read is what would be written in the form that it
is read in (`encodes_reads_of_decode`); an encoding with a mark writes one form, but reads others
too. Octets that are read in another form than they are written in differ from the start
(`encodes_eq_iff`). -/

namespace Recenter.Codec

variable {text front back : List Char} {octets : List UInt8}

/-! ## Behind a mark -/

/-- The octets are the mark of an order and the text in it. Without a mark they are none, and so is
the text. -/
inductive BehindMark (mark : ByteOrder → List UInt8) (encode : ByteOrder → List Char → List UInt8) :
    List Char → List UInt8 → Prop
  | little (text : List Char) : BehindMark mark encode text (mark .little ++ encode .little text)
  | big (text : List Char) (h : ¬ mark .little <+: mark .big ++ encode .big text) :
    BehindMark mark encode text (mark .big ++ encode .big text)
  | nothing : BehindMark mark encode [] []

/-- What is read behind the mark of an order, where `decode` reads a text in it and `encode` writes
one. -/
theorem behindMark_of_marked (mark : ByteOrder → List UInt8)
    (encode : ByteOrder → List Char → List UInt8)
    (decode : ByteOrder → Nat → List UInt8 → Except DecodeError (List Char)) {size : Nat}
    {name : String} (hsize : (mark .little).length = size ∧ (mark .big).length = size)
    (hencode : ∀ order pos octets text, decode order pos octets = .ok text →
      encode order text = octets)
    (hnil : decode .little 0 [] = .ok [])
    (h : (if (mark .little).isPrefixOf octets then decode .little size (octets.drop size)
      else if (mark .big).isPrefixOf octets then decode .big size (octets.drop size)
      else do
        let text ← decode .little 0 octets
        if octets.isEmpty then .ok text else .error (.unmarked name)) = .ok text) :
    BehindMark mark encode text octets := by
  simp only [List.isPrefixOf_iff_prefix] at h
  split at h
  · next hlittle =>
    obtain ⟨behind, rfl⟩ := hlittle
    rw [← hsize.1, List.drop_left] at h
    obtain rfl := hencode _ _ _ _ h
    exact .little text
  next hlittle =>
  split at h
  · next hbig =>
    obtain ⟨behind, rfl⟩ := hbig
    rw [← hsize.2, List.drop_left] at h
    obtain rfl := hencode _ _ _ _ h
    exact .big text hlittle
  · -- Without a mark nothing but the empty text is read.
    cases hd : decode .little 0 octets with
    | error e => simp [hd, bind, Except.bind] at h
    | ok text' =>
      simp only [hd, bind, Except.bind, List.isEmpty_iff] at h
      split at h
      · next hempty =>
        subst hempty
        obtain rfl : text' = [] := Except.ok.inj (hd.symm.trans hnil)
        cases h
        exact .nothing
      · cases h

namespace Utf16

theorem behindMark_of_decodeMarked (h : decodeMarked octets = .ok text) :
    BehindMark mark encode text octets :=
  behindMark_of_marked mark encode (fun order pos => decodeFrom order pos []) (by decide)
    encode_of_decodeFrom rfl h

end Utf16

namespace Utf32

theorem behindMark_of_decodeMarked (h : decodeMarked octets = .ok text) :
    BehindMark mark encode text octets :=
  behindMark_of_marked mark encode (fun order pos => decodeFrom order pos []) (by decide)
    encode_of_decodeFrom rfl h

end Utf32

/-! ## A mark and a text behind it -/

/-- A mark, and how the text behind it is written. -/
structure Form where
  mark : List UInt8
  body : Encoding
  fixed : body.IsFixed

def Form.Encodes (form : Form) (text : List Char) (octets : List UInt8) : Prop :=
  ∃ behind, form.body.encode text = .ok behind ∧ octets = form.mark ++ behind

/-- The octets of a text begin with those of its beginning, the mark included. -/
theorem Form.Encodes.append {form : Form} (h : form.Encodes (front ++ back) octets) :
    ∃ first second, form.Encodes front first ∧ form.body.encode back = .ok second ∧
      octets = first ++ second := by
  obtain ⟨behind, he, rfl⟩ := h
  obtain ⟨first, second, hfirst, hsecond, rfl⟩ := form.fixed.encode_append he
  exact ⟨form.mark ++ first, second, ⟨first, hfirst, rfl⟩, hsecond,
    (List.append_assoc ..).symm⟩

theorem Form.Encodes.unique {form : Form} {first second : List UInt8}
    (h : form.Encodes text first) (h' : form.Encodes text second) : first = second := by
  obtain ⟨behind, he, rfl⟩ := h
  obtain ⟨behind', he', rfl⟩ := h'
  obtain rfl : behind = behind' := Except.ok.inj (he.symm.trans he')
  rfl

namespace Encoding

/-- The form in which an encoding writes. -/
def writes : Encoding → Form
  | ascii => ⟨[], .ascii, .ascii⟩
  | latin1 => ⟨[], .latin1, .latin1⟩
  | windows1252 => ⟨[], .windows1252, .windows1252⟩
  | utf8 => ⟨[], .utf8, .utf8⟩
  | utf8Marked => ⟨Utf8.mark, .utf8, .utf8⟩
  | utf16 none => ⟨Utf16.mark .little, .utf16 (some .little), .utf16 .little⟩
  | utf16 (some order) => ⟨[], .utf16 (some order), .utf16 order⟩
  | utf32 none => ⟨Utf32.mark .little, .utf32 (some .little), .utf32 .little⟩
  | utf32 (some order) => ⟨[], .utf32 (some order), .utf32 order⟩

/-- The form in which an encoding reads octets that do not begin with the mark that it writes. The
beginnings of a mark alone count as one. -/
def readsUnmarked (encoding : Encoding) (octets : List UInt8) : Form :=
  match encoding with
  | utf8Marked => ⟨if octets <+: Utf8.mark then octets else [], .utf8, .utf8⟩
  | utf16 none =>
    if octets = [] then ⟨[], .utf16 (some .little), .utf16 .little⟩
    else ⟨Utf16.mark .big, .utf16 (some .big), .utf16 .big⟩
  | utf32 none =>
    if octets = [] then ⟨[], .utf32 (some .little), .utf32 .little⟩
    else ⟨Utf32.mark .big, .utf32 (some .big), .utf32 .big⟩
  | encoding => encoding.writes

def reads (encoding : Encoding) (octets : List UInt8) : Form :=
  if encoding.writes.mark <+: octets then encoding.writes else encoding.readsUnmarked octets

variable {encoding : Encoding}

theorem reads_of_isPrefix (encoding : Encoding) (h : encoding.writes.mark <+: octets) :
    encoding.reads octets = encoding.writes := if_pos h

theorem reads_of_not_isPrefix (encoding : Encoding) (h : ¬ encoding.writes.mark <+: octets) :
    encoding.reads octets = encoding.readsUnmarked octets := if_neg h

theorem encodes_writes (h : encoding.encode text = .ok octets) :
    encoding.writes.Encodes text octets := by
  cases encoding with
  | ascii | latin1 | windows1252 | utf8 => exact ⟨octets, h, rfl⟩
  | utf8Marked =>
    cases h
    exact ⟨_, rfl, rfl⟩
  | utf16 order | utf32 order =>
    cases order with
    | none =>
      cases h
      exact ⟨_, rfl, rfl⟩
    | some order => exact ⟨octets, h, rfl⟩

theorem IsFixed.writes_eq (hf : encoding.IsFixed) : encoding.writes = ⟨[], encoding, hf⟩ := by
  cases hf <;> rfl

/-- Where an encoding has no mark, every file begins with it. -/
theorem IsFixed.mark_isPrefix (hf : encoding.IsFixed) (octets : List UInt8) :
    encoding.writes.mark <+: octets := by
  rw [hf.writes_eq]
  exact List.nil_prefix

theorem encodes_of_isFixed (hf : encoding.IsFixed) (h : encoding.decode octets = .ok text) :
    (encoding.reads octets).Encodes text octets := by
  rw [reads_of_isPrefix _ (hf.mark_isPrefix octets), hf.writes_eq]
  exact ⟨octets, hf.encode_of_decode h, rfl⟩

theorem encodes_utf8Marked (h : utf8Marked.decode octets = .ok text) :
    (utf8Marked.reads octets).Encodes text octets := by
  have h : Utf8.decodeMarked octets = .ok text := h
  simp only [Utf8.decodeMarked, Bool.and_eq_true, decide_eq_true_eq,
    List.isPrefixOf_iff_prefix] at h
  by_cases hmark : Utf8.mark <+: octets
  · rw [reads_of_isPrefix utf8Marked hmark]
    obtain ⟨behind, rfl⟩ := hmark
    have hlong : ¬ ((Utf8.mark ++ behind).length < Utf8.mark.length) := by
      rw [List.length_append]
      omega
    rw [if_neg fun hshort => hlong hshort.1, if_pos (List.prefix_append _ _),
      List.drop_left] at h
    exact ⟨behind, congrArg Except.ok (Utf8.encode_of_decode h), rfl⟩
  · rw [reads_of_not_isPrefix utf8Marked hmark]
    rw [if_neg hmark] at h
    split at h
    · next hshort =>
      cases h
      exact ⟨[], rfl, by simp [readsUnmarked, hshort.2]⟩
    · next hshort =>
      have hbegin : ¬ octets <+: Utf8.mark := by
        intro hp
        have hlength : Utf8.mark.length ≤ octets.length :=
          Nat.le_of_not_lt fun hlt => hshort ⟨hlt, hp⟩
        exact hmark (hp.eq_of_length_le hlength ▸ List.prefix_refl _)
      refine ⟨octets, congrArg Except.ok (Utf8.encode_of_decode h), ?_⟩
      simp [readsUnmarked, hbegin]

theorem encodes_utf16 (h : (utf16 none).decode octets = .ok text) :
    ((utf16 none).reads octets).Encodes text octets := by
  cases Utf16.behindMark_of_decodeMarked h with
  | little =>
    have hlittle : (utf16 none).writes.mark <+: Utf16.mark .little ++ Utf16.encode .little text :=
      List.prefix_append _ _
    rw [reads_of_isPrefix _ hlittle]
    exact ⟨_, rfl, rfl⟩
  | big _ hlittle =>
    rw [reads_of_not_isPrefix (utf16 none) hlittle]
    exact ⟨_, rfl, rfl⟩
  | nothing => exact ⟨[], rfl, rfl⟩

theorem encodes_utf32 (h : (utf32 none).decode octets = .ok text) :
    ((utf32 none).reads octets).Encodes text octets := by
  cases Utf32.behindMark_of_decodeMarked h with
  | little =>
    have hlittle : (utf32 none).writes.mark <+: Utf32.mark .little ++ Utf32.encode .little text :=
      List.prefix_append _ _
    rw [reads_of_isPrefix _ hlittle]
    exact ⟨_, rfl, rfl⟩
  | big _ hlittle =>
    rw [reads_of_not_isPrefix (utf32 none) hlittle]
    exact ⟨_, rfl, rfl⟩
  | nothing => exact ⟨[], rfl, rfl⟩

/-- What is read is what would be written in the form that it is read in. -/
theorem encodes_reads_of_decode (h : encoding.decode octets = .ok text) :
    (encoding.reads octets).Encodes text octets := by
  cases encoding with
  | ascii => exact encodes_of_isFixed .ascii h
  | latin1 => exact encodes_of_isFixed .latin1 h
  | windows1252 => exact encodes_of_isFixed .windows1252 h
  | utf8 => exact encodes_of_isFixed .utf8 h
  | utf8Marked => exact encodes_utf8Marked h
  | utf16 order =>
    cases order with
    | none => exact encodes_utf16 h
    | some order => exact encodes_of_isFixed (.utf16 order) h
  | utf32 order =>
    cases order with
    | none => exact encodes_utf32 h
    | some order => exact encodes_of_isFixed (.utf32 order) h

theorem reads_of_encode (h : encoding.encode text = .ok octets) :
    encoding.reads octets = encoding.writes := by
  obtain ⟨behind, -, rfl⟩ := encodes_writes h
  exact reads_of_isPrefix encoding (List.prefix_append _ _)

/-- A text that is written takes the octets that it was read from exactly if they were behind the
mark that the encoding writes. -/
theorem encodes_eq_iff {first second : List UInt8}
    (h : (encoding.reads octets).Encodes text first) (h' : encoding.writes.Encodes text second) :
    second = first ↔ encoding.writes.mark <+: octets := by
  by_cases hmark : encoding.writes.mark <+: octets
  · rw [reads_of_isPrefix encoding hmark] at h
    exact iff_of_true (h'.unique h) hmark
  rw [reads_of_not_isPrefix encoding hmark] at h
  refine iff_of_false (fun heq => ?_) hmark
  obtain ⟨behind, he, rfl⟩ := h
  obtain ⟨behind', he', rfl⟩ := h'
  cases encoding with
  | ascii | latin1 | windows1252 | utf8 => exact hmark List.nil_prefix
  | utf8Marked =>
    obtain rfl : behind = behind' := Except.ok.inj (he.symm.trans he')
    have hread : Utf8.mark = if octets <+: Utf8.mark then octets else [] :=
      List.append_cancel_right heq
    split at hread
    · exact hmark (hread ▸ List.prefix_refl _)
    · cases hread
  | utf16 order | utf32 order =>
    cases order with
    | some order => exact hmark List.nil_prefix
    | none =>
      simp only [readsUnmarked] at he heq
      split at heq
      · next hnil =>
        rw [if_pos hnil] at he
        obtain rfl : behind = behind' := Except.ok.inj (he.symm.trans he')
        cases List.append_cancel_right heq
      · -- the two marks are as long as each other, and differ in their first octets
        exact absurd (List.append_inj_left heq rfl) (by decide)

end Encoding

end Recenter.Codec
