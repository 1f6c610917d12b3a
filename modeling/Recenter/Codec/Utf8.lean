import Recenter.Codec.Error

/-! UTF-8. A malformed sequence is reported from its first octet to the last octet that could
still have belonged to it. -/

namespace Recenter.Codec.Utf8

/-- What a first octet of two or more announces: how many octets follow, the bounds of the next
one, and the bits that the first one gives. -/
structure Lead where
  following : Nat
  low : UInt8
  high : UInt8
  bits : Nat

/-- Overlong forms, surrogates and values above U+10FFFF are shut out by the bounds of the second
octet. -/
def Lead.ofByte? (b : UInt8) : Option Lead :=
  if b < 0xC2 then none
  else if b < 0xE0 then some ⟨1, 0x80, 0xBF, b.toNat - 0xC0⟩
  else if b = 0xE0 then some ⟨2, 0xA0, 0xBF, 0⟩
  else if b = 0xED then some ⟨2, 0x80, 0x9F, 0xD⟩
  else if b < 0xF0 then some ⟨2, 0x80, 0xBF, b.toNat - 0xE0⟩
  else if b = 0xF0 then some ⟨3, 0x90, 0xBF, 0⟩
  else if b < 0xF4 then some ⟨3, 0x80, 0xBF, b.toNat - 0xF0⟩
  else if b = 0xF4 then some ⟨3, 0x80, 0x8F, 4⟩
  else none

/-- How many of the next `n` octets continue a sequence, when the first of them lies between
`low` and `high` and the others between 0x80 and 0xBF. -/
def continuing : Nat → UInt8 → UInt8 → List UInt8 → Nat
  | 0, _, _, _ => 0
  | _, _, _, [] => 0
  | n + 1, low, high, b :: rest =>
    if low ≤ b ∧ b ≤ high then continuing n 0x80 0xBF rest + 1 else 0

def joinBits (bits : Nat) (octets : List UInt8) : Nat :=
  octets.foldl (fun n b => n * 64 + (b.toNat - 0x80)) bits

def decodeFrom (pos : Nat) (done : List Char) : List UInt8 → Except DecodeError (List Char)
  | [] => .ok done.reverse
  | b :: rest =>
    if b < 0x80 then decodeFrom (pos + 1) (Char.ofNat b.toNat :: done) rest
    else
      match Lead.ofByte? b with
      | none => .error (.malformed "utf-8" b pos 1 .startByte)
      | some lead =>
        let n := continuing lead.following lead.low lead.high rest
        if n = lead.following then
          decodeFrom (pos + 1 + n) (Char.ofNat (joinBits lead.bits (rest.take n)) :: done)
            (rest.drop n)
        else if n = rest.length then .error (.malformed "utf-8" b pos (n + 1) .endOfData)
        else .error (.malformed "utf-8" b pos (n + 1) .continuationByte)
termination_by octets => octets.length
decreasing_by all_goals simp only [List.length_cons, List.length_drop]; omega

def decode (octets : List UInt8) : Except DecodeError (List Char) :=
  decodeFrom 0 [] octets

def encode (text : List Char) : List UInt8 :=
  text.flatMap String.utf8EncodeChar

def mark : List UInt8 := [0xEF, 0xBB, 0xBF]

/-- Decodes what follows the mark, if there is one; positions then count from behind it. The
beginnings of a mark alone hold no text. -/
def decodeMarked (octets : List UInt8) : Except DecodeError (List Char) :=
  if octets.length < mark.length && octets.isPrefixOf mark then .ok []
  else if mark.isPrefixOf octets then decode (octets.drop mark.length)
  else decode octets

def encodeMarked (text : List Char) : List UInt8 :=
  mark ++ encode text

end Recenter.Codec.Utf8
