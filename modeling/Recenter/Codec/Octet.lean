import Recenter.Codec.Error

/-! Encodings of one octet a character: ASCII, Latin-1 and Windows-1252. Each is a partial map
from octets to characters, and its inverse writes. -/

namespace Recenter.Codec

/-- An encoding of one octet a character. -/
structure OctetCodec where
  name : String
  toChar? : UInt8 → Option Char
  ofChar? : Char → Option UInt8
  flaw : Flaw
  reach : String

namespace OctetCodec

/-- The characters read so far stand in `done`, last first. -/
def decodeFrom (codec : OctetCodec) (pos : Nat) (done : List Char) :
    List UInt8 → Except DecodeError (List Char)
  | [] => .ok done.reverse
  | b :: rest =>
    match codec.toChar? b with
    | some c => decodeFrom codec (pos + 1) (c :: done) rest
    | none => .error (.malformed codec.name b pos 1 codec.flaw)

def decode (codec : OctetCodec) (octets : List UInt8) : Except DecodeError (List Char) :=
  codec.decodeFrom 0 [] octets

def encodeFrom (codec : OctetCodec) (pos : Nat) (done : List UInt8) :
    List Char → Except EncodeError (List UInt8)
  | [] => .ok done.reverse
  | c :: rest =>
    match codec.ofChar? c with
    | some b => encodeFrom codec (pos + 1) (b :: done) rest
    | none =>
      let run := rest.takeWhile fun c => (codec.ofChar? c).isNone
      .error ⟨codec.name, c, pos, run.length + 1, codec.reach⟩

def encode (codec : OctetCodec) (text : List Char) : Except EncodeError (List UInt8) :=
  codec.encodeFrom 0 [] text

def ascii : OctetCodec where
  name := "ascii"
  toChar? b := if b < 0x80 then some (Char.ofNat b.toNat) else none
  ofChar? c := if c.toNat < 0x80 then some (UInt8.ofNat c.toNat) else none
  flaw := .notAscii
  reach := "ordinal not in range(128)"

def latin1 : OctetCodec where
  name := "latin-1"
  toChar? b := some (Char.ofNat b.toNat)
  ofChar? c := if c.toNat < 0x100 then some (UInt8.ofNat c.toNat) else none
  flaw := .notAscii
  reach := "ordinal not in range(256)"

/-- What Windows-1252 has at 0x80 to 0x9F. Zero stands where it has nothing. -/
def windows1252High : List Nat :=
  [0x20AC, 0, 0x201A, 0x0192, 0x201E, 0x2026, 0x2020, 0x2021,
   0x02C6, 0x2030, 0x0160, 0x2039, 0x0152, 0, 0x017D, 0,
   0, 0x2018, 0x2019, 0x201C, 0x201D, 0x2022, 0x2013, 0x2014,
   0x02DC, 0x2122, 0x0161, 0x203A, 0x0153, 0, 0x017E, 0x0178]

def windows1252 : OctetCodec where
  name := "charmap"
  toChar? b :=
    if b < 0x80 ∨ 0xA0 ≤ b then some (Char.ofNat b.toNat)
    else
      match windows1252High[b.toNat - 0x80]? with
      | some 0 | none => none
      | some n => some (Char.ofNat n)
  ofChar? c :=
    let n := c.toNat
    if n < 0x80 ∨ (0xA0 ≤ n ∧ n < 0x100) then some (UInt8.ofNat n)
    else if n < 0x100 then none
    else (windows1252High.findIdx? (· == n)).map fun i => UInt8.ofNat (0x80 + i)
  flaw := .undefined
  reach := "character maps to <undefined>"

end OctetCodec

end Recenter.Codec
