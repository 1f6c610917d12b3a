import Recenter.Codec.Error

/-! UTF-16 and UTF-32, in either byte order. Without a fixed order a byte-order mark has to say
which one it is; writing then marks little-endian order. The decoders hold the characters that they
have read in `done`, last first. -/

namespace Recenter.Codec

inductive ByteOrder
  | little
  | big
deriving DecidableEq, Repr

def ByteOrder.suffix : ByteOrder → String
  | little => "-le"
  | big => "-be"

/-- Octets given from the lowest to the highest, in this order. -/
def ByteOrder.arrange (order : ByteOrder) (octets : List UInt8) : List UInt8 :=
  match order with
  | little => octets
  | big => octets.reverse

/-- The number that octets in this order stand for. -/
def ByteOrder.value (order : ByteOrder) (octets : List UInt8) : Nat :=
  (order.arrange octets).foldr (fun b n => n * 256 + b.toNat) 0

def octet (n : Nat) : UInt8 := UInt8.ofNat (n % 256)

end Recenter.Codec

namespace Recenter.Codec.Utf16

def isHighSurrogate (u : Nat) : Bool := 0xD800 ≤ u && u < 0xDC00

def isLowSurrogate (u : Nat) : Bool := 0xDC00 ≤ u && u < 0xE000

def joinSurrogates (high low : Nat) : Nat :=
  0x10000 + (high - 0xD800) * 0x400 + (low - 0xDC00)

/-- The 16-bit units of a character. -/
def units (c : Char) : List Nat :=
  let n := c.toNat
  if n < 0x10000 then [n]
  else [0xD800 + (n - 0x10000) / 0x400, 0xDC00 + (n - 0x10000) % 0x400]

def codec (order : ByteOrder) : String := "utf-16" ++ order.suffix

def decodeFrom (order : ByteOrder) (pos : Nat) (done : List Char) :
    List UInt8 → Except DecodeError (List Char)
  | [] => .ok done.reverse
  | [a] => .error (.malformed (codec order) a pos 1 .truncated)
  | a :: b :: rest =>
    let u := order.value [a, b]
    if isLowSurrogate u then .error (.malformed (codec order) a pos 2 .lowSurrogateFirst)
    else if isHighSurrogate u then
      match rest with
      | c :: d :: rest =>
        let v := order.value [c, d]
        if isLowSurrogate v then
          decodeFrom order (pos + 4) (Char.ofNat (joinSurrogates u v) :: done) rest
        else .error (.malformed (codec order) a pos 2 .highSurrogateAlone)
      | rest => .error (.malformed (codec order) a pos (2 + rest.length) .endOfData)
    else decodeFrom order (pos + 2) (Char.ofNat u :: done) rest

def encode (order : ByteOrder) (text : List Char) : List UInt8 :=
  text.flatMap fun c => (units c).flatMap fun u => order.arrange [octet u, octet (u / 256)]

def mark (order : ByteOrder) : List UInt8 := order.arrange [0xFF, 0xFE]

/-- Octets without a mark are read in little-endian order first, so that a flaw in them is
reported before the missing mark. -/
def decodeMarked (octets : List UInt8) : Except DecodeError (List Char) :=
  if (mark .little).isPrefixOf octets then decodeFrom .little 2 [] (octets.drop 2)
  else if (mark .big).isPrefixOf octets then decodeFrom .big 2 [] (octets.drop 2)
  else do
    let text ← decodeFrom .little 0 [] octets
    if octets.isEmpty then .ok text else .error (.unmarked "UTF-16")

end Recenter.Codec.Utf16

namespace Recenter.Codec.Utf32

def codec (order : ByteOrder) : String := "utf-32" ++ order.suffix

def decodeFrom (order : ByteOrder) (pos : Nat) (done : List Char) :
    List UInt8 → Except DecodeError (List Char)
  | a :: b :: c :: d :: rest =>
    let n := order.value [a, b, c, d]
    if 0xD800 ≤ n && n < 0xE000 then .error (.malformed (codec order) a pos 4 .surrogate)
    else if 0x110000 ≤ n then .error (.malformed (codec order) a pos 4 .beyondUnicode)
    else decodeFrom order (pos + 4) (Char.ofNat n :: done) rest
  | [] => .ok done.reverse
  | a :: rest => .error (.malformed (codec order) a pos (1 + rest.length) .truncated)

def encode (order : ByteOrder) (text : List Char) : List UInt8 :=
  text.flatMap fun c =>
    let n := c.toNat
    order.arrange [octet n, octet (n / 0x100), octet (n / 0x10000), octet (n / 0x1000000)]

def mark (order : ByteOrder) : List UInt8 := order.arrange [0xFF, 0xFE, 0, 0]

def decodeMarked (octets : List UInt8) : Except DecodeError (List Char) :=
  if (mark .little).isPrefixOf octets then decodeFrom .little 4 [] (octets.drop 4)
  else if (mark .big).isPrefixOf octets then decodeFrom .big 4 [] (octets.drop 4)
  else do
    let text ← decodeFrom .little 0 [] octets
    if octets.isEmpty then .ok text else .error (.unmarked "UTF-32")

end Recenter.Codec.Utf32
