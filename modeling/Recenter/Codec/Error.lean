import Recenter.Text.Hex

/-! Why octets are no text in an encoding, and why a text has no octets in one. Both name the
place: octets are counted from the start of the file, characters from the start of the text. -/

namespace Recenter.Codec

open Recenter.Text

inductive Flaw
  | startByte
  | continuationByte
  | endOfData
  | notAscii
  | undefined
  | truncated
  | lowSurrogateFirst
  | highSurrogateAlone
  | surrogate
  | beyondUnicode
deriving DecidableEq, Repr

def Flaw.message : Flaw → String
  | startByte => "invalid start byte"
  | continuationByte => "invalid continuation byte"
  | endOfData => "unexpected end of data"
  | notAscii => "ordinal not in range(128)"
  | undefined => "character maps to <undefined>"
  | truncated => "truncated data"
  | lowSurrogateFirst => "illegal encoding"
  | highSurrogateAlone => "illegal UTF-16 surrogate"
  | surrogate => "code point in surrogate code point range(0xd800, 0xe000)"
  | beyondUnicode => "code point not in range(0x110000)"

inductive DecodeError
  /-- `count` octets from position `start` on, of which `first` is the first. -/
  | malformed (codec : String) (first : UInt8) (start count : Nat) (flaw : Flaw)
  /-- The encoding asks for a byte-order mark and there is none. -/
  | unmarked (family : String)
deriving DecidableEq, Repr

def positions (start count : Nat) : String :=
  if count = 1 then toString start else toString start ++ "-" ++ toString (start + count - 1)

def DecodeError.message : DecodeError → String
  | malformed codec first start count flaw =>
    let octets := if count = 1 then "byte 0x" ++ String.ofList (hex 2 first.toNat) else "bytes"
    "'" ++ codec ++ "' codec can't decode " ++ octets ++ " in position " ++
      positions start count ++ ": " ++ flaw.message
  | unmarked family => family ++ " stream does not start with BOM"

/-- The first run of characters that an encoding lacks: `count` of them from position `start` on,
of which `first` is the first. `reach` says what the encoding has instead. -/
structure EncodeError where
  codec : String
  first : Char
  start : Nat
  count : Nat
  reach : String
deriving DecidableEq, Repr

def EncodeError.message (e : EncodeError) : String :=
  let characters :=
    if e.count = 1 then "character '" ++ String.ofList (escapeCode e.first.toNat) ++ "'"
    else "characters"
  "'" ++ e.codec ++ "' codec can't encode " ++ characters ++ " in position " ++
    positions e.start e.count ++ ": " ++ e.reach

end Recenter.Codec
