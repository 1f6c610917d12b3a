import Recenter.Datum.Value
import Recenter.Number.Numeral
import Recenter.Text.Lowercase
import Recenter.Text.Split
import Recenter.Yaml.Fault
import Recenter.Yaml.Tag

/-! The values of YAML scalars. The tag says which form a text is to have; where it has not, the
fault names what there is no value for. -/

namespace Recenter.Yaml.Value

open Recenter.Text

def integer (base : Nat) (text : List Char) : Except ValueFault Int :=
  match Number.integer base text with
  | .ok n => .ok n
  | .error .malformed => .error (.integer text base)
  | .error (.oversized digits) => .error (.oversized digits)

/-- An integer: binary, octal and hexadecimal by its first digits, or base sixty by its colons.
Underscores count for nothing. -/
def int (text : List Char) : Except ValueFault Int := do
  let (negative, s) := Number.unsigned (text.filter (· != '_'))
  let size ←
    match s with
    | [] => .error .empty
    | ['0'] => .ok 0
    | '0' :: 'b' :: digits => integer 2 digits
    | '0' :: 'x' :: digits => integer 16 digits
    | '0' :: _ => integer 8 s
    | _ =>
      if s.contains ':' then do
        let parts ← (splitAt ':' s).mapM (integer 10)
        .ok (parts.foldl (fun n part => n * 60 + part) 0)
      else integer 10 s
  .ok (if negative then -size else size)

def fraction (text : List Char) : Except ValueFault Number.Binary64 :=
  match Number.fraction? text with
  | some x => .ok x
  | none => .error (.float text)

/-- The sum of base-sixty digits, the last one first. The weights of the digits have to be finite
numbers, whatever the digits are. -/
def sixtyfold (sum : Number.Binary64) (weight : Nat) :
    List Number.Binary64 → Except ValueFault Number.Binary64
  | [] => .ok sum
  | digit :: rest =>
    match Number.Binary64.ofNat? weight with
    | none => .error .wideFloat
    | some factor => sixtyfold (sum.add (digit.mul factor)) (weight * 60) rest

/-- The text of a floating-point number in small letters and without underscores. -/
def floatText (text : List Char) : List Char :=
  lowercase (text.filter (· != '_'))

def nanText : List Char := ".nan".toList

def isNanText (text : List Char) : Bool :=
  (Number.unsigned (floatText text)).2 == nanText

/-- A floating-point number, or one in base sixty by its colons. -/
def float (text : List Char) : Except ValueFault Number.Binary64 := do
  let s := floatText text
  if s.isEmpty then .error .empty
  else
    let (negative, s) := Number.unsigned s
    let size ←
      if s == ".inf".toList then .ok (.infinite false)
      else if s == nanText then .ok .nan
      else if s.contains ':' then do
        sixtyfold (.zero false) 1 (← (splitAt ':' s).mapM fraction).reverse
      else fraction s
    .ok (if negative then size.negate else size)

def truth (text : List Char) : Except ValueFault Bool :=
  let s := lowercase text
  if Tag.isWord ["yes", "true", "on"] s then .ok true
  else if Tag.isWord ["no", "false", "off"] s then .ok false
  else .error (.truth s)

def number? (least most : Nat) (s : List Char) : Option (Nat × List Char) :=
  let digits := (s.take most).takeWhile Char.isDigit
  if least ≤ digits.length then some (Number.digitsValue digits, s.drop digits.length) else none

def after? (c : Char) : List Char → Option (List Char)
  | d :: rest => if d = c then some rest else none
  | [] => none

/-- The seconds of an offset from universal time, which ends the text. -/
def zone? (s : List Char) : Option (Option Int) :=
  match s.dropWhile Tag.isBlankOrTab with
  | [] => if s.isEmpty then some none else none
  | ['Z'] => some (some 0)
  | c :: rest => do
    if c != '+' && c != '-' then none
    else
      let (hours, rest) ← number? 1 2 rest
      let minutes ←
        match rest with
        | [] => some 0
        | _ => do
          let (minutes, rest) ← number? 2 2 (← after? ':' rest)
          if rest.isEmpty then some minutes else none
      let seconds : Int := hours * 3600 + minutes * 60
      some (some (if c == '-' then -seconds else seconds))

/-- The digits of a fraction of a second, as millionths. -/
def micro (digits : List Char) : Nat :=
  let kept := digits.take 6
  Number.digitsValue (kept ++ List.replicate (6 - kept.length) '0')

/-- A date, or a date and a time of day. One line feed may stand behind it. -/
def timestamp (text : List Char) : Except ValueFault Datum := do
  let text := if text.getLast? == some '\n' then text.dropLast else text
  let day? : Option (Nat × Nat × Nat × List Char) := do
    let (year, s) ← number? 4 4 text
    let (month, s) ← number? 1 2 (← after? '-' s)
    let (day, s) ← number? 1 2 (← after? '-' s)
    some (year, month, day, s)
  match day? with
  | none => .error .time
  | some (year, month, day, []) =>
    match Calendar.Date.ofParts year month day with
    | .ok date => .ok (.date date)
    | .error fault => .error (.calendar fault)
  | some (year, month, day, c :: s) =>
    let time? : Option (Nat × Nat × Nat × Nat × Option Int) := do
      let s ←
        if c == 'T' || c == 't' then some s
        else if Tag.isBlankOrTab c then some (s.dropWhile Tag.isBlankOrTab)
        else none
      let (hour, s) ← number? 1 2 s
      let (minute, s) ← number? 2 2 (← after? ':' s)
      let (second, s) ← number? 2 2 (← after? ':' s)
      let (fraction, s) :=
        match s with
        | '.' :: rest => (rest.takeWhile Char.isDigit, rest.dropWhile Char.isDigit)
        | s => ([], s)
      some (hour, minute, second, micro fraction, ← zone? s)
    match time? with
    | none => .error .time
    | some (hour, minute, second, micro, offset) =>
      let moment := do
        Calendar.checkOffset (offset.getD 0)
        Calendar.Moment.ofParts year month day hour minute second micro offset
      match moment with
      | .ok moment => .ok (.moment moment)
      | .error fault => .error (.calendar fault)

def sixBits? (c : Char) : Option Nat :=
  if 'A' ≤ c ∧ c ≤ 'Z' then some (c.toNat - 'A'.toNat)
  else if 'a' ≤ c ∧ c ≤ 'z' then some (c.toNat - 'a'.toNat + 26)
  else if '0' ≤ c ∧ c ≤ '9' then some (c.toNat - '0'.toNat + 52)
  else if c = '+' then some 62
  else if c = '/' then some 63
  else none

/-- Octets from base-64 digits; `held` holds the bits of the last `count` of four digits, and
`pads` counts the signs of padding behind them. Other characters count for nothing. -/
def base64 (done : List UInt8) (held count pads : Nat) : List Char → Option (List UInt8)
  | [] => if count = 0 then some done.reverse else none
  | c :: rest =>
    if c = '=' then
      if 2 ≤ count && 4 ≤ count + pads + 1 then some done.reverse
      else base64 done held count (if 2 ≤ count then pads + 1 else pads) rest
    else
      match sixBits? c with
      | none => base64 done held count pads rest
      | some bits =>
        match count with
        | 0 => base64 done bits 1 0 rest
        | 1 => base64 (UInt8.ofNat (held * 4 + bits / 16) :: done) (bits % 16) 2 0 rest
        | 2 => base64 (UInt8.ofNat (held * 16 + bits / 4) :: done) (bits % 4) 3 0 rest
        | _ => base64 (UInt8.ofNat (held * 64 + bits) :: done) 0 0 0 rest

def ofScalar (tag : Tag) (text : List Char) : Except Fault Datum :=
  let lift {α : Type} (make : α → Datum) (result : Except ValueFault α) : Except Fault Datum :=
    match result with
    | .ok x => .ok (make x)
    | .error f => .error (.value f)
  match tag with
  | .null => .ok .null
  | .bool => lift .bool (truth text)
  | .int => lift .int (int text)
  | .float => lift .float (float text)
  | .timestamp => lift id (timestamp text)
  | .str => .ok (.text (String.ofList text))
  | .binary =>
    if text.all fun c => c.toNat < 0x80 then
      match base64 [] 0 0 0 text with
      | some octets => .ok (.octets octets)
      | none => .error (.wrongShape)
    else .error .wrongShape
  | .merge | .value | .unknown => .error .unknownTag
  | .seq | .map | .set | .omap | .pairs => .error .wrongShape

end Recenter.Yaml.Value
