import Recenter.Number.Binary64
import Recenter.Number.Digits
import Recenter.Text.Digit
import Recenter.Text.Hex

/-! The numbers that numerals stand for. A numeral may have a sign and blanks around it, and its
digits may be those of any script. -/

namespace Recenter.Number

open Recenter.Text

inductive IntegerFlaw
  | malformed
  | oversized (digits : Nat)
deriving DecidableEq, Repr

/-- The text without its sign, and whether the sign is a minus. -/
def unsigned : List Char → Bool × List Char
  | '-' :: rest => (true, rest)
  | '+' :: rest => (false, rest)
  | s => (false, s)

def baseMark? : Nat → Option Char
  | 2 => some 'b'
  | 8 => some 'o'
  | 16 => some 'x'
  | _ => none

def unmarked (base : Nat) : List Char → List Char
  | '0' :: x :: rest => if some x.toLower == baseMark? base then rest else '0' :: x :: rest
  | s => s

def digit? (base : Nat) (c : Char) : Option Nat :=
  (hexValue? c).filter (· < base)

/-- The integer of a numeral. In base ten the count of digits is limited, whatever follows them. -/
def integer (base : Nat) (text : List Char) : Except IntegerFlaw Int :=
  let (negative, s) := unsigned (asciiNumeral text)
  let s := unmarked base s
  let digits := s.takeWhile fun c => (digit? base c).isSome
  if base = 10 ∧ maxDigits < digits.length then .error (.oversized digits.length)
  else if digits.isEmpty ∨ digits.length < s.length then .error .malformed
  else
    let size := digits.foldl (fun n c => n * base + (digit? base c).getD 0) 0
    .ok (if negative then -(size : Int) else size)

/-- The number of a decimal fraction, with or without a power of ten, or of a word for what is not
finite. -/
def fraction? (text : List Char) : Option Binary64 :=
  let (negative, s) := unsigned (asciiNumeral text)
  let whole := s.takeWhile Char.isDigit
  let tail := s.drop whole.length
  let pointed := tail.head? == some '.'
  let places := if pointed then (tail.drop 1).takeWhile Char.isDigit else []
  let rest := if pointed then tail.drop (places.length + 1) else tail
  let (down, ten, length) := power rest
  if s == "inf".toList || s == "infinity".toList then some (.infinite negative)
  else if s == "nan".toList then some .nan
  else if (whole ++ places).isEmpty || length < rest.length then none
  else
    let exponent : Int := if down then -(digitsValue ten : Int) else digitsValue ten
    some (.ofDecimal negative (digitsValue (whole ++ places)) (exponent - places.length))

end Recenter.Number
