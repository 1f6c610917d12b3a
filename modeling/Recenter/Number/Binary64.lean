/-! Binary floating-point numbers of 64 bits, as sign, mantissa and exponent. A quotient of
naturals is rounded to the nearest of them in exact arithmetic, a tie to the even mantissa. -/

namespace Recenter.Number

/-- A finite number is plus or minus `mantissa * 2 ^ exponent`, with a mantissa below `2 ^ 53` and
an exponent of at least -1074; a mantissa below `2 ^ 52` has the exponent -1074. -/
inductive Binary64
  | finite (negative : Bool) (mantissa : Nat) (exponent : Int)
  | infinite (negative : Bool)
  | nan
deriving DecidableEq, Repr

/-- The natural nearest to `num / den`; a half goes to the even neighbour. -/
def divNearest (num den : Nat) : Nat :=
  let q := num / den
  let r := num % den
  if den < 2 * r ∨ (2 * r = den ∧ q % 2 = 1) then q + 1 else q

/-- The numerator and the denominator of `num / den * base ^ exponent`. -/
def scaled (base num den : Nat) (exponent : Int) : Nat × Nat :=
  if 0 ≤ exponent then (num * Nat.pow base exponent.toNat, den)
  else (num, den * Nat.pow base (-exponent).toNat)

namespace Binary64

def mantissaBound : Nat := 1 <<< 53

def zero (negative : Bool) : Binary64 := .finite negative 0 (-1074)

def ofRatio (negative : Bool) (num den : Nat) : Binary64 :=
  if num = 0 ∨ den = 0 then zero negative
  else
    let estimate : Int := max ((num.log2 : Int) - den.log2 - 53) (-1074)
    let (n, d) := scaled 2 num den (-estimate)
    let exponent := if n < mantissaBound * d then estimate else estimate + 1
    let (n, d) := scaled 2 num den (-exponent)
    let mantissa := divNearest n d
    let (mantissa, exponent) :=
      if mantissa < mantissaBound then (mantissa, exponent) else (mantissa / 2, exponent + 1)
    if 971 < exponent then .infinite negative else .finite negative mantissa exponent

/-- The number nearest to plus or minus `digits * 10 ^ exponent`. What is far outside the range is
settled by its count of digits. -/
def ofDecimal (negative : Bool) (digits : Nat) (exponent : Int) : Binary64 :=
  if digits = 0 then zero negative
  else
    let magnitude : Int := (Nat.toDigits 10 digits).length + exponent
    if 310 < magnitude then .infinite negative
    else if magnitude < -330 then zero negative
    else
      let (num, den) := scaled 10 digits 1 exponent
      ofRatio negative num den

def toRatio? : Binary64 → Option (Int × Nat)
  | finite negative mantissa exponent =>
    let (num, den) := scaled 2 mantissa 1 exponent
    some (if negative then -(num : Int) else num, den)
  | _ => none

def ofNat? (n : Nat) : Option Binary64 :=
  match ofRatio false n 1 with
  | .infinite _ => none
  | x => some x

def isNegative : Binary64 → Bool
  | finite negative _ _ => negative
  | infinite negative => negative
  | nan => false

/-- The product, rounded once. Infinity times zero is no number. -/
def mul (x y : Binary64) : Binary64 :=
  let negative := x.isNegative != y.isNegative
  match x, y with
  | nan, _ | _, nan => nan
  | infinite _, finite _ 0 _ | finite _ 0 _, infinite _ => nan
  | infinite _, _ | _, infinite _ => infinite negative
  | finite _ m e, finite _ n f =>
    let (num, den) := scaled 2 (m * n) 1 (e + f)
    ofRatio negative num den

/-- The sum, rounded once. Opposite infinities have none, and opposite numbers add up to plus
zero. -/
def add (x y : Binary64) : Binary64 :=
  match x, y with
  | nan, _ | _, nan => nan
  | infinite s, infinite t => if s = t then infinite s else nan
  | infinite s, _ | _, infinite s => infinite s
  | finite .., finite .. =>
    match x.toRatio?, y.toRatio? with
    | some (a, b), some (c, d) =>
      let sum := a * d + c * b
      let negative := if sum = 0 then x.isNegative && y.isNegative else decide (sum < 0)
      ofRatio negative sum.natAbs (b * d)
    | _, _ => nan

def negate : Binary64 → Binary64
  | finite negative mantissa exponent => .finite (!negative) mantissa exponent
  | infinite negative => .infinite (!negative)
  | nan => .nan

def eqInt (x : Binary64) (n : Int) : Bool :=
  match x.toRatio? with
  | some (num, den) => num == n * den
  | none => false

end Binary64

end Recenter.Number
