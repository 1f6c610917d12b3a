import Recenter.Number.Binary64

/-! The text of a floating-point number: the fewest digits that are nearer to it than to any other
number. On each decimal grid, from one digit on, only the two neighbours of the number are tried;
all tests are exact. -/

namespace Recenter.Number.Binary64

structure Decimal where
  digits : Nat
  exponent : Int
deriving DecidableEq, Repr

/-- The exponent `p` with `10 ^ (p - 1) ≤ num / den < 10 ^ p`. -/
def decimalPoint (num den : Nat) : Int :=
  let estimate : Int := (Nat.toDigits 10 num).length - (Nat.toDigits 10 den).length
  let (n, d) := scaled 10 num den (-estimate)
  if d ≤ n then estimate + 1 else estimate

/-- Whether the candidate reads back as `mantissa * 2 ^ exponent`, which is `num / den` in units of
the grid. -/
def readsBack (mantissa : Nat) (exponent : Int) (num den candidate : Nat) : Bool :=
  -- At most half a step away, or a quarter where the steps below are half as long as those above.
  let below := if 2 * mantissa = mantissaBound ∧ -1074 < exponent then 1 else 2
  let low := num * (4 * mantissa - below)
  let high := num * (4 * mantissa + 2)
  let x := 4 * mantissa * candidate * den
  -- The ends belong to an even mantissa.
  if mantissa % 2 = 0 then low ≤ x && x ≤ high else low < x && x < high

/-- A decimal of `digits` digits that reads back, if there is one; of two the nearer, of equals
the even. -/
def onGrid? (mantissa : Nat) (exponent point : Int) (num den digits : Nat) : Option Decimal :=
  let unit : Int := point - digits
  let (n, d) := scaled 10 num den (-unit)
  let lower := n / d
  let lowerFits := readsBack mantissa exponent n d lower
  let upperFits := readsBack mantissa exponent n d (lower + 1)
  if lowerFits && upperFits then some ⟨divNearest n d, unit⟩
  else if lowerFits then some ⟨lower, unit⟩
  else if upperFits then some ⟨lower + 1, unit⟩
  else none

/-- The digits of a positive number, without zeros at their end, and how many of them stand before
the point. -/
def shortest (mantissa : Nat) (exponent : Int) : List Char × Int :=
  let (num, den) := scaled 2 mantissa 1 exponent
  let point := decimalPoint num den
  -- Seventeen digits always suffice.
  let found := (List.range 17).findSome? fun i => onGrid? mantissa exponent point num den (i + 1)
  let decimal := found.getD ⟨num / den, 0⟩
  let digits := Nat.toDigits 10 decimal.digits
  ((digits.reverse.dropWhile (· == '0')).reverse, digits.length + decimal.exponent)

/-- How a number is written: exponents from `least` up to below `limit` are written out in
positions, others as a power of ten of at least two digits. -/
structure Layout where
  least : Int
  limit : Int

def layout : Layout := ⟨-4, 16⟩

def placed (digits : List Char) (point : Int) : List Char :=
  if point ≤ 0 then '0' :: '.' :: List.replicate (-point).toNat '0' ++ digits
  else
    let n := point.toNat
    let whole := digits.take n ++ List.replicate (n - digits.length) '0'
    let rest := digits.drop n
    whole ++ '.' :: (if rest.isEmpty then ['0'] else rest)

def powered (digits : List Char) (power : Int) : List Char :=
  let lead := digits.take 1
  let rest := digits.drop 1
  let sign := if power < 0 then '-' else '+'
  let size := Nat.toDigits 10 power.natAbs
  lead ++ (if rest.isEmpty then [] else '.' :: rest) ++ 'e' :: sign ::
    (List.replicate (2 - size.length) '0' ++ size)

def finiteText (negative : Bool) (mantissa : Nat) (exponent : Int) : List Char :=
  let sign := if negative then ['-'] else []
  if mantissa = 0 then sign ++ ['0', '.', '0']
  else
    let (digits, point) := shortest mantissa exponent
    let power := point - 1
    sign ++
      (if layout.least ≤ power ∧ power < layout.limit then placed digits point
       else powered digits power)

end Recenter.Number.Binary64
