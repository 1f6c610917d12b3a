/-! Decimal digits and what is written with them. -/

namespace Recenter.Number

def maxDigits : Nat := 4300

def oversizedMessage (digits : Nat) : String :=
  "Exceeds the limit (" ++ toString maxDigits ++ " digits) for integer string conversion: " ++
    "value has " ++ toString digits ++
    " digits; use sys.set_int_max_str_digits() to increase the limit"

/-- The least natural that has more than the most digits. -/
def digitsBound : Nat := Nat.pow 10 maxDigits

/-- Whether an integer has too many digits to be written. -/
def isOversized (n : Int) : Bool := digitsBound ≤ n.natAbs

def unwritableMessage : String :=
  "Exceeds the limit (" ++ toString maxDigits ++ " digits) for integer string conversion; " ++
    "use sys.set_int_max_str_digits() to increase the limit"

def digitsValue (digits : List Char) : Nat :=
  digits.foldl (fun n c => n * 10 + (c.toNat - '0'.toNat)) 0

/-- A power of ten in front of a text: whether it is negative, its digits, and the length of all
it is written with. Without a digit there is none. -/
def power : List Char → Bool × List Char × Nat
  | c :: rest =>
    if c == 'e' || c == 'E' then
      let (signed, rest) :=
        match rest with
        | '+' :: rest => (some false, rest)
        | '-' :: rest => (some true, rest)
        | _ => (none, rest)
      let digits := rest.takeWhile Char.isDigit
      if digits.isEmpty then (false, [], 0)
      else (signed.getD false, digits, 1 + (if signed.isSome then 1 else 0) + digits.length)
    else (false, [], 0)
  | [] => (false, [], 0)

end Recenter.Number
