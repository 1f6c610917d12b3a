import Recenter.Datum.Value
import Recenter.Json.Writer
import Recenter.Number.Digits
import Recenter.Text.Quoted

/-! A datum as messages show it: texts between quotes, lists in brackets, tables in braces. A datum
that is written out by itself holds nothing by its number. -/

namespace Recenter.Datum

open Recenter.Text

def shownFloat : Number.Binary64 → List Char
  | .finite negative mantissa exponent => Number.Binary64.finiteText negative mantissa exponent
  | .infinite false => "inf".toList
  | .infinite true => "-inf".toList
  | .nan => "nan".toList

/-- Parts between commas, inside brackets. -/
def enclosed (opening closing : Char) (parts : List (List Char)) : List Char :=
  opening :: [',', ' '].intercalate parts ++ [closing]

mutual

def shown : Datum → List Char
  | .null => "None".toList
  | .bool true => "True".toList
  | .bool false => "False".toList
  | .int n => Json.writtenInt n
  | .float x => shownFloat x
  | .text s => quoted s.toList
  | .date d => d.shown.toList
  | .moment m => m.shown.toList
  | .octets bytes => quotedOctets bytes
  | .list items => enclosed '[' ']' (shownItems items)
  | .pair first second => enclosed '(' ')' [shown first, shown second]
  | .set members =>
    let parts := shownItems members
    if parts.isEmpty then "set()".toList else enclosed '\x7b' '\x7d' parts
  | .table entries => enclosed '\x7b' '\x7d' (shownEntries entries)
  | .shared _ => []
  | .enclosing .list => "[...]".toList
  | .enclosing .pair => "(...)".toList
  | .enclosing .table => ['\x7b', '.', '.', '.', '\x7d']

def shownItems : List Datum → List (List Char)
  | [] => []
  | datum :: rest => shown datum :: shownItems rest

def shownEntries : List (Datum × Datum) → List (List Char)
  | [] => []
  | (key, value) :: rest => (shown key ++ [':', ' '] ++ shown value) :: shownEntries rest

end

mutual

/-- The integers that are shown with a datum. -/
def shownIntegers : Datum → List Int
  | .int n => [n]
  | .list items => shownIntegersOf items
  | .pair first second => shownIntegers first ++ shownIntegers second
  | .set members => shownIntegersOf members
  | .table entries => shownIntegersIn entries
  | _ => []

def shownIntegersOf : List Datum → List Int
  | [] => []
  | datum :: rest => shownIntegers datum ++ shownIntegersOf rest

def shownIntegersIn : List (Datum × Datum) → List Int
  | [] => []
  | (key, value) :: rest => shownIntegers key ++ shownIntegers value ++ shownIntegersIn rest

end

/-- Whether a datum cannot be shown, as one of its integers has too many digits. -/
def isUnshowable (datum : Datum) : Bool :=
  datum.shownIntegers.any Number.isOversized

/-- A datum written out by itself: a text as it is, a date in digits, the rest as it is shown. -/
def plain : Datum → List Char
  | .text s => s.toList
  | .date d => d.text.toList
  | .moment m => m.text.toList
  | datum => shown datum

end Recenter.Datum
