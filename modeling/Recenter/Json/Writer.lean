import Recenter.Json.Value
import Recenter.Number.Shortest
import Recenter.Text.Hex
import Recenter.Codec.Wide

/-! Writing JSON: in ASCII, with the members of an object in the order of their names. It is
written on one line, or with two more spaces at the beginning of a line for each level. -/

namespace Recenter.Json

open Recenter.Text

/-- One character between quotes. Above U+007E it is given by its 16-bit units. -/
def writtenChar (c : Char) : List Char :=
  if c == '"' || c == '\\' then ['\\', c]
  else if c == '\n' then ['\\', 'n']
  else if c == '\r' then ['\\', 'r']
  else if c == '\t' then ['\\', 't']
  else if c == '\x08' then ['\\', 'b']
  else if c == '\x0c' then ['\\', 'f']
  else if ' ' ≤ c ∧ c ≤ '~' then [c]
  else (Codec.Utf16.units c).flatMap fun u => '\\' :: 'u' :: hex 4 u

def writtenText (s : List Char) : List Char :=
  '"' :: s.flatMap writtenChar ++ ['"']

def writtenFloat : Number.Binary64 → List Char
  | .finite negative mantissa exponent => Number.Binary64.finiteText negative mantissa exponent
  | .infinite false => "Infinity".toList
  | .infinite true => "-Infinity".toList
  | .nan => "NaN".toList

def writtenInt (n : Int) : List Char :=
  (if n < 0 then ['-'] else []) ++ Nat.toDigits 10 n.natAbs

inductive Layout
  | compact
  | pretty
deriving DecidableEq, Repr

/-- What stands before the first item, between two items and behind the last one of an array or
object `level` levels deep. -/
def Layout.gaps (layout : Layout) (level : Nat) : List Char × List Char × List Char :=
  match layout with
  | compact => ([], [',', ' '], [])
  | pretty =>
    let inner := '\n' :: List.replicate (2 * level + 2) ' '
    (inner, ',' :: inner, '\n' :: List.replicate (2 * level) ' ')

/-- The items between a pair of brackets. -/
def Layout.enclose (layout : Layout) (level : Nat) (opening closing : Char)
    (items : List (List Char)) : List Char :=
  if items.isEmpty then [opening, closing]
  else
    let (before, between, behind) := layout.gaps level
    opening :: before ++ between.intercalate items ++ behind ++ [closing]

def sortByName {α : Type} (members : List (String × α)) : List (String × α) :=
  members.mergeSort fun a b => decide (a.1 ≤ b.1)

mutual

def written (layout : Layout) (level : Nat) : Json → List Char
  | .null => "null".toList
  | .bool true => "true".toList
  | .bool false => "false".toList
  | .int n => writtenInt n
  | .float x => writtenFloat x
  | .text s => writtenText s.toList
  | .array items => layout.enclose level '[' ']' (writtenItems layout (level + 1) items)
  | .object members =>
    layout.enclose level '\x7b' '\x7d' <|
      (sortByName (writtenMembers layout (level + 1) members)).map fun (name, value) =>
        writtenText name.toList ++ [':', ' '] ++ value

def writtenItems (layout : Layout) (level : Nat) : List Json → List (List Char)
  | [] => []
  | value :: rest => written layout level value :: writtenItems layout level rest

def writtenMembers (layout : Layout) (level : Nat) :
    List (String × Json) → List (String × List Char)
  | [] => []
  | (name, value) :: rest =>
    (name, written layout level value) :: writtenMembers layout level rest

end

def write (layout : Layout) (value : Json) : String :=
  String.ofList (written layout 0 value)

end Recenter.Json
