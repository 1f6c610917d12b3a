import Recenter.Datum.Calendar
import Recenter.Json.Value

/-! What a configuration file can hold, in JSON or in YAML: JSON values, and beside them dates,
octets, sets, pairs and tables with keys of any kind. A YAML document may hold one datum in several
places, and even inside of itself; there it stands by its number. -/

namespace Recenter

inductive Enclosure
  | list
  | pair
  | table
deriving DecidableEq, Repr

inductive Datum
  | null
  | bool (b : Bool)
  | int (n : Int)
  | float (x : Number.Binary64)
  | text (s : String)
  | date (d : Calendar.Date)
  | moment (m : Calendar.Moment)
  | octets (bytes : List UInt8)
  | list (items : List Datum)
  | pair (first second : Datum)
  | set (members : List Datum)
  | table (entries : List (Datum × Datum))
  /-- The datum with this number in its document. -/
  | shared (number : Nat)
  /-- A datum that this one is a part of. -/
  | enclosing (e : Enclosure)
deriving Repr

namespace Datum

/-- Truth values count as the integers one and zero where keys are compared. -/
def asInt? : Datum → Option Int
  | bool b => some (if b then 1 else 0)
  | int n => some n
  | _ => none

/-- Whether two keys are one. Numbers are compared by value, and points in time wherever they are;
what can be no key is never one. -/
def sameKey (a b : Datum) : Bool :=
  match a.asInt?, b.asInt? with
  | some m, some n => m == n
  | some m, none => match b with | float x => x.eqInt m | _ => false
  | none, some n => match a with | float x => x.eqInt n | _ => false
  | none, none =>
    match a, b with
    | null, null => true
    | float (.finite _ 0 _), float (.finite _ 0 _) => true
    | float x, float y => x == y
    | text s, text t => s == t
    | date d, date e => d == e
    | moment m, moment n => m.isSameTime n
    | octets s, octets t => s == t
    | _, _ => false

/-- The set of these members. Integers stand in ascending order, other members as they are given. -/
def setOf (members : List Datum) : Datum :=
  let isBefore (a b : Datum) : Bool :=
    match a.asInt?, b.asInt? with
    | some m, some n => m ≤ n
    | _, _ => false
  if members.all fun member => member.asInt?.isSome then .set (members.mergeSort isBefore)
  else .set members

def get? (name : String) : List (Datum × Datum) → Option Datum
  | [] => none
  | (text s, value) :: rest => if s = name then some value else get? name rest
  | _ :: rest => get? name rest

mutual

def ofJson : Json → Datum
  | .null => .null
  | .bool b => .bool b
  | .int n => .int n
  | .float x => .float x
  | .text s => .text s
  | .array items => .list (ofItems items)
  | .object members => .table (ofMembers members)

def ofItems : List Json → List Datum
  | [] => []
  | value :: rest => ofJson value :: ofItems rest

def ofMembers : List (String × Json) → List (Datum × Datum)
  | [] => []
  | (name, value) :: rest => (.text name, ofJson value) :: ofMembers rest

end

end Datum

end Recenter
