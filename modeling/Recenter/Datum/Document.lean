import Recenter.Datum.Value

/-! Documents: a datum, and the data that it holds by number. A number leads to one datum wherever
it stands, and a datum may hold its own number. Written out, a datum has the data themselves in the
place of their numbers, down to where one would hold itself. -/

namespace Recenter

structure Document where
  root : Datum
  shared : Array Datum := #[]

namespace Datum

mutual

/-- The datum with others in the place of numbers. The members of a set and the keys of a table
have no parts, and so hold no number. -/
def substitute (f : Nat → Datum) : Datum → Datum
  | .shared n => f n
  | .list items => .list (substituteItems f items)
  | .pair first second => .pair (substitute f first) (substitute f second)
  | .table entries => .table (substituteEntries f entries)
  | .null => .null
  | .bool b => .bool b
  | .int n => .int n
  | .float x => .float x
  | .text s => .text s
  | .date d => .date d
  | .moment m => .moment m
  | .octets bytes => .octets bytes
  | .set members => .set members
  | .enclosing e => .enclosing e

def substituteItems (f : Nat → Datum) : List Datum → List Datum
  | [] => []
  | datum :: rest => substitute f datum :: substituteItems f rest

def substituteEntries (f : Nat → Datum) : List (Datum × Datum) → List (Datum × Datum)
  | [] => []
  | (key, value) :: rest => (key, substitute f value) :: substituteEntries f rest

end

def enclosure : Datum → Enclosure
  | .pair _ _ => .pair
  | .set _ | .table _ => .table
  | _ => .list

end Datum

namespace Document

def ofJson (json : Json) : Document := ⟨Datum.ofJson json, #[]⟩

def resolve (d : Document) : Datum → Datum
  | .shared n => d.shared.getD n .null
  | datum => datum

/-- The datum number `n`, written out inside of those with the numbers in `outer`. -/
def writeOutShared (d : Document) : Nat → List Nat → Nat → Datum
  | 0, _, _ => .null
  | fuel + 1, outer, n =>
    let found := d.shared.getD n .null
    if outer.contains n then .enclosing found.enclosure
    else found.substitute (writeOutShared d fuel (n :: outer))

/-- The datum written out. The numbers that it is inside of are all different, so that the fuel
suffices. -/
def writeOut (d : Document) (datum : Datum) : Datum :=
  datum.substitute (writeOutShared d (d.shared.size + 1) [])

def entries (d : Document) : List (Datum × Datum) :=
  match d.resolve d.root with
  | .table entries => entries
  | _ => []

/-- The value under a text in the document's table. -/
def get? (d : Document) (name : String) : Option Datum :=
  (Datum.get? name d.entries).map d.resolve

end Document

end Recenter
