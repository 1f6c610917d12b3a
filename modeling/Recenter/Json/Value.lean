import Recenter.Number.Binary64

/-! JSON values. Integers and floating-point numbers stay apart, and an object keeps the order in
which its names first came. -/

namespace Recenter

inductive Json
  | null
  | bool (b : Bool)
  | int (n : Int)
  | float (x : Number.Binary64)
  | text (s : String)
  | array (items : List Json)
  | object (members : List (String × Json))
deriving Repr

namespace Json

/-- Gives a name its value: in the place that the name has, or behind all others. -/
def put {α : Type} (name : String) (value : α) : List (String × α) → List (String × α)
  | [] => [(name, value)]
  | (other, old) :: rest =>
    if other = name then (name, value) :: rest else (other, old) :: put name value rest

def get? {α : Type} (name : String) (members : List (String × α)) : Option α :=
  members.lookup name

theorem get?_put {α : Type} (name : String) (value : α) (members : List (String × α)) :
    get? name (put name value members) = some value := by
  induction members with
  | nil => simp [put, get?]
  | cons m rest ih =>
    obtain ⟨other, old⟩ := m
    by_cases h : other = name
    · simp [put, get?, h]
    · have h' : (name == other) = false := by simpa using fun e => h e.symm
      simp only [get?] at ih
      simp [put, get?, h, List.lookup_cons, h', ih]

def member? (name : String) : Json → Option Json
  | object members => get? name members
  | _ => none

end Json

end Recenter
