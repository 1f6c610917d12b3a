import Recenter.Datum.Document
import Recenter.Datum.Shown

/-! What a configuration may hold. Every offending place is reported once, and the places are
ordered as lists of texts, so that item 10 of a list comes before item 2. -/

namespace Recenter.Config

open Recenter.Text

inductive Kind
  | object
  | array
  | string
deriving DecidableEq, Repr

def Kind.name : Kind → String
  | object => "object"
  | array => "array"
  | string => "string"

inductive Problem
  | wrongKind (found : Datum) (wanted : Kind)
  | empty (found : Datum)
  | unknownKeys (keys : List Datum)

/-- A problem and the way to its place: the name of a key, and the number of an item. -/
structure Violation where
  place : List String
  problem : Problem

namespace Schema

inductive Rule
  | text
  | texts (nonempty : Bool)

/-- The keys that a configuration may have. -/
def rules : List (String × Rule) :=
  [("extensions", .texts true),
   ("exclude_dirs", .texts false),
   ("region_start", .text),
   ("region_end", .text),
   ("line_comment", .text),
   ("encoding", .text)]

/-- A text has to be there, and not to be empty. -/
def checkText (d : Document) (place : List String) (found : Datum) : List Violation :=
  match d.resolve found with
  | .text s => if s.isEmpty then [⟨place, .empty (.text s)⟩] else []
  | _ => [⟨place, .wrongKind (d.writeOut found) .string⟩]

/-- The items of a list, of which the first has the number `index`. -/
def checkItems (d : Document) (place : List String) (index : Nat) : List Datum → List Violation
  | [] => []
  | item :: rest =>
    checkText d (place ++ [toString index]) item ++ checkItems d place (index + 1) rest

def checkValue (d : Document) (place : List String) (rule : Rule) (found : Datum) :
    List Violation :=
  match rule with
  | .text => checkText d place found
  | .texts nonempty =>
    match d.resolve found with
    | .list items =>
      (if nonempty && items.isEmpty then [⟨place, .empty (.list [])⟩] else []) ++
        checkItems d place 0 items
    | _ => [⟨place, .wrongKind (d.writeOut found) .array⟩]

def isKnown : Datum → Bool
  | .text s => rules.any fun (name, _) => name == s
  | _ => false

def check (d : Document) : List Violation :=
  match d.resolve d.root with
  | .table entries =>
    let unknown := (entries.map Prod.fst).filter fun key => !isKnown key
    (if unknown.isEmpty then [] else [⟨[], .unknownKeys unknown⟩]) ++
      rules.flatMap fun (name, rule) =>
        match Datum.get? name entries with
        | some value => checkValue d [name] rule value
        | none => []
  | _ => [⟨[], .wrongKind (d.writeOut d.root) .object⟩]

end Schema

/-- Ascending order of places. -/
def placeBefore (a b : List String) : Bool :=
  match a, b with
  | [], _ => true
  | _, [] => false
  | x :: xs, y :: ys => if x = y then placeBefore xs ys else decide (x < y)

def violations (d : Document) : List Violation :=
  (Schema.check d).mergeSort fun a b => placeBefore a.place b.place

def Problem.shown : Problem → List Datum
  | wrongKind found _ | empty found => [found]
  | unknownKeys keys => keys

/-- Whether there is no message on a violation, as one of its data cannot be shown. -/
def Violation.isUntold (v : Violation) : Bool :=
  v.problem.shown.any Datum.isUnshowable

def Problem.message : Problem → List Char
  | wrongKind found wanted =>
    found.shown ++ " is not of type '".toList ++ wanted.name.toList ++ ['\'']
  | empty found => found.shown ++ " should be non-empty".toList
  | unknownKeys keys =>
    let sorted := keys.mergeSort fun a b =>
      decide (String.ofList a.plain ≤ String.ofList b.plain)
    "Additional properties are not allowed (".toList ++
      [',', ' '].intercalate (sorted.map Datum.shown) ++
      (if keys.length = 1 then " was" else " were").toList ++ " unexpected)".toList

def Violation.message (v : Violation) : String :=
  (if v.place.isEmpty then "<root>" else "/".intercalate v.place) ++ ": " ++
    String.ofList v.problem.message

end Recenter.Config
