import Recenter.Config.Settings

/-! Settings that nobody has checked: the values of a table as they are. A list is taken from
whatever has elements, and a set from whatever has elements that can be told apart. -/

namespace Recenter.Config

inductive DraftError
  | noTable (found : Json)
  | noElements (found : Json)
  | noMember (found : Json)
  | unordered (a b : Json)

def kindName : Json → String
  | .null => "NoneType"
  | .bool _ => "bool"
  | .int _ => "int"
  | .float _ => "float"
  | .text _ => "str"
  | .array _ => "list"
  | .object _ => "dict"

def DraftError.message : DraftError → String
  | noTable found => "'" ++ kindName found ++ "' object has no attribute 'get'"
  | noElements found => "'" ++ kindName found ++ "' object is not iterable"
  | noMember found => "unhashable type: '" ++ kindName found ++ "'"
  | unordered a b =>
    "'<' not supported between instances of '" ++ kindName a ++ "' and '" ++ kindName b ++ "'"

/-- The elements of a value: the characters of a text, the items of a list, the names in a table. -/
def elements : Json → Except DraftError (List Json)
  | .text s => .ok (s.toList.map fun c => .text (String.ofList [c]))
  | .array items => .ok items
  | .object members => .ok (members.map fun (name, _) => .text name)
  | found => .error (.noElements found)

/-- Adds a value to a set, unless an equal one is there. Lists and tables are no members of sets. -/
def addMember (set : List Json) (value : Json) : Except DraftError (List Json) :=
  match value with
  | .array _ | .object _ => .error (.noMember value)
  | _ =>
    let isThere := set.any fun other => (Datum.ofJson other).sameKey (Datum.ofJson value)
    .ok (if isThere then set else set ++ [value])

def addMembers (set values : List Json) : Except DraftError (List Json) :=
  values.foldlM addMember set

/-- A number as a fraction; what is not finite stands beyond all others. -/
def magnitude? : Json → Option (Int × Nat)
  | .bool b => some (if b then 1 else 0, 1)
  | .int n => some (n, 1)
  | .float (.infinite negative) => some (if negative then -1 else 1, 0)
  | .float x => x.toRatio?
  | _ => none

def precedes? (a b : Json) : Option Bool :=
  match a, b with
  | .text s, .text t => some (decide (s < t))
  | _, _ =>
    match magnitude? a, magnitude? b with
    | some (n, d), some (m, e) => some (if d = 0 ∧ e = 0 then n < m else n * e < m * d)
    | _, _ => none

/-- The members of a set in ascending order. All have to be comparable to the first. -/
def ascending (set : List Json) : Except DraftError (List Json) :=
  match set with
  | [] => .ok []
  | first :: rest =>
    match rest.find? fun value => (precedes? value first).isNone with
    | some value => .error (.unordered value first)
    | none => .ok (set.mergeSort fun a b => !(precedes? b a).getD false)

structure Draft where
  extensions : List Json
  excludeDirs : List Json
  regionStart : Json
  regionEnd : Json
  lineComment : Json
  encoding : Json
  source : Option String

namespace Draft

def ofSettings (s : Settings) : Draft where
  extensions := s.extensions.map .text
  excludeDirs := s.excludeDirs.eraseDups.map .text
  regionStart := .text s.regionStart
  regionEnd := .text s.regionEnd
  lineComment := .text s.lineComment
  encoding := .text s.encoding
  source := s.source

/-- The values of a table; what it leaves out keeps its default. -/
def ofJson (json : Json) (source : Option String) : Except DraftError Draft :=
  match json with
  | .object members => do
    let standard := ofSettings {}
    let extensions ←
      match Json.get? "extensions" members with
      | some value => elements value
      | none => .ok standard.extensions
    let excludeDirs ←
      match Json.get? "exclude_dirs" members with
      | some value => addMembers [] (← elements value)
      | none => .ok standard.excludeDirs
    let get (name : String) (default : Json) := (Json.get? name members).getD default
    .ok
      { extensions := extensions
        excludeDirs := excludeDirs
        regionStart := get "region_start" standard.regionStart
        regionEnd := get "region_end" standard.regionEnd
        lineComment := get "line_comment" standard.lineComment
        encoding := get "encoding" standard.encoding
        source := source }
  | found => .error (.noTable found)

/-- Whether a value counts as given: zero does not, nor does what is empty. -/
def isGiven : Json → Bool
  | .null | .bool false | .int 0 | .float (.finite _ 0 _) | .text "" | .array [] | .object [] =>
    false
  | _ => true

/-- Extensions that are given replace those of the draft, directory names come on top. -/
def override (d : Draft) (extensions excludeDirs : Json) : Except DraftError Draft := do
  let extensions ← if isGiven extensions then elements extensions else .ok d.extensions
  let excludeDirs ←
    if isGiven excludeDirs then do
      addMembers d.excludeDirs (← addMembers [] (← elements excludeDirs))
    else .ok d.excludeDirs
  .ok { d with extensions := extensions, excludeDirs := excludeDirs }

def toJson (d : Draft) : Except DraftError Json := do
  .ok <| Settings.record d.extensions (← ascending d.excludeDirs) d.regionStart d.regionEnd
    d.lineComment d.encoding d.source

end Draft

end Recenter.Config
