import Recenter.Run.Context

/-! Log events. An event becomes one line: an object in JSON, or its fields in the order of their
names behind what every event has. -/

namespace Recenter.Run

inductive Level
  | debug
  | info
  | warning
  | error
deriving DecidableEq, Repr

def Level.name : Level → String
  | debug => "debug"
  | info => "info"
  | warning => "warning"
  | error => "error"

def Level.ofName (name : String) : Except Failure Level :=
  match [debug, info, warning, error].find? fun level => level.name == name with
  | some level => .ok level
  | none => .error (.unknownLevel name)

def Context.logs (c : Context) : Level → Bool
  | .debug => c.verbose
  | .info => !c.quiet
  | .warning | .error => true

structure Event where
  level : Level
  component : String
  action : String
  fields : List (String × Json)
deriving Repr

def reservedNames : List String := ["ctx", "level", "component", "action"]

/-- The fields of an event are refused for the first of them with a reserved name. -/
def checkFields (fields : List (String × Json)) : Except Failure Unit :=
  match fields.find? fun (name, _) => reservedNames.contains name with
  | some (name, _) => .error (.reservedField name)
  | none => .ok ()

def timestamp (m : Calendar.Moment) : String :=
  open Calendar in
  m.date.text ++ "T" ++ padded 2 m.hour ++ ":" ++ padded 2 m.minute ++ ":" ++
    padded 2 m.second ++ "Z"

namespace Event

/-- The members of an event. A field takes the place of a member with its name. The caller that
`file` and `line` tell of is not modelled: both have one value for all events. -/
def members (c : Context) (e : Event) : List (String × Json) :=
  let base : List (String × Json) := [
    ("ts", .text (timestamp c.now)),
    ("level", .text e.level.name),
    ("run_id", .text c.runId),
    ("component", .text e.component),
    ("action", .text e.action),
    ("file", .text "<file>"),
    ("line", .int 0)]
  e.fields.foldl (fun members (name, value) => Json.put name value members) base

def plain (value : Json) : String :=
  String.ofList (Datum.ofJson value).plain

/-- A field named `ts` also takes the place of the time in front. -/
def textLine (c : Context) (e : Event) : String :=
  let ts := ((Json.get? "ts" e.fields).map plain).getD (timestamp c.now)
  let core :=
    "ts=" ++ ts ++ " level=" ++ e.level.name ++ " run_id=" ++ c.runId ++
      " component=" ++ e.component ++ " action=" ++ e.action
  let extras := " ".intercalate <|
    (Json.sortByName e.fields).map fun (name, value) => name ++ "=" ++ plain value
  if extras.isEmpty then core else core ++ " " ++ extras

def line (c : Context) (e : Event) : String :=
  (if c.logJson then Json.write .compact (.object (e.members c)) else e.textLine c) ++ "\n"

end Event

end Recenter.Run
