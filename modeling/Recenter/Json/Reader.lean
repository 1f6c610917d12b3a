import Recenter.Json.Token

/-! Reading JSON. The grammar is a machine that takes one token at a time; its state holds the
open arrays and objects and says what may come next. Members that repeat a name keep the first
place and the last value. -/

namespace Recenter.Json

/-- An open array or object, innermost first. Items stand last first; an object waits for the
value of `name`. -/
inductive Frame
  | array (items : List Json)
  | object (members : List (String × Json)) (name : String)

inductive State
  | atValue (frames : List Frame)
  | atFirstItem (frames : List Frame)
  | atName (frames : List Frame) (members : List (String × Json)) (first : Bool)
  | atColon (frames : List Frame) (members : List (String × Json)) (name : String)
  | atItemEnd (frames : List Frame) (items : List Json)
  | atMemberEnd (frames : List Frame) (members : List (String × Json))
  | complete (value : Json)

namespace State

def deliver (value : Json) : List Frame → State
  | [] => complete value
  | .array items :: frames => atItemEnd frames (value :: items)
  | .object members name :: frames => atMemberEnd frames (put name value members)

/-- What is reported where the text goes on in no allowed way. -/
def wanted : State → Flaw
  | atValue _ | atFirstItem _ => .expectingValue
  | atName .. => .expectingName
  | atColon .. => .expectingColon
  | atItemEnd .. | atMemberEnd .. => .expectingComma
  | complete _ => .extraData

def beginValue (frames : List Frame) (offset : Nat) : Token → Except Fault State
  | .arrayStart => .ok (atFirstItem frames)
  | .objectStart => .ok (atName frames [] true)
  | .text s => .ok (deliver (.text s) frames)
  | .plain value => .ok (deliver value frames)
  | .badText fault | .badNumber fault => .error fault
  | _ => .error (.flaw .expectingValue offset)

def step (state : State) (placed : Placed) : Except Fault State :=
  match state, placed.token with
  | atFirstItem frames, .arrayEnd => .ok (deliver (.array []) frames)
  | atFirstItem frames, token => beginValue (.array [] :: frames) placed.offset token
  | atValue frames, token => beginValue frames placed.offset token
  | atName frames members true, .objectEnd => .ok (deliver (.object members) frames)
  | atName frames members _, .text s => .ok (atColon frames members s)
  | atName .., .badText fault => .error fault
  | atColon frames members s, .colon => .ok (atValue (.object members s :: frames))
  | atItemEnd frames items, .arrayEnd => .ok (deliver (.array items.reverse) frames)
  | atItemEnd frames items, .comma => .ok (atValue (.array items :: frames))
  | atMemberEnd frames members, .objectEnd => .ok (deliver (.object members) frames)
  | atMemberEnd frames members, .comma => .ok (atName frames members false)
  | state, _ => .error (.flaw state.wanted placed.offset)

end State

/-- Why a text is no JSON, with the line and the column of the offset, both from one on. -/
inductive ReadError
  | flaw (kind : Flaw) (line column offset : Nat)
  | oversized (digits : Nat)
deriving DecidableEq, Repr

def ReadError.message : ReadError → String
  | flaw kind line column offset =>
    kind.message ++ ": line " ++ toString line ++ " column " ++ toString column ++
      " (char " ++ toString offset ++ ")"
  | oversized digits => Number.oversizedMessage digits

def Fault.locate (text : List Char) : Fault → ReadError
  | flaw kind offset =>
    let before := text.take offset
    let line := before.count '\n' + 1
    let column := (before.reverse.takeWhile (· != '\n')).length + 1
    .flaw kind line column offset
  | oversized digits => .oversized digits

def ofTokens (length : Nat) (tokens : List Placed) : Except Fault Json := do
  match ← tokens.foldlM State.step (.atValue []) with
  | .complete value => .ok value
  | state => .error (.flaw state.wanted length)

/-- The value of a JSON text whose integers have `most` digits at most. -/
def readWithin (most : Nat) (text : List Char) : Except ReadError Json :=
  let result :=
    if text.head? = some '\uFEFF' then .error (.flaw .byteOrderMark 0)
    else ofTokens text.length (tokens most 0 text)
  result.mapError (Fault.locate text)

def read (text : List Char) : Except ReadError Json := readWithin Number.maxDigits text

end Recenter.Json
