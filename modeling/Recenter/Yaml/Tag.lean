import Recenter.Text.Hex

/-! Tags say what a node stands for. An untagged plain scalar gets its tag from its text: a form is
a function that takes what it can from the front of a text, and forms in sequence describe how
numbers and times are written. -/

namespace Recenter.Yaml

inductive Tag
  | null
  | bool
  | int
  | float
  | binary
  | timestamp
  | omap
  | pairs
  | set
  | str
  | seq
  | map
  | merge
  | value
  | unknown
deriving DecidableEq, Repr

namespace Tag

def standard : String := "tag:yaml.org,2002:"

def ofUri (uri : String) : Tag :=
  let names : List (String × Tag) :=
    [("null", null), ("bool", bool), ("int", int), ("float", float), ("binary", binary),
     ("timestamp", timestamp), ("omap", omap), ("pairs", pairs), ("set", set), ("str", str),
     ("seq", seq), ("map", map), ("merge", merge), ("value", value)]
  match names.find? fun (name, _) => uri == standard ++ name with
  | some (_, tag) => tag
  | none => unknown

/-- A form takes what it can from the front of a text and gives the rest. -/
abbrev Form := List Char → Option (List Char)

/-- Between `least` and `most` characters that satisfy `p`, as many as there are. -/
def run (p : Char → Bool) (least most : Nat) : Form := fun s =>
  let n := ((s.take most).takeWhile p).length
  if least ≤ n then some (s.drop n) else none

def many (p : Char → Bool) (least : Nat) : Form := fun s =>
  let n := (s.takeWhile p).length
  if least ≤ n then some (s.drop n) else none

def oneOf (cs : List Char) : Form := fun s =>
  match s with
  | c :: rest => if cs.contains c then some rest else none
  | [] => none

def optional (f : Form) : Form := fun s =>
  match f s with
  | some rest => some rest
  | none => some s

def sequence (forms : List Form) : Form := fun s =>
  forms.foldlM (fun rest f => f rest) s

def fits (f : Form) (s : List Char) : Bool :=
  f s == some []

def isDigitOrLine (c : Char) : Bool := c.isDigit || c == '_'

def sign : Form := optional (oneOf ['+', '-'])

/-- A power of ten: its sign has to be written. -/
def powerForm : Form :=
  optional (sequence [oneOf ['e', 'E'], oneOf ['+', '-'], many Char.isDigit 1])

/-- A base-60 digit of a number that is not its first: 0 to 59, behind a colon. -/
def sixtieths : Nat → List Char → List Char
  | 0, s => s
  | fuel + 1, s =>
    match s with
    | ':' :: a :: b :: rest =>
      if '0' ≤ a ∧ a ≤ '5' ∧ b.isDigit then sixtieths fuel rest
      else if a.isDigit then sixtieths fuel (b :: rest)
      else s
    | [':', a] => if a.isDigit then [] else s
    | _ => s

/-- One base-60 digit or more, each behind a colon. -/
def sixtiethsForm : Form := fun s =>
  let rest := sixtieths s.length s
  if rest.length < s.length then some rest else none

def isWord (words : List String) (s : List Char) : Bool :=
  words.contains (String.ofList s)

def isBool : List Char → Bool :=
  isWord ["yes", "Yes", "YES", "no", "No", "NO", "true", "True", "TRUE", "false", "False", "FALSE",
    "on", "On", "ON", "off", "Off", "OFF"]

def isNull : List Char → Bool :=
  isWord ["", "~", "null", "Null", "NULL"]

def isFloat (s : List Char) : Bool :=
  fits (sequence [sign, oneOf "0123456789".toList, many isDigitOrLine 0, oneOf ['.'],
    many isDigitOrLine 0, powerForm]) s ||
  fits (sequence [oneOf ['.'], oneOf "0123456789".toList, many isDigitOrLine 0, powerForm]) s ||
  fits (sequence [sign, oneOf "0123456789".toList, many isDigitOrLine 0, sixtiethsForm, oneOf ['.'],
    many isDigitOrLine 0]) s ||
  isWord [".inf", ".Inf", ".INF", "+.inf", "+.Inf", "+.INF", "-.inf", "-.Inf", "-.INF",
    ".nan", ".NaN", ".NAN"] s

def isOctalOrLine (c : Char) : Bool := ('0' ≤ c && c ≤ '7') || c == '_'

def isHexOrLine (c : Char) : Bool := (Text.hexValue? c).isSome || c == '_'

def isInt (s : List Char) : Bool :=
  fits (sequence [sign, oneOf ['0'], oneOf ['b'],
    many (fun c => c == '0' || c == '1' || c == '_') 1]) s ||
  fits (sequence [sign, oneOf ['0'], many isOctalOrLine 1]) s ||
  fits (sequence [sign, oneOf ['0']]) s ||
  fits (sequence [sign, oneOf "123456789".toList, many isDigitOrLine 0]) s ||
  fits (sequence [sign, oneOf ['0'], oneOf ['x'], many isHexOrLine 1]) s ||
  fits (sequence [sign, oneOf "123456789".toList, many isDigitOrLine 0, sixtiethsForm]) s

def isBlankOrTab (c : Char) : Bool := c == ' ' || c == '\t'

/-- Year, month and day, each part of the day with one digit or two. -/
def dayForm (least : Nat) : Form :=
  sequence [run Char.isDigit 4 4, oneOf ['-'], run Char.isDigit least 2, oneOf ['-'],
    run Char.isDigit least 2]

def zoneForm : Form :=
  optional (sequence [many isBlankOrTab 0, fun s =>
    match s with
    | 'Z' :: rest => some rest
    | s => sequence [oneOf ['+', '-'], run Char.isDigit 1 2,
        optional (sequence [oneOf [':'], run Char.isDigit 2 2])] s])

def timeForm : Form :=
  sequence [
    fun s =>
      match s with
      | c :: rest => if c == 'T' || c == 't' then some rest else many isBlankOrTab 1 s
      | [] => none,
    run Char.isDigit 1 2, oneOf [':'], run Char.isDigit 2 2, oneOf [':'],
    run Char.isDigit 2 2, optional (sequence [oneOf ['.'], many Char.isDigit 0]), zoneForm]

/-- A date needs two digits for month and day, unless a time of day follows. -/
def isTimestamp (s : List Char) : Bool :=
  fits (dayForm 2) s || fits (sequence [dayForm 1, timeForm]) s

/-- The part of a text that decides on its tag: all but one line feed at the end. A line feed alone
is a text. -/
def deciding (s : List Char) : List Char :=
  if s.getLast? == some '\n' && s.length ≠ 1 then s.dropLast else s

/-- The tag of an untagged plain scalar. An indicator by itself has a tag that means nothing. -/
def implicit (text : List Char) : Tag :=
  let s := deciding text
  if isBool s then bool
  else if isFloat s then float
  else if isInt s then int
  else if s == ['<', '<'] then merge
  else if isNull s then null
  else if isTimestamp s then timestamp
  else if s == ['='] then value
  else if isWord ["!", "&", "*"] s then unknown
  else str

end Tag

end Recenter.Yaml
