import Recenter.CommandLine.Flag
import Recenter.Text.Digit
import Recenter.Text.Quoted

/-! Reading the arguments of the command line. First every argument is told apart as an option, an
operand or the separator behind which all are operands; then options take their values from what
follows them, and the first operand is the root. Long options may be cut short as long as only one
begins like that. -/

namespace Recenter.CommandLine

open Recenter.Text

inductive UsageError
  | ambiguous (argument : String) (names : List String)
  | missingValue (flag : Flag)
  | unwantedValue (flag : Flag) (value : String)
  | invalidChoice (flag : Flag) (value : String)
  | conflict (flag earlier : Flag)
  | unrecognized (arguments : List String)
deriving DecidableEq, Repr

def quotedString (s : String) : String :=
  String.ofList (quoted s.toList)

def UsageError.message : UsageError → String
  | ambiguous argument names =>
    "ambiguous option: " ++ argument ++ " could match " ++ ", ".intercalate names
  | missingValue flag => "argument " ++ flag.shown ++ ": expected one argument"
  | unwantedValue flag value =>
    "argument " ++ flag.shown ++ ": ignored explicit argument " ++ quotedString value
  | invalidChoice flag value =>
    "argument " ++ flag.shown ++ ": invalid choice: " ++ quotedString value ++
      " (choose from " ++ ", ".intercalate (formats.map quotedString) ++ ")"
  | conflict flag earlier =>
    "argument " ++ flag.shown ++ ": not allowed with argument " ++ earlier.shown
  | unrecognized arguments => "unrecognized arguments: " ++ " ".intercalate arguments

/-- What an argument is. A separator takes all that follows it. -/
inductive Word
  | operand (text : String)
  | separator (operands : List String)
  | option (flag : Flag) (name : String) (attached : Option String)
  | unknown (text : String)
deriving DecidableEq, Repr

/-- A minus sign in front of digits, with or without a point between them. A line feed behind them
does no harm. -/
def isNegativeNumber (s : List Char) : Bool :=
  match s with
  | '-' :: rest =>
    let rest := if rest.getLast? = some '\n' then rest.dropLast else rest
    let whole := rest.takeWhile isDecimalDigit
    match rest.drop whole.length with
    | [] => !whole.isEmpty
    | '.' :: places => !places.isEmpty && places.all isDecimalDigit
    | _ => false
  | _ => false

def splitAtEquals (s : List Char) : String × Option String :=
  let before := s.takeWhile (· != '=')
  match s.drop before.length with
  | _ :: behind => (String.ofList before, some (String.ofList behind))
  | [] => (String.ofList before, none)

/-- The options that an argument may mean, each with its name and the value attached to it. -/
def candidates (s : List Char) : List (Flag × String × Option String) :=
  match s with
  | '-' :: '-' :: _ =>
    let (start, attached) := splitAtEquals s
    (Flag.byName.filter fun (name, _) => start.toList.isPrefixOf name.toList).map
      fun (name, flag) => (flag, name, attached)
  | _ =>
    (Flag.byName.filter fun (name, _) => name.toList == s.take 2).map
      fun (name, flag) => (flag, name, some (String.ofList (s.drop 2)))

def Word.ofArgument (argument : String) : Except UsageError Word :=
  let s := argument.toList
  if s.head? != some '-' then .ok (.operand argument)
  else
    match Flag.ofName? argument with
    | some flag => .ok (.option flag argument none)
    | none =>
      if s.length = 1 then .ok (.operand argument)
      else
        let (start, attached) := splitAtEquals s
        match attached.bind fun value => (Flag.ofName? start).map fun flag => (flag, value) with
        | some (flag, value) => .ok (.option flag start (some value))
        | none =>
          match candidates s with
          | [(flag, name, attached)] => .ok (.option flag name attached)
          | [] =>
            if isNegativeNumber s || s.contains ' ' then .ok (.operand argument)
            else .ok (.unknown argument)
          | several => .error (.ambiguous argument (several.map fun (_, name, _) => name))

def classify : List String → Except UsageError (List Word)
  | [] => .ok []
  | "--" :: rest => .ok [.separator rest]
  | argument :: rest => do
    let word ← Word.ofArgument argument
    .ok (word :: (← classify rest))

/-- What is asked for. An ending or a name may be given without a text. -/
structure Arguments where
  root : Option String := none
  config : Option String := none
  endings : List (Option String) := []
  excluded : List (Option String) := []
  json : Bool := false
  format : Option String := none
  runId : Option String := none
  logJson : Bool := false
  verbose : Bool := false
  quiet : Bool := false
deriving DecidableEq, Repr

inductive Request
  | help
  | version
  | run (arguments : Arguments)
deriving DecidableEq, Repr

/-- What has been read: an option that ends the reading, the arguments, whether the root has been
given, and what nothing takes. -/
structure Reading where
  ended : Option Request := none
  arguments : Arguments := {}
  rooted : Bool := false
  extras : List String := []

namespace Reading

def switch (r : Reading) (flag : Flag) : Except UsageError Reading :=
  let a := r.arguments
  match flag with
  | .help => .ok { r with ended := some .help }
  | .version => .ok { r with ended := some .version }
  | .json => .ok { r with arguments := { a with json := true } }
  | .logJson => .ok { r with arguments := { a with logJson := true } }
  | .verbose =>
    if a.quiet then .error (.conflict .verbose .quiet)
    else .ok { r with arguments := { a with verbose := true } }
  | .quiet =>
    if a.verbose then .error (.conflict .quiet .verbose)
    else .ok { r with arguments := { a with quiet := true } }
  | _ => .error (.missingValue flag)

/-- An option with a value. An attached separator is no text: it counts as an empty one where one
value is wanted, and stays missing in a list. -/
def give (r : Reading) (flag : Flag) (value : Option String) : Except UsageError Reading :=
  let a := r.arguments
  let text := value.getD ""
  match flag with
  | .config => .ok { r with arguments := { a with config := some text } }
  | .ext => .ok { r with arguments := { a with endings := a.endings ++ [value] } }
  | .exclude => .ok { r with arguments := { a with excluded := a.excluded ++ [value] } }
  | .format =>
    if value.isNone || formats.contains text then
      .ok { r with arguments := { a with format := some text } }
    else .error (.invalidChoice .format text)
  | .runId => .ok { r with arguments := { a with runId := some text } }
  | _ => .error (.unwantedValue flag text)

/-- What a short option leaves of the letters attached to it, once those that repeat it are
taken. -/
def leftOver (name attached : String) : String :=
  String.ofList (attached.toList.dropWhile fun c => name.toList == ['-', c])

/-- The first operand is the root. -/
def operand (r : Reading) (text : String) : Reading :=
  if r.rooted then { r with extras := r.extras ++ [text] }
  else { r with rooted := true, arguments := { r.arguments with root := some text } }

/-- What stands from the separator on: it goes with the operand next to it that becomes the root,
or else is taken by nothing. -/
def separated (r : Reading) (rootJustRead : Bool) (operands : List String) : Reading :=
  if r.rooted then
    let extras := if rootJustRead then operands else "--" :: operands
    { r with extras := r.extras ++ extras }
  else
    match operands with
    | [] => { r with rooted := true }
    | root :: rest => { r.operand root with extras := r.extras ++ rest }

/-- Reads the words from left to right. `rootJustRead` says that the word before them became the
root. -/
def words (r : Reading) (rootJustRead : Bool) : List Word → Except UsageError Reading
  | [] => .ok r
  | .operand text :: rest => words (r.operand text) (!r.rooted) rest
  | .separator operands :: _ => .ok (r.separated rootJustRead operands)
  | .unknown text :: rest => words { r with extras := r.extras ++ [text] } false rest
  | .option flag name attached :: rest =>
    if flag.takesValue then
      match attached, rest with
      | some value, rest => do
        words (← r.give flag (if value = "--" then none else some value)) false rest
      | none, .operand value :: rest => do words (← r.give flag (some value)) false rest
      | none, _ => .error (.missingValue flag)
    else
      match attached with
      | none => do
        let r ← r.switch flag
        if r.ended.isSome then .ok r else words r false rest
      | some value =>
        let left := leftOver name value
        if value.isEmpty || !left.isEmpty then .error (.unwantedValue flag left)
        else do
          let r ← r.switch flag
          if r.ended.isSome then .ok r else words r false rest

end Reading

def Request.ofArguments (arguments : List String) : Except UsageError Request := do
  let r ← Reading.words {} false (← classify arguments)
  match r.ended with
  | some request => .ok request
  | none =>
    if r.extras.isEmpty then .ok (.run r.arguments) else .error (.unrecognized r.extras)

end Recenter.CommandLine
