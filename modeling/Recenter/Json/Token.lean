import Recenter.Json.Value
import Recenter.Number.Digits
import Recenter.Text.Hex
import Recenter.Codec.Wide

/-! The tokens of a JSON text, each with its place. A flaw inside a token does not stop the
reading here: what comes first in the text is reported first, and only the grammar knows whether
the token was wanted at all. -/

namespace Recenter.Json

open Recenter.Text Recenter.Number

inductive Flaw
  | expectingValue
  | expectingName
  | expectingColon
  | expectingComma
  | extraData
  | unterminated
  | escape
  | codePoint
  | control
  | byteOrderMark
deriving DecidableEq, Repr

def Flaw.message : Flaw → String
  | expectingValue => "Expecting value"
  | expectingName => "Expecting property name enclosed in double quotes"
  | expectingColon => "Expecting ':' delimiter"
  | expectingComma => "Expecting ',' delimiter"
  | extraData => "Extra data"
  | unterminated => "Unterminated string starting at"
  | escape => "Invalid \\escape"
  | codePoint => "Invalid \\uXXXX escape"
  | control => "Invalid control character at"
  | byteOrderMark => "Unexpected UTF-8 BOM (decode using utf-8-sig)"

/-- Why a text is not read: a flaw at an offset, or an integer of too many digits. -/
inductive Fault
  | flaw (kind : Flaw) (offset : Nat)
  | oversized (digits : Nat)
deriving DecidableEq, Repr

inductive Token
  | arrayStart
  | arrayEnd
  | objectStart
  | objectEnd
  | colon
  | comma
  | text (s : String)
  | badText (fault : Fault)
  | plain (value : Json)
  | badNumber (fault : Fault)
  /-- A character that begins no token. -/
  | stray
deriving Repr

def isSpace (c : Char) : Bool :=
  c == ' ' || c == '\t' || c == '\n' || c == '\r'

def escaped? : Char → Option Char
  | '"' => some '"'
  | '\\' => some '\\'
  | '/' => some '/'
  | 'b' => some '\x08'
  | 'f' => some '\x0c'
  | 'n' => some '\n'
  | 'r' => some '\r'
  | 't' => some '\t'
  | _ => none

def unit? (digits : List Char) : Option Nat :=
  match digits.mapM hexValue? with
  | some [a, b, c, d] => some (((a * 16 + b) * 16 + c) * 16 + d)
  | _ => none

/-- The low surrogate that an escape in front of more text gives. -/
def lowSurrogate? : List Char → Option Nat
  | '\\' :: 'u' :: rest =>
    if (rest.drop 4).isEmpty then none
    else (unit? (rest.take 4)).filter Codec.Utf16.isLowSurrogate
  | _ => none

/-- Reads a text from behind its opening quote at `start`; `pos` is the place of the next
character. Gives the text and the place behind the closing quote. A text consists of characters, and
a surrogate is none: the escape of one that is not half of a pair is read as NUL. -/
def readText (start pos : Nat) (done : List Char) : List Char → Except Fault (List Char × Nat)
  | [] => .error (.flaw .unterminated start)
  | '"' :: _ => .ok (done.reverse, pos + 1)
  | '\\' :: 'u' :: rest =>
    if (rest.drop 4).isEmpty then .error (.flaw .codePoint (pos + 1))
    else
      match unit? (rest.take 4) with
      | none => .error (.flaw .codePoint (pos + 1))
      | some u =>
        match if Codec.Utf16.isHighSurrogate u then lowSurrogate? (rest.drop 4) else none with
        | some v =>
          readText start (pos + 12) (Char.ofNat (Codec.Utf16.joinSurrogates u v) :: done)
            (rest.drop 10)
        | none => readText start (pos + 6) (Char.ofNat u :: done) (rest.drop 4)
  | '\\' :: c :: rest =>
    match escaped? c with
    | some c => readText start (pos + 2) (c :: done) rest
    | none => .error (.flaw .escape pos)
  | '\\' :: [] => .error (.flaw .unterminated start)
  | c :: rest =>
    if c < ' ' then .error (.flaw .control pos) else readText start (pos + 1) (c :: done) rest
termination_by rest => rest.length
decreasing_by all_goals (simp; try omega)

/-- The digits in front. A zero stands alone. -/
def wholeDigits : List Char → List Char
  | '0' :: _ => ['0']
  | rest => rest.takeWhile Char.isDigit

def fraction : List Char → List Char
  | '.' :: rest => rest.takeWhile Char.isDigit
  | _ => []

/-- The number that a text begins with, and how many characters it takes. An integer of more digits
than `most` is refused. -/
def readNumber? (most : Nat) (s : List Char) : Option (Token × Nat) :=
  let negative := s.head? == some '-'
  let unsigned := if negative then s.drop 1 else s
  let whole := wholeDigits unsigned
  if whole.isEmpty then none
  else
    let tail := unsigned.drop whole.length
    let decimals := fraction tail
    let taken := if decimals.isEmpty then 0 else decimals.length + 1
    let (down, digits, extra) := power (tail.drop taken)
    let length := (if negative then 1 else 0) + whole.length + taken + extra
    if taken = 0 ∧ extra = 0 then
      if most < whole.length then some (.badNumber (.oversized whole.length), length)
      else
        let size := digitsValue whole
        some (.plain (.int (if negative then -(size : Int) else size)), length)
    else
      let ten : Int := if down then -(digitsValue digits : Int) else digitsValue digits
      some (.plain (.float
        (.ofDecimal negative (digitsValue (whole ++ decimals)) (ten - decimals.length))), length)

def words : List (List Char × Json) :=
  [("null".toList, .null), ("true".toList, .bool true), ("false".toList, .bool false),
   ("NaN".toList, .float .nan), ("Infinity".toList, .float (.infinite false)),
   ("-Infinity".toList, .float (.infinite true))]

/-- The token at `pos`, where `s` begins, and how many characters it takes. -/
def readToken (most pos : Nat) (s : List Char) : Token × Nat :=
  match s with
  | '[' :: _ => (.arrayStart, 1)
  | ']' :: _ => (.arrayEnd, 1)
  | '\x7b' :: _ => (.objectStart, 1)
  | '\x7d' :: _ => (.objectEnd, 1)
  | ':' :: _ => (.colon, 1)
  | ',' :: _ => (.comma, 1)
  | '"' :: rest =>
    match readText pos (pos + 1) [] rest with
    | .ok (content, stop) => (.text (String.ofList content), stop - pos)
    | .error fault => (.badText fault, 1)
  | s =>
    match words.find? fun (word, _) => word.isPrefixOf s with
    | some (word, value) => (.plain value, word.length)
    | none => (readNumber? most s).getD (.stray, 1)

structure Placed where
  token : Token
  offset : Nat

def tokens (most pos : Nat) : List Char → List Placed
  | [] => []
  | c :: rest =>
    if isSpace c then tokens most (pos + 1) rest
    else
      let (token, length) := readToken most pos (c :: rest)
      ⟨token, pos⟩ :: tokens most (pos + 1 + (length - 1)) (rest.drop (length - 1))
termination_by s => s.length

end Recenter.Json
