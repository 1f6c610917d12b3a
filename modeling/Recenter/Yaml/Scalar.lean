import Recenter.Yaml.Cursor
import Recenter.Text.Hex

/-! The four written forms of a YAML scalar: plain, in single quotes, in double quotes, and as a
block. Every function takes the place where the scalar begins and gives its text and the place
behind it. -/

namespace Recenter.Yaml.Scalar

open Recenter.Text

/-- The part of a plain scalar up to the next blank or to what ends it. In a flow collection its
punctuation ends a scalar too. -/
def plainRun (flow : Bool) : List Char → List Char
  | [] => []
  | c :: rest =>
    let next := rest.headD '\x00'
    let ends := isWideGap c ||
      (c == ':' && (isWideGap next || (flow && [',', '[', ']', '\x7b', '\x7d'].contains next))) ||
      (flow && [',', '?', '[', ']', '\x7b', '\x7d'].contains c)
    if ends then [] else c :: plainRun flow rest

/-- Breaks and spaces, and what the breaks stand for. Gives up at a document separator. -/
def plainBreaks : Nat → List Char → Cursor → Option (List Char) × Cursor
  | 0, done, c => (some done, c)
  | fuel + 1, done, c =>
    if c.peek 0 == ' ' then plainBreaks fuel done c.step
    else if isBreak (c.peek 0) then
      let (ending, c) := c.lineBreak
      if c.atSeparator then (none, c) else plainBreaks fuel (done ++ ending) c
    else (some done, c)

/-- One break alone is folded into a space; of several the first is dropped. -/
def fold (first breaks : List Char) : List Char :=
  if first ≠ ['\n'] then first ++ breaks
  else if breaks.isEmpty then [' ']
  else breaks

/-- What the blanks behind a part stand for, the place behind them, and whether a line ended. -/
def plainSpaces (c : Cursor) : List Char × Cursor × Bool :=
  let (spaces, c) := c.span (· == ' ')
  if isBreak (c.peek 0) then
    let (first, c) := c.lineBreak
    if c.atSeparator then ([], c, true)
    else
      match plainBreaks (c.rest.length + 1) [] c with
      | (none, c) => ([], c, true)
      | (some breaks, c) => (fold first breaks, c, true)
  else (spaces, c, false)

/-- The parts of a plain scalar. `spaces` stand behind `done`; `broken` says that a line ended
there. -/
def plainParts (flow : Bool) (indent : Int) :
    Nat → List Char → List Char → Bool → Cursor → List Char × Cursor × Bool
  | 0, done, _, broken, c => (done, c, broken)
  | fuel + 1, done, spaces, broken, c =>
    let run := plainRun flow c.rest
    if c.peek 0 == '#' || run.isEmpty then (done, c, broken)
    else
      let done := done ++ spaces ++ run
      let (spaces, c, broken) := plainSpaces (c.advance run.length)
      if spaces.isEmpty || c.peek 0 == '#' || (!flow && c.column < indent) then (done, c, broken)
      else plainParts flow indent fuel done spaces broken c

/-- A plain scalar inside a block of the given indent; the last part says whether the place behind
it is on a new line. -/
def plain (flow : Bool) (indent : Int) (c : Cursor) : List Char × Cursor × Bool :=
  plainParts flow indent (c.rest.length + 1) [] [] false c

def escaped? : Char → Option Char
  | '0' => some '\x00'
  | 'a' => some '\x07'
  | 'b' => some '\x08'
  | 't' | '\t' => some '\t'
  | 'n' => some '\n'
  | 'v' => some '\x0b'
  | 'f' => some '\x0c'
  | 'r' => some '\r'
  | 'e' => some '\x1b'
  | ' ' => some ' '
  | '"' => some '"'
  | '\\' => some '\\'
  | '/' => some '/'
  | 'N' => some '\u0085'
  | '_' => some '\u00a0'
  | 'L' => some '\u2028'
  | 'P' => some '\u2029'
  | _ => none

def escapeLength? : Char → Option Nat
  | 'x' => some 2
  | 'u' => some 4
  | 'U' => some 8
  | _ => none

def hexNumber? (digits : List Char) : Option Nat :=
  (digits.mapM hexValue?).map fun values => values.foldl (fun n d => n * 16 + d) 0

def quotedBreaks : Nat → List Char → Cursor → Except Fault (List Char × Cursor)
  | 0, done, c => .ok (done, c)
  | fuel + 1, done, c =>
    if c.atSeparator then .error .misplaced
    else
      let c := c.skip isSpaceOrTab
      if isBreak (c.peek 0) then
        let (ending, c) := c.lineBreak
        quotedBreaks fuel (done ++ ending) c
      else .ok (done, c)

def quotedSpaces (c : Cursor) : Except Fault (List Char × Cursor) := do
  let (spaces, c) := c.span isSpaceOrTab
  if isEnd (c.peek 0) then .error .unterminated
  else if isBreak (c.peek 0) then
    let (first, c) := c.lineBreak
    let (breaks, c) ← quotedBreaks (c.rest.length + 1) [] c
    .ok (fold first breaks, c)
  else .ok (spaces, c)

/-- The character of a number that is written in an escape. A surrogate, which is no character, is
read as NUL even where two of them would make a pair. -/
def codePoint (n : Nat) : Except Fault Char :=
  if n < 0x110000 then .ok (Char.ofNat n)
  else if n < 0x80000000 then .error (.value .codePoint)
  else .error (.value .wideCodePoint)

def escape (c : Cursor) : Except Fault (List Char × Cursor) :=
  let x := c.peek 0
  match escaped? x, escapeLength? x with
  | some found, _ => .ok ([found], c.step)
  | none, some length =>
    let c := c.step
    let digits := c.rest.take length
    match hexNumber? digits with
    | some n =>
      if digits.length = length then do
        .ok ([← codePoint n], c.advance length)
      else .error .badEscape
    | none => .error .badEscape
  | none, none =>
    -- A break behind a backslash stands for nothing.
    if isBreak x then quotedBreaks (c.rest.length + 1) [] c.lineBreak.2 else .error .badEscape

def isOrdinary (c : Char) : Bool :=
  !(isWideGap c || c == '\'' || c == '"' || c == '\\')

def quotedParts (double : Bool) : Nat → List Char → Cursor → Except Fault (List Char × Cursor)
  | 0, _, _ => .error .unterminated
  | fuel + 1, done, c => do
    let (run, c) := c.span isOrdinary
    let done := done ++ run
    let x := c.peek 0
    if isWideGap x then
      let (spaces, c) ← quotedSpaces c
      quotedParts double fuel (done ++ spaces) c
    else if double && x == '\\' then
      let (found, c) ← escape c.step
      quotedParts double fuel (done ++ found) c
    else if !double && x == '\'' && c.peek 1 == '\'' then
      quotedParts double fuel (done ++ [x]) (c.advance 2)
    else if x == (if double then '"' else '\'') then .ok (done, c.step)
    else quotedParts double fuel (done ++ [x]) c.step

def quoted (double : Bool) (c : Cursor) : Except Fault (List Char × Cursor) :=
  quotedParts double (c.rest.length + 1) [] c.step

inductive Chomping
  | clip
  | strip
  | keep
deriving DecidableEq, Repr

/-- The indicators behind `|` and `>`: the chomping and the indent, in either order. -/
def indicators (c : Cursor) : Except Fault (Chomping × Option Nat × Cursor) :=
  let chomping? (x : Char) : Option Chomping :=
    if x == '+' then some .keep else if x == '-' then some .strip else none
  let first := chomping? (c.peek 0)
  let c := if first.isSome then c.step else c
  let digit := (c.peek 0).isDigit
  let increment := if digit then some ((c.peek 0).toNat - '0'.toNat) else none
  let c := if digit then c.step else c
  let second := if first.isNone && digit then chomping? (c.peek 0) else none
  let c := if second.isSome then c.step else c
  if increment == some 0 || !isGap (c.peek 0) then .error .badIndicator
  else .ok ((first.or second).getD .clip, increment, c)

/-- Empty lines in front of a block scalar without an indent indicator, and the widest of their
indents. -/
def leadingBreaks : Nat → List Char → Nat → Cursor → List Char × Nat × Cursor
  | 0, done, widest, c => (done, widest, c)
  | fuel + 1, done, widest, c =>
    if c.peek 0 == ' ' then
      let c := c.step
      leadingBreaks fuel done (max widest c.column) c
    else if isBreak (c.peek 0) then
      let (ending, c) := c.lineBreak
      leadingBreaks fuel (done ++ ending) widest c
    else (done, widest, c)

def skipIndent (indent : Nat) (c : Cursor) : Cursor :=
  c.advance ((c.rest.take (indent - c.column)).takeWhile (· == ' ')).length

def blockBreaks (indent : Nat) : Nat → List Char → Cursor → List Char × Cursor
  | 0, done, c => (done, c)
  | fuel + 1, done, c =>
    let c := skipIndent indent c
    if isBreak (c.peek 0) then
      let (ending, c) := c.lineBreak
      blockBreaks indent fuel (done ++ ending) c
    else (done, c)

/-- The lines of a block scalar: their text, the break behind the last of them, the empty lines
behind that, and the place behind all. -/
def blockLines (folded : Bool) (indent : Nat) :
    Nat → List Char → List Char → List Char → Cursor →
      List Char × List Char × List Char × Cursor
  | 0, done, ending, breaks, c => (done, ending, breaks, c)
  | fuel + 1, done, ending, breaks, c =>
    if c.column = indent && !isEnd (c.peek 0) then
      let indented := isSpaceOrTab (c.peek 0)
      let (line, c) := c.span fun x => !isBreakOrEnd x
      let done := done ++ breaks ++ line
      let (ending, c) := c.lineBreak
      let (breaks, c) := blockBreaks indent (c.rest.length + 1) [] c
      if c.column = indent && !isEnd (c.peek 0) then
        let joined :=
          -- The break between two lines of which neither is indented further is folded.
          if folded && ending == ['\n'] && !indented && !isSpaceOrTab (c.peek 0) then
            (if breaks.isEmpty then [' '] else [])
          else ending
        blockLines folded indent fuel (done ++ joined) ending breaks c
      else (done, ending, breaks, c)
    else (done, ending, breaks, c)

def block (folded : Bool) (blockIndent : Int) (c : Cursor) :
    Except Fault (List Char × Cursor) := do
  let (chomping, increment, c) ← indicators c.step
  let c ← c.endLine .badIndicator
  let least := (max (blockIndent + 1) 1).toNat
  let (breaks, indent, c) :=
    match increment with
    | some n =>
      let indent := least + n - 1
      let (breaks, c) := blockBreaks indent (c.rest.length + 1) [] c
      (breaks, indent, c)
    | none =>
      let (breaks, widest, c) := leadingBreaks (c.rest.length + 1) [] 0 c
      (breaks, max least widest, c)
  let (text, ending, breaks, c) :=
    blockLines folded indent (c.rest.length + 1) [] [] breaks c
  let tail :=
    match chomping with
    | .strip => []
    | .clip => ending
    | .keep => ending ++ breaks
  .ok (text ++ tail, c)

end Recenter.Yaml.Scalar
