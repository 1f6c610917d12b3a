import Recenter.Text.Line
import Recenter.Yaml.Fault

/-! A place in a YAML text, with what follows it. Lines end at a line feed, a next-line control and
the two Unicode separators; behind the end of the text stands NUL, which no YAML text holds. -/

namespace Recenter.Yaml

def isAllowed (c : Char) : Bool :=
  let n := c.toNat
  n == 0x09 || n == 0x0A || n == 0x0D || (0x20 ≤ n && n ≤ 0x7E) || n == 0x85 ||
    (0xA0 ≤ n && n ≤ 0xFFFD) || 0x10000 ≤ n

def isBreak (c : Char) : Bool :=
  c == '\n' || c == '\u0085' || c == '\u2028' || c == '\u2029'

def isEnd (c : Char) : Bool := c == '\x00'

def isBreakOrEnd (c : Char) : Bool := isBreak c || isEnd c

def isSpaceOrTab (c : Char) : Bool := c == ' ' || c == '\t'

def isGap (c : Char) : Bool := isBreakOrEnd c || c == ' '

def isWideGap (c : Char) : Bool := isGap c || c == '\t'

/-- What follows a place, how many characters are before it, and its line and column. -/
structure Cursor where
  rest : List Char
  index : Nat := 0
  line : Nat := 0
  column : Nat := 0

namespace Cursor

def peek (c : Cursor) (n : Nat) : Char := c.rest.getD n '\x00'

def step (c : Cursor) : Cursor :=
  match c.rest with
  | [] => c
  | x :: rest =>
    if isBreak x then ⟨rest, c.index + 1, c.line + 1, 0⟩
    else if x == '\uFEFF' then ⟨rest, c.index + 1, c.line, c.column⟩
    else ⟨rest, c.index + 1, c.line, c.column + 1⟩

def advance : Nat → Cursor → Cursor
  | 0, c => c
  | n + 1, c => advance n c.step

/-- The characters from here on that satisfy `p`, and the place behind them. -/
def span (p : Char → Bool) (c : Cursor) : List Char × Cursor :=
  let found := c.rest.takeWhile p
  (found, c.advance found.length)

def skip (p : Char → Bool) (c : Cursor) : Cursor := (c.span p).2

def skipComment (c : Cursor) : Cursor :=
  if c.peek 0 == '#' then c.skip fun x => !isBreakOrEnd x else c

/-- What a break stands for, and the place behind it. A next-line control counts as a line feed. -/
def lineBreak (c : Cursor) : List Char × Cursor :=
  let x := c.peek 0
  if x == '\n' || x == '\u0085' then (['\n'], c.step)
  else if isBreak x then ([x], c.step)
  else ([], c)

/-- Three hyphens or three dots, by themselves. -/
def atSeparator (c : Cursor) : Bool :=
  let three := c.rest.take 3
  (three == ['-', '-', '-'] || three == ['.', '.', '.']) && isWideGap (c.peek 3)

/-- Past spaces, a comment and the break that ends the line. -/
def endLine (fault : Fault) (c : Cursor) : Except Fault Cursor :=
  let c := (c.skip (· == ' ')).skipComment
  if isBreakOrEnd (c.peek 0) then .ok c.lineBreak.2 else .error fault

end Cursor

end Recenter.Yaml
