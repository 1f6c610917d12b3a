import Recenter.Codec.Utf8
import Recenter.Yaml.Scalar

/-! The tokens of a YAML text. Indentation becomes tokens of its own: a block collection begins
where the column grows and ends where it shrinks. Whether something is the key of a mapping is
known only at the colon behind it, so every token that may turn out to be one is remembered until
its line ends, and the key token is put in front of it then. -/

namespace Recenter.Yaml

inductive Directive
  | version (major : Nat)
  | tag (handle start : String)
  | other
deriving DecidableEq, Repr

inductive Token
  | directive (d : Directive)
  | documentStart
  | documentEnd
  | blockSequenceStart
  | blockMappingStart
  | blockEnd
  | flowSequenceStart
  | flowSequenceEnd
  | flowMappingStart
  | flowMappingEnd
  | blockEntry
  | flowEntry
  | key
  | value
  | alias (name : String)
  | anchor (name : String)
  | tag (handle : Option String) (suffix : String)
  | scalar (text : String) (plain : Bool)
deriving DecidableEq, Repr

/-- A place where the key of a mapping may have begun. A required one has to turn out to be one. -/
structure PossibleKey where
  token : Nat
  required : Bool
  index : Nat
  line : Nat
  column : Nat

/-- The tokens so far and the place behind them. Indents are those of the open block collections,
innermost first; possible keys stand under the depth of flow collections that they belong to. -/
structure Lexer where
  cursor : Cursor
  tokens : Array Token := #[]
  flow : Nat := 0
  indent : Int := -1
  indents : List Int := []
  keyAllowed : Bool := true
  possibleKeys : List (Nat × PossibleKey) := []

namespace Lexer

/-- Past blanks and comments. A new line outside of flow collections may begin with a key. -/
def skipGaps : Nat → Bool → Bool → Cursor → Bool × Cursor
  | 0, _, allowed, c => (allowed, c)
  | fuel + 1, flow, allowed, c =>
    let c := (c.skip (· == ' ')).skipComment
    if isBreak (c.peek 0) then skipGaps fuel flow (allowed || !flow) c.lineBreak.2
    else (allowed, c)

/-- On to the next token. A byte-order mark may stand in front of the first one. -/
def skipToToken (s : Lexer) : Lexer :=
  let c := if s.cursor.index = 0 && s.cursor.peek 0 == '\uFEFF' then s.cursor.step else s.cursor
  let (allowed, c) := skipGaps (c.rest.length + 1) (s.flow != 0) s.keyAllowed c
  { s with cursor := c, keyAllowed := allowed }

/-- The farthest that a colon may be behind the beginning of its key. -/
def maxKeyLength : Nat := 1024

/-- Forgets the possible keys of other lines, and those too far back. -/
def forgetStaleKeys (s : Lexer) : Except Fault Lexer :=
  let isStale (k : PossibleKey) :=
    k.line != s.cursor.line || k.index + maxKeyLength < s.cursor.index
  if s.possibleKeys.any fun (_, k) => isStale k && k.required then .error .misplaced
  else .ok { s with possibleKeys := s.possibleKeys.filter fun (_, k) => !isStale k }

def forgetKey (s : Lexer) : Except Fault Lexer :=
  match s.possibleKeys.lookup s.flow with
  | none => .ok s
  | some k =>
    if k.required then .error .misplaced
    else .ok { s with possibleKeys := s.possibleKeys.filter fun (depth, _) => depth != s.flow }

/-- Remembers the next token as a possible key. -/
def noteKey (s : Lexer) : Except Fault Lexer :=
  if s.keyAllowed then do
    let required := s.flow = 0 && s.indent == s.cursor.column
    let s ← s.forgetKey
    let k : PossibleKey :=
      ⟨s.tokens.size, required, s.cursor.index, s.cursor.line, s.cursor.column⟩
    .ok { s with possibleKeys := (s.flow, k) :: s.possibleKeys }
  else .ok s

def push (s : Lexer) (t : Token) : Lexer :=
  { s with tokens := s.tokens.push t }

def insert (s : Lexer) (n : Nat) (t : Token) : Lexer :=
  { s with tokens := (s.tokens.extract 0 n).push t ++ s.tokens.extract n s.tokens.size }

def allowKey (s : Lexer) (allowed : Bool) : Lexer :=
  { s with keyAllowed := allowed }

def advance (s : Lexer) (n : Nat) : Lexer :=
  { s with cursor := s.cursor.advance n }

def peek (s : Lexer) (n : Nat) : Char := s.cursor.peek n

/-- Closes the block collections that are indented by more than `column`. -/
def closeBlocks (column : Int) : Int → List Int → Array Token → Int × List Int × Array Token
  | indent, [], tokens => (indent, [], tokens)
  | indent, outer :: rest, tokens =>
    if column < indent then closeBlocks column outer rest (tokens.push .blockEnd)
    else (indent, outer :: rest, tokens)

def shrink (s : Lexer) (column : Int) : Lexer :=
  if s.flow != 0 then s
  else
    let (indent, indents, tokens) := closeBlocks column s.indent s.indents s.tokens
    { s with indent := indent, indents := indents, tokens := tokens }

/-- Whether a block collection begins at this column; if so it is the innermost one now. -/
def deepen (s : Lexer) (column : Int) : Bool × Lexer :=
  if s.indent < column then
    (true, { s with indent := column, indents := s.indent :: s.indents })
  else (false, s)

def isWordChar (c : Char) : Bool :=
  c.isAlphanum || c == '-' || c == '_'

def word (c : Cursor) : Except Fault (List Char × Cursor) :=
  let (found, c) := c.span isWordChar
  if found.isEmpty then .error .badName else .ok (found, c)

def number (c : Cursor) : Except Fault (Nat × Cursor) :=
  let (digits, c) := c.span Char.isDigit
  if digits.isEmpty then .error .badDirective
  else if Number.maxDigits < digits.length then .error (.value (.oversized digits.length))
  else .ok (Number.digitsValue digits, c)

def anchorName (c : Cursor) : Except Fault (String × Cursor) := do
  let (name, c) ← word c
  let next := c.peek 0
  if isWideGap next || ['?', ':', ',', ']', '\x7d', '%', '@', '\x60'].contains next then
    .ok (String.ofList name, c)
  else .error .badName

/-- A handle: one exclamation mark, or two around a word. -/
def tagHandle (c : Cursor) : Except Fault (String × Cursor) :=
  if c.peek 0 != '!' then .error .badTag
  else
    let c := c.step
    if c.peek 0 == ' ' then .ok ("!", c)
    else
      let (found, c) := c.span isWordChar
      if c.peek 0 == '!' then .ok (String.ofList ('!' :: found ++ ['!']), c.step)
      else .error .badTag

def isUriChar (c : Char) : Bool :=
  c.isAlphanum || "-;/?:@&=+$,_.!~*'()[]%".toList.contains c

def uriOctets : Nat → List UInt8 → Cursor → Except Fault (List UInt8 × Cursor)
  | 0, done, c => .ok (done, c)
  | fuel + 1, done, c =>
    if c.peek 0 == '%' then
      match Text.hexValue? (c.peek 1), Text.hexValue? (c.peek 2) with
      | some a, some b => uriOctets fuel (done ++ [UInt8.ofNat (a * 16 + b)]) (c.advance 3)
      | _, _ => .error .badTag
    else .ok (done, c)

def uriParts : Nat → List Char → Cursor → Except Fault (List Char × Cursor)
  | 0, done, c => .ok (done, c)
  | fuel + 1, done, c =>
    if c.peek 0 == '%' then do
      let (octets, c) ← uriOctets (c.rest.length + 1) [] c
      match Codec.Utf8.decode octets with
      | .ok text => uriParts fuel (done ++ text) c
      | .error _ => .error .badTag
    else if isUriChar (c.peek 0) then
      let (found, c) := c.span fun x => isUriChar x && x != '%'
      uriParts fuel (done ++ found) c
    else .ok (done, c)

def uri (c : Cursor) : Except Fault (String × Cursor) := do
  let (found, c) ← uriParts (c.rest.length + 1) [] c
  if found.isEmpty then .error .badTag else .ok (String.ofList found, c)

def directive (c : Cursor) : Except Fault (Directive × Cursor) := do
  let (name, c) ← word c.step
  if !isGap (c.peek 0) then .error .badDirective
  else if name == "YAML".toList then
    let (major, c) ← number (c.skip (· == ' '))
    if c.peek 0 != '.' then .error .badDirective
    else
      let (_, c) ← number c.step
      if !isGap (c.peek 0) then .error .badDirective
      else .ok (.version major, ← c.endLine .badDirective)
  else if name == "TAG".toList then
    let (handle, c) ← tagHandle (c.skip (· == ' '))
    if c.peek 0 != ' ' then .error .badDirective
    else
      let (start, c) ← uri (c.skip (· == ' '))
      if !isGap (c.peek 0) then .error .badDirective
      else .ok (.tag handle start, ← c.endLine .badDirective)
  else
    .ok (.other, ← (c.skip fun x => !isBreakOrEnd x).endLine .badDirective)

def tag (c : Cursor) : Except Fault (Token × Cursor) := do
  let next := c.peek 1
  let (found, c) ←
    if next == '<' then do
      let (suffix, c) ← uri (c.advance 2)
      if c.peek 0 == '>' then .ok (Token.tag none suffix, c.step) else .error .badTag
    else if isWideGap next then .ok (Token.tag none "!", c.step)
    else do
      let ahead := c.rest.tail.takeWhile fun x => !isGap x
      let (handle, c) ← if ahead.contains '!' then tagHandle c else .ok ("!", c.step)
      let (suffix, c) ← uri c
      .ok (Token.tag (some handle) suffix, c)
  if isGap (c.peek 0) then .ok (found, c) else .error .badTag

/-- Three characters that begin a line and stand by themselves. -/
def atIndicator (s : Lexer) (c : Char) : Bool :=
  s.cursor.column = 0 && s.cursor.rest.take 3 == [c, c, c] && isWideGap (s.peek 3)

/-- Between documents everything is closed. -/
def closeDocument (s : Lexer) : Except Fault Lexer := do
  let s ← (s.shrink (-1)).forgetKey
  .ok (s.allowKey false)

def startFlow (s : Lexer) (t : Token) : Except Fault Lexer := do
  let s ← s.noteKey
  .ok (({ s with flow := s.flow + 1 }.allowKey true).advance 1 |>.push t)

def endFlow (s : Lexer) (t : Token) : Except Fault Lexer := do
  let s ← s.forgetKey
  .ok (({ s with flow := s.flow - 1 }.allowKey false).advance 1 |>.push t)

def flowEntry (s : Lexer) : Except Fault Lexer := do
  let s ← (s.allowKey true).forgetKey
  .ok ((s.advance 1).push .flowEntry)

/-- Begins a block collection at this column, unless the innermost one is there already. Inside of
flow collections there is none to begin. -/
def enterBlock (s : Lexer) (start : Token) : Except Fault Lexer :=
  if s.flow != 0 then .ok s
  else if !s.keyAllowed then .error .misplaced
  else
    let (begins, s) := s.deepen s.cursor.column
    .ok (if begins then s.push start else s)

def blockEntry (s : Lexer) : Except Fault Lexer := do
  let s ← s.enterBlock .blockSequenceStart
  let s ← (s.allowKey true).forgetKey
  .ok ((s.advance 1).push .blockEntry)

def explicitKey (s : Lexer) : Except Fault Lexer := do
  let s ← s.enterBlock .blockMappingStart
  let s ← (s.allowKey (s.flow == 0)).forgetKey
  .ok ((s.advance 1).push .key)

/-- A colon makes a key of what the possible key remembers, or else belongs to an explicit key. -/
def value (s : Lexer) : Except Fault Lexer := do
  let s ←
    match s.possibleKeys.lookup s.flow with
    | some k =>
      let s := { s with possibleKeys := s.possibleKeys.filter fun (depth, _) => depth != s.flow }
      let s := s.insert k.token .key
      let (begins, s) := if s.flow = 0 then s.deepen k.column else (false, s)
      let s := if begins then s.insert k.token .blockMappingStart else s
      .ok (s.allowKey false)
    | none => do
      let s ← s.enterBlock .blockMappingStart
      (s.allowKey (s.flow == 0)).forgetKey
  .ok ((s.advance 1).push .value)

def keyLike (s : Lexer) (read : Cursor → Except Fault (Token × Cursor)) :
    Except Fault Lexer := do
  let s ← s.noteKey
  let (t, c) ← read s.cursor
  .ok ({ s with cursor := c, keyAllowed := false }.push t)

def quotedScalar (s : Lexer) (double : Bool) : Except Fault Lexer :=
  s.keyLike fun c => do
    let (text, c) ← Scalar.quoted double c
    .ok (.scalar (String.ofList text) false, c)

def blockScalar (s : Lexer) (folded : Bool) : Except Fault Lexer := do
  let s ← (s.allowKey true).forgetKey
  let (text, c) ← Scalar.block folded s.indent s.cursor
  .ok ({ s with cursor := c }.push (.scalar (String.ofList text) false))

def plainScalar (s : Lexer) : Except Fault Lexer := do
  let s ← s.noteKey
  let (text, c, broken) := Scalar.plain (s.flow != 0) (s.indent + 1) s.cursor
  .ok ({ s with cursor := c, keyAllowed := broken }.push (.scalar (String.ofList text) true))

def beginsPlain (s : Lexer) : Bool :=
  let c := s.peek 0
  let indicators := "-?:,[]{}#&*!|>'\"%@".toList ++ ['\x60']
  (!isWideGap c && !indicators.contains c) ||
    (!isWideGap (s.peek 1) && (c == '-' || (s.flow == 0 && (c == '?' || c == ':'))))

/-- The token at a place that is neither blank nor the end. -/
def next (s : Lexer) : Except Fault Lexer :=
  let c := s.peek 0
  let lone := isWideGap (s.peek 1)
  let inFlow := s.flow != 0
  if c == '%' && s.cursor.column = 0 then do
    let s ← s.closeDocument
    let (d, cursor) ← directive s.cursor
    .ok ({ s with cursor := cursor }.push (.directive d))
  else if c == '-' && s.atIndicator '-' then do
    .ok (((← s.closeDocument).advance 3).push .documentStart)
  else if c == '.' && s.atIndicator '.' then do
    .ok (((← s.closeDocument).advance 3).push .documentEnd)
  else if c == '[' then s.startFlow .flowSequenceStart
  else if c == '\x7b' then s.startFlow .flowMappingStart
  else if c == ']' then s.endFlow .flowSequenceEnd
  else if c == '\x7d' then s.endFlow .flowMappingEnd
  else if c == ',' then s.flowEntry
  else if c == '-' && lone then s.blockEntry
  else if c == '?' && (inFlow || lone) then s.explicitKey
  else if c == ':' && (inFlow || lone) then s.value
  else if c == '*' then
    s.keyLike fun c => do
      let (name, c) ← anchorName c.step
      .ok (.alias name, c)
  else if c == '&' then
    s.keyLike fun c => do
      let (name, c) ← anchorName c.step
      .ok (.anchor name, c)
  else if c == '!' then s.keyLike tag
  else if c == '|' && !inFlow then s.blockScalar false
  else if c == '>' && !inFlow then s.blockScalar true
  else if c == '\'' then s.quotedScalar false
  else if c == '"' then s.quotedScalar true
  else if s.beginsPlain then s.plainScalar
  else .error .misplaced

/-- The tokens that are certain: what stands in front of a possible key may still follow the key
token. -/
def certain (s : Lexer) : List Token :=
  let s := s.forgetStaleKeys.toOption.getD s
  let count := s.possibleKeys.foldl (fun n (_, k) => min n k.token) s.tokens.size
  (s.tokens.extract 0 count).toList

/-- The token behind those that there are, or nothing at the end. -/
def advanceToken (s : Lexer) : Except Fault (Lexer × Bool) := do
  let s ← s.skipToToken.forgetStaleKeys
  let s := s.shrink s.cursor.column
  if isEnd (s.peek 0) then
    .ok (← (s.shrink (-1)).forgetKey, true)
  else
    .ok (← s.next, false)

end Lexer

/-- The tokens of a text up to its first fault, if it has one. -/
structure Tokens where
  list : List Token
  fault : Option Fault := none

namespace Tokens

def ofLexer : Nat → Lexer → Tokens
  | 0, s => ⟨s.tokens.toList, none⟩
  | fuel + 1, s =>
    match s.advanceToken with
    | .error fault => ⟨s.certain, some fault⟩
    | .ok (s, true) => ⟨s.tokens.toList, none⟩
    | .ok (s, false) => ofLexer fuel s

/-- The tokens of a text. Each takes at least one character, so that the fuel suffices. -/
def ofText (text : List Char) : Tokens :=
  if text.all isAllowed then ofLexer (text.length + 1) { cursor := { rest := text } }
  else ⟨[], some .unprintable⟩

end Tokens

end Recenter.Yaml
