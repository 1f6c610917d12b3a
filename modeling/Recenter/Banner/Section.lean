import Recenter.Banner.Region

/-! Section banners: one line that holds a title between two runs of dashes, inside a pair of
comment tokens. The line is taken apart from both ends: blanks, token and blanks up to the first
dash in front, the same read backwards from the end, and in between two dash runs around a title.
The title takes as little as it can once the left run has taken as much as it can. -/

namespace Recenter.Banner.Section

open Recenter.Text

structure Token where
  text : List Char
  text_ne_nil : text ≠ []
deriving DecidableEq

def Token.slashes : Token := ⟨['/', '/'], by decide⟩

def Token.ofList? (text : List Char) : Option Token :=
  if h : text = [] then none else some ⟨text, h⟩

/-- The five parts of a section banner. Blanks between the runs and the title belong to none. -/
structure Parts where
  opening : List Char
  left : List Char
  title : List Char
  right : List Char
  closing : List Char
deriving DecidableEq, Repr

def isDash (c : Char) : Bool := c == '-'

def tokenAndGap? (token line : List Char) : Option (List Char × List Char) :=
  match token.isPrefixOf? line with
  | none => none
  | some rest =>
    let gap := rest.takeWhile isBlank
    let after := rest.dropWhile isBlank
    if gap.isEmpty || after.head? != some '-' then none else some (token ++ gap, after)

/-- Blanks, the token and at least one blank in front of a dash, and what begins with that dash. -/
def opening? (token : List Char) : List Char → Option (List Char × List Char)
  | [] => none
  | c :: rest =>
    match tokenAndGap? token (c :: rest) with
    | some found => some found
    | none =>
      if isBlank c then
        (opening? token rest).map fun (opening, inner) => (c :: opening, inner)
      else none

/-- Where the title begins, searched from `start` down. It ends at `finish`, where the closing
blanks and dashes begin, or after one character if that is later; a dash has to be left behind
it, and it holds no line feed. -/
def titleBounds? (inner : List Char) (finish : Nat) : Nat → Option (Nat × Nat)
  | 0 => none
  | start + 1 =>
    let stop := max (start + 2) finish
    if stop < inner.length && !((inner.take stop).drop (start + 1)).contains '\n' then
      some (start + 1, stop)
    else titleBounds? inner finish start

/-- Left run, title and right run of what stands between opening and closing. -/
def inner? (inner : List Char) : Option (List Char × List Char × List Char) :=
  let dashes := inner.takeWhile isDash
  let gap := (inner.dropWhile isDash).takeWhile isBlank
  let finish := (dropEndWhile isBlank (dropEndWhile isDash inner)).length
  (titleBounds? inner finish (dashes.length + gap.length)).map fun (start, stop) =>
    (dashes.take start, (inner.take stop).drop start, (inner.drop stop).dropWhile isBlank)

def split? (token : Token) (line : Line) : Option Parts := do
  let (opening, rest) ← opening? token.text line
  let (endward, reversed) ← opening? token.text.reverse rest.reverse
  let (left, title, right) ← inner? reversed.reverse
  -- A title of dashes alone makes a divider, which is no banner.
  if title.all isDash then none
  else some ⟨opening, left, title, right, endward.reverse⟩

/-- The dashes of a banner shared out evenly around its title, with one space on each side. -/
def Parts.center (p : Parts) : Line :=
  let dashes := p.left.length + p.right.length
  -- An odd dash goes to the right.
  let left := dashes / 2
  p.opening ++ List.replicate left '-' ++ [' '] ++ p.title ++ [' '] ++
    List.replicate (dashes - left) '-' ++ p.closing

def centerLine? (token : Token) (line : Line) : Option Line :=
  (split? token line).map Parts.center

def recenter? (token : Token) (line : Line) : Option Line :=
  let (body, eol) := splitEol line
  match centerLine? token body with
  | some centered => if centered = body then none else some (centered ++ eol)
  | none => none

def centerLines (token : Token) (lines : List Line) : Revision where
  lines := lines.map fun line => (recenter? token line).getD line
  changed := lines.any fun line => (recenter? token line).isSome

end Recenter.Banner.Section
