import Recenter.Text.Blank
import Recenter.Text.Line

/-! Region banners: a title between two border lines. The title is centered in the width of the
upper border. A triple of lines is a candidate by its borders alone, and the pass slides over the
lines one by one, so a line it has changed may be the upper border of the next triple. -/

namespace Recenter.Banner

open Recenter.Text

structure Revision where
  lines : List Line
  changed : Bool
deriving DecidableEq, Repr

theorem Revision.eq_unchanged_iff {r : Revision} {lines : List Line}
    (h : r.changed = true ↔ r.lines ≠ lines) : r = ⟨lines, false⟩ ↔ r.lines = lines := by
  obtain ⟨lines', changed⟩ := r
  cases changed <;> simp_all

end Recenter.Banner

namespace Recenter.Banner.Region

open Recenter.Text

/-- How the two border lines of a region banner begin. -/
structure Borders where
  top : List Char
  bottom : List Char
deriving DecidableEq, Repr

def Borders.standard : Borders where
  top := '/' :: List.replicate 78 '*'
  bottom := List.replicate 78 '*' ++ ['/']

/-- The title of a line, centered in `width` columns. A blank title and one wider than `width` stay
as they are. -/
def centerTitle? (line : Line) (width : Nat) : Option Line :=
  let title := trim line
  if title.isEmpty || width < title.length then none
  else
    -- An odd column goes to the right.
    let left := (width - title.length) / 2
    let right := width - title.length - left
    some (List.replicate left ' ' ++ title ++ List.replicate right ' ')

/-- Three lines form a candidate banner if the outer two begin as the borders do. -/
def isCandidate (borders : Borders) (top bottom : Line) : Bool :=
  borders.top.isPrefixOf (splitEol top).1 && borders.bottom.isPrefixOf (splitEol bottom).1

def recenter? (borders : Borders) (top middle bottom : Line) : Option Line :=
  if isCandidate borders top bottom then
    let (body, eol) := splitEol middle
    match centerTitle? body (splitEol top).1.length with
    | some centered => if centered = body then none else some (centered ++ eol)
    | none => none
  else none

/-- The pass from the line `top` on. -/
def slide (borders : Borders) (top : Line) : List Line → Revision
  | middle :: bottom :: rest =>
    match recenter? borders top middle bottom with
    | some middle' => ⟨top :: (slide borders middle' (bottom :: rest)).lines, true⟩
    | none =>
      let below := slide borders middle (bottom :: rest)
      ⟨top :: below.lines, below.changed⟩
  | below => ⟨top :: below, false⟩

def centerLines (borders : Borders) : List Line → Revision
  | top :: below => slide borders top below
  | [] => ⟨[], false⟩

end Recenter.Banner.Region
