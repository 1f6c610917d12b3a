import Recenter.Text.Split

/-! Paths as lists of names. A path keeps `..` but neither `.` nor what repeated and trailing
slashes add; two leading slashes differ from one, three and more do not. -/

namespace Recenter.Files

/-- `slashes` leading slashes (none in a relative path), and the names between slashes. -/
structure Path where
  slashes : Nat
  names : List String
deriving DecidableEq, Repr

namespace Path

def ofString (s : String) : Path :=
  let leading := (s.toList.takeWhile (· == '/')).length
  { slashes := if leading ≤ 2 then leading else 1
    names := (Text.splitAt '/' s.toList).filterMap fun part =>
      if part.isEmpty || part == ['.'] then none else some (String.ofList part) }

def toString (p : Path) : String :=
  if p.slashes = 0 && p.names.isEmpty then "."
  else String.ofList (List.replicate p.slashes '/') ++ "/".intercalate p.names

instance : ToString Path := ⟨toString⟩

def child (p : Path) (name : String) : Path :=
  { p with names := p.names ++ [name] }

/-- The last name; empty where there is none. -/
def name (p : Path) : String := p.names.getLast?.getD ""

/-- From the last dot of the name on. A dot at either end of the name begins no suffix. -/
def suffix (p : Path) : List Char :=
  let name := p.name.toList
  let tail := (name.reverse.takeWhile (· != '.')).reverse
  if tail.isEmpty || name.length ≤ tail.length + 1 then [] else '.' :: tail

def hasNul (p : Path) : Bool :=
  p.names.any fun name => name.toList.contains '\x00'

end Path

end Recenter.Files
