/-! Lines. A text splits at its line feeds and nowhere else, so a carriage return before a line
feed stays with its line. Main statement: joining what `splitLines` returns gives the text back. -/

namespace Recenter.Text

/-- One line of a text: what stands between two line feeds. -/
abbrev Line := List Char

/-- A line's text, and the carriage return that ends it if there is one. -/
def splitEol (line : Line) : Line × Line :=
  if line.getLast? = some '\r' then (line.dropLast, ['\r']) else (line, [])

theorem splitEol_append (line : Line) : (splitEol line).1 ++ (splitEol line).2 = line := by
  unfold splitEol
  split
  · next h =>
    obtain ⟨init, rfl⟩ := List.getLast?_eq_some_iff.1 h
    simp
  · simp

def pushFront (c : Char) : List Line → List Line
  | [] => [[c]]
  | line :: rest => if c = '\n' then [] :: line :: rest else (c :: line) :: rest

/-- The lines of a text, one more than it has line feeds. -/
def splitLines (text : List Char) : List Line :=
  text.foldr pushFront [[]]

def joinLines (lines : List Line) : List Char :=
  ['\n'].intercalate lines

/-- Every carriage return, alone or in front of a line feed, made a line feed. -/
def unifyEol : List Char → List Char
  | '\r' :: '\n' :: rest => '\n' :: unifyEol rest
  | '\r' :: rest => '\n' :: unifyEol rest
  | c :: rest => c :: unifyEol rest
  | [] => []

theorem splitLines_ne_nil (text : List Char) : splitLines text ≠ [] := by
  cases text with
  | nil => simp [splitLines]
  | cons c rest =>
    simp only [splitLines, List.foldr_cons]
    cases List.foldr pushFront [[]] rest <;> simp [pushFront]
    split <;> simp

theorem joinLines_splitLines (text : List Char) : joinLines (splitLines text) = text := by
  induction text with
  | nil => rfl
  | cons c rest ih =>
    have hcons : splitLines (c :: rest) = pushFront c (splitLines rest) := rfl
    rw [hcons]
    match h : splitLines rest, splitLines_ne_nil rest with
    | line :: lines, _ =>
      rw [h] at ih
      by_cases hc : c = '\n'
      · subst hc
        simpa [pushFront, joinLines, List.intercalate] using ih
      · cases lines <;>
          simpa [pushFront, joinLines, List.intercalate, hc] using ih

end Recenter.Text
