/-! The parts of a text between separators. -/

namespace Recenter.Text

/-- The parts of a text between characters that are equal to `separator`. There is always one
part more than there are separators. -/
def splitAt (separator : Char) (s : List Char) : List (List Char) :=
  s.foldr
    (fun c parts =>
      match parts with
      | [] => [[c]]
      | part :: rest => if c = separator then [] :: part :: rest else (c :: part) :: rest)
    [[]]

theorem splitAt_ne_nil (separator : Char) (s : List Char) : splitAt separator s ≠ [] := by
  induction s with
  | nil => simp [splitAt]
  | cons c rest _ =>
    simp only [splitAt, List.foldr_cons]
    split
    · simp
    · split <;> simp

end Recenter.Text
