/-! Blank characters, and what is left of a text between its outer blanks. Blank is wider than
core's `Char.isWhitespace`: it also takes the vertical tab, the form feed, the information
separators, the next-line control and the spaces and separators of Unicode. -/

namespace Recenter.Text

/-- Tab to carriage return, the four information separators, space, and the blanks of Unicode. -/
def isBlank (c : Char) : Bool :=
  let n := c.toNat
  (0x09 ≤ n && n ≤ 0x0D) || (0x1C ≤ n && n ≤ 0x20) || n == 0x85 || n == 0xA0 || n == 0x1680 ||
    (0x2000 ≤ n && n ≤ 0x200A) || n == 0x2028 || n == 0x2029 || n == 0x202F || n == 0x205F ||
    n == 0x3000

theorem isBlank_of_isWhitespace {c : Char} (h : c.isWhitespace = true) : isBlank c = true := by
  simp only [Char.isWhitespace, Bool.or_eq_true, decide_eq_true_eq] at h
  rcases h with ((rfl | rfl) | rfl) | rfl <;> decide

def dropEndWhile {α : Type} (p : α → Bool) (s : List α) : List α :=
  (s.reverse.dropWhile p).reverse

def trim (s : List Char) : List Char :=
  dropEndWhile isBlank (s.dropWhile isBlank)

end Recenter.Text
