/-! Classes of characters as tables: lists of ranges of code points, both ends included. -/

namespace Recenter.Text

/-- Whether a range of the table holds `n`. -/
def within (table : List (Nat × Nat)) (n : Nat) : Bool :=
  table.any fun (low, high) => low ≤ n && n ≤ high

end Recenter.Text
