/-!
# Ranges of numbers

Tables of character properties are lists of closed ranges of code points.
-/

namespace XoLang.Text

/-- A list of closed ranges of numbers. -/
abbrev Ranges := List (Nat × Nat)

/-- Whether a number lies in one of the ranges. -/
def Ranges.has (ranges : Ranges) (n : Nat) : Bool :=
  ranges.any fun range => range.1 ≤ n && n ≤ range.2

end XoLang.Text
