/-!
Sets of characters given as closed ranges of code points.
-/

namespace SelectPlan.Text

/-- Whether a code point lies in one of the closed ranges. -/
def inRanges (ranges : List (Nat × Nat)) (code : Nat) : Bool :=
  ranges.any fun range => range.1 ≤ code && code ≤ range.2

end SelectPlan.Text
