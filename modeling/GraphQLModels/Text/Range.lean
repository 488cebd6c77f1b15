/-!
# Ranges of code points

Character properties are stored as closed ranges in ascending order.
-/

namespace GraphQLModels.Text

/-- Whether a code point lies in one of the closed ranges. -/
def inRanges (ranges : List (Nat × Nat)) (n : Nat) : Bool :=
  ranges.any fun range => range.1 ≤ n && n ≤ range.2

end GraphQLModels.Text
