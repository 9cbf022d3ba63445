/-! # Ranges of code points -/

namespace SqlScribe.Text

/-- A code point lies in one of some ranges, ends included. -/
def inRanges (ranges : List (Nat × Nat)) (code : Nat) : Bool :=
  ranges.any fun r => r.1 ≤ code && code ≤ r.2

end SqlScribe.Text
