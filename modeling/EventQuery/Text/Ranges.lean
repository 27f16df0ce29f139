set_option autoImplicit false

namespace EventQuery.Text

/-- Ranges of code points have both of their ends. -/
def inRanges (ranges : List (Nat × Nat)) (c : Char) : Bool :=
  ranges.any fun r => r.1 ≤ c.toNat && c.toNat ≤ r.2

end EventQuery.Text
