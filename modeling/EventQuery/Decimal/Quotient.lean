import EventQuery.Decimal.Shortest

set_option autoImplicit false

namespace EventQuery.Decimal

/-- The whole number nearest to `n / d`. -/
def roundDiv (tie : Tie) (n d : Nat) : Nat :=
  let under := n / d
  let rest := n % d
  if d < 2 * rest then under + 1
  else if 2 * rest < d then under
  else match tie with
    | .upward => under + 1
    | .toEven => if under % 2 = 0 then under else under + 1

/-- The nearest number of at most `bits` significant binary digits, of two nearest the even one. -/
def roundBinary (bits n : Nat) : Nat :=
  let scale := Nat.pow 2 (n.log2 + 1 - bits)
  roundDiv .toEven n scale * scale

/-- `units / 10 ^ places` with that number of decimal places, at least one. -/
def fixedPlaces (places units : Nat) : List Char :=
  let one := Nat.pow 10 places
  let fraction := Nat.toDigits 10 (units % one)
  Nat.toDigits 10 (units / one) ++ '.' ::
    List.replicate (places - fraction.length) '0' ++ fraction

/-- Rounding moves a quotient by half a unit at most. -/
theorem roundDiv_near (tie : Tie) {n d : Nat} (pos : 0 < d) :
    2 * (roundDiv tie n d * d) ≤ 2 * n + d ∧ 2 * n ≤ 2 * (roundDiv tie n d * d) + d := by
  have whole := Nat.div_add_mod' n d
  have small := Nat.mod_lt n pos
  have next : (n / d + 1) * d = n / d * d + d := Nat.succ_mul (n / d) d
  unfold roundDiv
  dsimp only
  split
  · omega
  · split
    · omega
    · cases tie with
      | upward =>
        dsimp only
        omega
      | toEven =>
        dsimp only
        split
        · omega
        · omega

end EventQuery.Decimal
