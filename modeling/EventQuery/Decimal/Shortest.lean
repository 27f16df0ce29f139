/- The fewest decimal digits that identify a binary64 number. A decimal identifies the number
when it lies in the interval of reals that round to it. On the grid of `n` digit decimals only
the two neighbours of the number itself have to be tried. -/

set_option autoImplicit false

namespace EventQuery.Decimal

/-- The value `digits * 10 ^ exponent`. -/
structure Scientific where
  digits : Nat
  exponent : Int
  deriving DecidableEq

/-- Which of two equally near decimals is taken. -/
inductive Tie where
  | upward
  | toEven

/-- The reals that round to a number, around it, as natural numbers over one denominator. The ends
belong to the interval when the significand of the number is even. -/
structure Rounding where
  low : Nat
  value : Nat
  high : Nat
  denominator : Nat
  ends : Bool

/-- The interval of `significand * 2 ^ exponent`. Below a power of two the gap to the next number
is half as wide as above it. -/
def Rounding.ofParts (significand : Nat) (exponent : Int) : Rounding :=
  let below := if significand = Nat.pow 2 52 ∧ -1074 < exponent then 1 else 2
  let scale := Nat.pow 2 exponent.toNat
  { low := (4 * significand - below) * scale
    value := 4 * significand * scale
    high := (4 * significand + 2) * scale
    denominator := 4 * Nat.pow 2 (-exponent).toNat
    ends := significand % 2 = 0 }

/-- Whether a point, counted in units of the common denominator, lies in the interval. -/
def Rounding.holds (r : Rounding) (position : Nat) : Bool :=
  if r.ends then r.low ≤ position && position ≤ r.high
  else r.low < position && position < r.high

/-- Of the multiples of `unit` next to the value those that identify it, the nearer one first. -/
def Rounding.onGrid? (r : Rounding) (unit : Nat) (tie : Tie) : Option Nat :=
  let below := r.value / unit
  let rest := r.value % unit
  let above := below + 1
  let nearAbove := decide (unit < 2 * rest) ||
    (decide (unit = 2 * rest) && match tie with
      | .upward => true
      | .toEven => below % 2 = 1)
  match r.holds (below * unit), r.holds (above * unit) with
  | true, true => some (if nearAbove then above else below)
  | true, false => some below
  | false, true => some above
  | false, false => none

/-- Multiplies the interval so that one unit of the grid `10 ^ power` becomes a whole number. -/
def Rounding.scaled (r : Rounding) (power : Int) : Rounding × Nat :=
  let up := Nat.pow 10 (-power).toNat
  ({ r with low := r.low * up, value := r.value * up, high := r.high * up },
    r.denominator * Nat.pow 10 power.toNat)

/-- Drops the zeros at the end of the digits, moving them to the exponent. -/
def stripZeros : Nat → Scientific → Scientific
  | 0, s => s
  | fuel + 1, s =>
    if s.digits ≠ 0 ∧ s.digits % 10 = 0 then stripZeros fuel ⟨s.digits / 10, s.exponent + 1⟩
    else s

/-- The number of decimal digits of a natural number. -/
def digitCount (n : Nat) : Nat := (Nat.toDigits 10 n).length

/-- The exponent of the leading digit of `value / denominator`, for a value above zero. -/
def leadingExponent (value denominator : Nat) : Int :=
  if denominator ≤ value then (digitCount (value / denominator) : Int) - 1
  else
    let places := digitCount (denominator / value)
    if denominator ≤ value * Nat.pow 10 (places - 1) then -((places : Int) - 1)
    else -(places : Int)

/-- Tries grids of one digit and more. Seventeen digits always identify a number, so the last
line, which gives no digits, is not met. -/
def Rounding.shortest (r : Rounding) (leading : Int) (tie : Tie) : List Nat → Scientific
  | [] => ⟨0, 0⟩
  | count :: more =>
    let power := leading - (count - 1 : Nat)
    let (fine, unit) := r.scaled power
    match fine.onGrid? unit tie with
    | some digits => stripZeros 20 ⟨digits, power⟩
    | none => r.shortest leading tie more

/-- The shortest decimal that identifies `significand * 2 ^ exponent`, and the nearest of those. -/
def shortest (significand : Nat) (exponent : Int) (tie : Tie) : Scientific :=
  let r := Rounding.ofParts significand exponent
  r.shortest (leadingExponent r.value r.denominator) tie (List.range' 1 17)

end EventQuery.Decimal
