import Mathlib
import EventQuery.Proofs.Decimal.Digits

set_option autoImplicit false

namespace EventQuery.Decimal

theorem lt_pow_digitCount (n : Nat) : n < 10 ^ digitCount n :=
  (Nat.length_toDigits_le_iff (by decide) Nat.length_toDigits_pos).mp (Nat.le_refl _)

theorem pow_le_of_digitCount {n places : Nat} (many : digitCount n = places + 2) :
    10 ^ (places + 1) ≤ n := by
  have fewer : ¬ (Nat.toDigits 10 n).length ≤ places + 1 := by
    rw [← digitCount, many]
    omega
  rw [Nat.length_toDigits_le_iff (by decide) (by omega)] at fewer
  exact Nat.not_lt.mp fewer

/-- The quotient is less than a power of ten. -/
def QuotientBelow (value denominator : Nat) (power : Int) : Prop :=
  value * 10 ^ (-power).toNat < denominator * 10 ^ power.toNat

theorem quotientBelow_leadingExponent {value denominator : Nat} (some : 0 < value)
    (pos : 0 < denominator) :
    QuotientBelow value denominator (leadingExponent value denominator + 1) := by
  unfold QuotientBelow leadingExponent
  split
  · have least := (Nat.div_lt_iff_lt_mul pos).mp (lt_pow_digitCount (value / denominator))
    generalize digitCount (value / denominator) = places at *
    have up : ((places : Int) - 1 + 1).toNat = places := by omega
    have down : (-((places : Int) - 1 + 1)).toNat = 0 := by omega
    rw [up, down, Nat.pow_zero, Nat.mul_one, Nat.mul_comm denominator]
    exact least
  · rename_i small
    dsimp only
    split
    · rename_i reached
      obtain ⟨places, many⟩ : ∃ places, digitCount (denominator / value) = places + 2 := by
        have atLeast : 0 < digitCount (denominator / value) := Nat.length_toDigits_pos
        refine ⟨digitCount (denominator / value) - 2, ?_⟩
        by_cases one : digitCount (denominator / value) = 1
        · rw [one] at reached
          exact absurd (Nat.mul_one value ▸ reached) small
        · omega
      have most := (Nat.le_div_iff_mul_le some).mp (pow_le_of_digitCount many)
      rw [many]
      have up : (-(((places + 2 : Nat) : Int) - 1) + 1).toNat = 0 := by omega
      have down : (-(-(((places + 2 : Nat) : Int) - 1) + 1)).toNat = places := by omega
      rw [up, down, Nat.pow_zero, Nat.mul_one]
      calc value * 10 ^ places
          < value * 10 ^ (places + 1) :=
            (Nat.mul_lt_mul_left some).mpr (Nat.pow_lt_pow_right (by decide) (Nat.lt_succ_self _))
        _ = 10 ^ (places + 1) * value := Nat.mul_comm _ _
        _ ≤ denominator := most
    · rename_i missed
      have atLeast : 0 < digitCount (denominator / value) := Nat.length_toDigits_pos
      generalize digitCount (denominator / value) = places at *
      have up : (-(places : Int) + 1).toNat = 0 := by omega
      have down : (-(-(places : Int) + 1)).toNat = places - 1 := by omega
      rw [up, down, Nat.pow_zero, Nat.mul_one]
      exact Nat.not_le.mp missed

theorem QuotientBelow.scaled {value denominator count : Nat} {power : Int}
    (below : QuotientBelow value denominator (power + count)) :
    value * 10 ^ (-power).toNat < 10 ^ count * (denominator * 10 ^ power.toNat) := by
  unfold QuotientBelow at below
  generalize up : (power + count).toNat = above at below
  generalize down : (-(power + count)).toNat = under at below
  have places : above + (-power).toNat = count + power.toNat + under := by omega
  refine Nat.lt_of_mul_lt_mul_right (a := 10 ^ under) ?_
  calc value * 10 ^ (-power).toNat * 10 ^ under
      = value * 10 ^ under * 10 ^ (-power).toNat := Nat.mul_right_comm _ _ _
    _ < denominator * 10 ^ above * 10 ^ (-power).toNat :=
      (Nat.mul_lt_mul_right (Nat.pow_pos (by decide))).mpr below
    _ = denominator * 10 ^ (above + (-power).toNat) := by rw [Nat.mul_assoc, ← Nat.pow_add]
    _ = 10 ^ count * (denominator * 10 ^ power.toNat) * 10 ^ under := by
      rw [places, Nat.pow_add, Nat.pow_add]
      grind

/-- The decimal has seventeen digits, or is the power above them, and is at most
`high / denominator`. -/
structure Scientific.Within (s : Scientific) (high denominator : Nat) : Prop where
  digits : s.digits ≤ 10 ^ 17
  below : s.digits * (denominator * 10 ^ s.exponent.toNat) ≤ high * 10 ^ (-s.exponent).toNat

theorem stripZeros_within {high denominator : Nat} :
    ∀ (fuel : Nat) {s : Scientific}, s.Within high denominator →
      (stripZeros fuel s).Within high denominator := by
  intro fuel
  induction fuel with
  | zero => exact fun within => within
  | succ fuel ih =>
    intro s within
    unfold stripZeros
    split
    · rename_i strippable
      have shorter : s.digits / 10 * 10 = s.digits := by omega
      generalize s.digits / 10 = digits at *
      have small := within.digits
      have below := within.below
      rw [← shorter] at small below
      refine ih ⟨show digits ≤ 10 ^ 17 by omega, ?_⟩
      show digits * (denominator * 10 ^ (s.exponent + 1).toNat) ≤
        high * 10 ^ (-(s.exponent + 1)).toNat
      by_cases up : 0 ≤ s.exponent
      · have more : (s.exponent + 1).toNat = s.exponent.toNat + 1 := by omega
        have none : (-(s.exponent + 1)).toNat = (-s.exponent).toNat := by omega
        rw [more, none, Nat.pow_succ]
        calc digits * (denominator * (10 ^ s.exponent.toNat * 10))
            = digits * 10 * (denominator * 10 ^ s.exponent.toNat) := by grind
          _ ≤ _ := below
      · have none : (s.exponent + 1).toNat = s.exponent.toNat := by omega
        have less : (-s.exponent).toNat = (-(s.exponent + 1)).toNat + 1 := by omega
        rw [less, Nat.pow_succ, ← Nat.mul_assoc high, Nat.mul_right_comm digits 10] at below
        rw [none]
        exact Nat.le_of_mul_le_mul_right below (by decide)
    · exact within

namespace Rounding

variable {r : Rounding} {tie : Tie}

theorem le_high_of_holds {position : Nat} (held : r.holds position = true) : position ≤ r.high := by
  unfold holds at held
  split at held
  all_goals
    simp only [Bool.and_eq_true, decide_eq_true_eq] at held
    omega

theorem shortest_within {leading : Int} (below : QuotientBelow r.value r.denominator (leading + 1))
    {counts : List Nat} (few : ∀ count ∈ counts, 1 ≤ count ∧ count ≤ 17) :
    (r.shortest leading tie counts).Within r.high r.denominator := by
  induction counts with
  | nil =>
    refine ⟨Nat.zero_le _, ?_⟩
    show 0 * _ ≤ _
    rw [Nat.zero_mul]
    exact Nat.zero_le _
  | cons count more ih =>
    obtain ⟨least, most⟩ := few count List.mem_cons_self
    unfold shortest
    dsimp only
    split
    · rename_i digits found
      generalize grid : leading - ((count - 1 : Nat) : Int) = power at found
      have above : leading + 1 = power + count := by omega
      rw [above] at below
      obtain ⟨held, next⟩ := onGrid?_spec found
      have quotient : r.value * 10 ^ (-power).toNat / (r.denominator * 10 ^ power.toNat) <
          10 ^ count :=
        Nat.div_lt_of_lt_mul (Nat.mul_comm _ (10 ^ count) ▸ below.scaled)
      refine stripZeros_within 20 ⟨?_, le_high_of_holds held⟩
      calc digits
          ≤ r.value * 10 ^ (-power).toNat / (r.denominator * 10 ^ power.toNat) + 1 := next
        _ ≤ 10 ^ count := quotient
        _ ≤ 10 ^ 17 := Nat.pow_le_pow_right (by decide) most
    · exact ih fun c member => few c (List.mem_cons_of_mem _ member)

end Rounding

theorem shortest_within {significand : Nat} (some : 0 < significand) (exponent : Int) (tie : Tie) :
    (shortest significand exponent tie).Within ((4 * significand + 2) * 2 ^ exponent.toNat)
      (4 * 2 ^ (-exponent).toNat) := by
  have value : 0 < 4 * significand * 2 ^ exponent.toNat :=
    Nat.mul_pos (by omega) (Nat.pow_pos (by decide))
  have denominator : 0 < 4 * 2 ^ (-exponent).toNat :=
    Nat.mul_pos (by decide) (Nat.pow_pos (by decide))
  exact Rounding.shortest_within (quotientBelow_leadingExponent value denominator)
    fun count member => by rw [List.mem_range'_1] at member; omega

end EventQuery.Decimal
