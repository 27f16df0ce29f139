import Mathlib
import EventQuery.Proofs.Binary64.Magnitude

/- Scaling by powers of ten does not overflow for decimals of seventeen digits that stay half a
unit of the last place below the greatest number. The errors of the digits, of the power and of
the product add up to less than the room that this leaves. -/

set_option autoImplicit false

namespace EventQuery.Json

open Binary64 (atMost_floatOfNat atMost_powerOfTen atMost_of_powerWithin overflow overflow_between
  powerWithin slack slack_le)

/-- Half a unit of the last place below the greatest number. -/
@[irreducible] def greatestScaled : Nat := (2 ^ 54 - 3) * 2 ^ 970

theorem greatestScaled_le_overflow : greatestScaled ≤ overflow := by
  unfold greatestScaled overflow
  exact Nat.mul_le_mul_right _ (by decide)

theorem greatestScaled_lt {e : Nat} (many : 309 ≤ e) : greatestScaled < 10 ^ e :=
  calc greatestScaled
      ≤ overflow := greatestScaled_le_overflow
    _ < 10 ^ 309 := overflow_between.2
    _ ≤ 10 ^ e := pow_le_pow_right₀ (by decide) many

/-- Half a unit above any number but the greatest one is half a unit below that, or less. -/
theorem le_greatestScaled {n significand place : Nat} (short : significand < 2 ^ 53)
    (low : place ≤ 971) (lesser : place = 971 → significand + 1 < 2 ^ 53)
    (worth : n * 4 ≤ (4 * significand + 2) * 2 ^ place) : n ≤ greatestScaled := by
  -- The power is a variable, since it is too great to be computed with here.
  have general : ∀ k, place ≤ k + 1 → (place = k + 1 → significand + 1 < 2 ^ 53) →
      n ≤ (2 ^ 54 - 3) * 2 ^ k := by
    intro k fits last
    refine Nat.le_of_mul_le_mul_right (Nat.le_trans worth ?_) (by decide : 0 < 4)
    by_cases top : place = k + 1
    · have less := last top
      calc (4 * significand + 2) * 2 ^ place
          = (2 * significand + 1) * 2 ^ k * 4 := by rw [top, Nat.pow_succ]; grind
        _ ≤ (2 ^ 54 - 3) * 2 ^ k * 4 :=
          Nat.mul_le_mul_right 4 (Nat.mul_le_mul_right _ (by omega))
    · calc (4 * significand + 2) * 2 ^ place
          ≤ (2 ^ 54 - 3) * 4 * 2 ^ k :=
            Nat.mul_le_mul (by omega) (Nat.pow_le_pow_right (by decide) (by omega))
        _ = (2 ^ 54 - 3) * 2 ^ k * 4 := Nat.mul_right_comm _ _ _
  unfold greatestScaled
  exact general 970 low lesser

/-- With half a unit for the digits and half a unit for the power, all powers but one leave enough
room. -/
theorem room_below : ∀ e ≤ 308, e ≠ 292 →
    min (10 ^ 17) (greatestScaled / 10 ^ e) * (2 ^ 53 + 1) * (10 ^ e * (2 ^ 53 + 1)) <
      4 * (overflow * 2 ^ 104) := by
  decide +kernel

/-- The number that is read for the remaining power. -/
def tightPower : Nat := 0x1008896bcf54fa * 2 ^ 918

/-- For that power the digits have 54 bits at most, and the power itself is counted exactly. -/
theorem room_tight : greatestScaled / 10 ^ 292 < 2 ^ 54 ∧
    powerWithin 292 (tightPower * 2 ^ 53) = true ∧
      (greatestScaled / 10 ^ 292 * 2 ^ 53 + 2 ^ 53) * (tightPower * 2 ^ 53) <
        4 * (overflow * 2 ^ 104) := by
  decide +kernel

theorem slack_le_of_lt {s : Nat} (short : s < 2 ^ 54) : slack s ≤ 2 ^ 53 := by
  unfold slack
  split
  · exact Nat.zero_le _
  · rename_i long
    have bits : s.log2 < 54 := (Nat.log2_lt (by omega)).mpr short
    exact Nat.pow_le_pow_right (by decide) (by omega)

section Digits

variable {s e : Nat}

theorem isFinite_scaled (some : s ≠ 0) (short : s ≤ 10 ^ 17) (few : e ≤ 308)
    (below : s * 10 ^ e ≤ greatestScaled) : (floatOfNat s * powerOfTen e).isFinite = true := by
  have digits := atMost_floatOfNat some (Nat.lt_of_le_of_lt short (by decide))
  have quotient : s ≤ greatestScaled / 10 ^ e :=
    (Nat.le_div_iff_mul_le (Nat.pow_pos (by decide))).mpr below
  by_cases tight : e = 292
  · subst tight
    obtain ⟨few, within, room⟩ := room_tight
    refine digits.isFinite_mul (atMost_of_powerWithin within)
      (Nat.lt_of_le_of_lt (Nat.mul_le_mul_right _ ?_) room)
    exact Nat.add_le_add (Nat.mul_le_mul_right _ quotient)
      (slack_le_of_lt (Nat.lt_of_le_of_lt quotient few))
  · refine digits.isFinite_mul (atMost_powerOfTen few)
      (Nat.lt_of_le_of_lt (Nat.mul_le_mul ?_ ?_) (room_below e few tight))
    · calc s * 2 ^ 53 + slack s
          ≤ s * 2 ^ 53 + s := Nat.add_le_add_left (slack_le s) _
        _ = s * (2 ^ 53 + 1) := (Nat.mul_succ s _).symm
        _ ≤ _ := Nat.mul_le_mul_right _ (Nat.le_min.mpr ⟨short, quotient⟩)
    · exact Nat.le_of_eq (Nat.mul_succ (10 ^ e) _).symm

/-- Powers that cannot be read do not occur. -/
theorem few_of_below (some : s ≠ 0) (below : s * 10 ^ e ≤ greatestScaled) : e ≤ 308 := by
  by_cases many : 309 ≤ e
  · have beyond : greatestScaled < s * 10 ^ e :=
      Nat.lt_of_lt_of_le (greatestScaled_lt many)
        (Nat.le_mul_of_pos_left _ (Nat.pos_of_ne_zero some))
    exact absurd below (Nat.not_le.mpr beyond)
  · omega

end Digits

theorem floatOfNat_zero : (floatOfNat 0 == 0) = true := by decide

theorem Scaled.toFloat?_isSome {s : Scaled} (short : s.significand ≤ 10 ^ 17)
    (below : 0 ≤ s.exponent → s.significand * 10 ^ s.exponent.toNat ≤ greatestScaled) :
    s.toFloat?.isSome = true := by
  unfold toFloat?
  dsimp only
  by_cases down : s.exponent < 0
  · rw [if_pos down]
    rfl
  rw [if_neg down]
  split
  · rfl
  · rename_i present
    have some : s.significand ≠ 0 := by
      intro zero
      rw [zero] at present
      exact present floatOfNat_zero
    have least := below (by omega)
    have few := few_of_below some least
    have same : s.exponent.natAbs = s.exponent.toNat := by omega
    rw [if_neg (by omega), same, if_pos (isFinite_scaled some short few least)]
    rfl

end EventQuery.Json
