import Mathlib.Algebra.Order.Field.Rat
import Mathlib.Tactic.FieldSimp
import Mathlib.Tactic.Linarith
import EventQuery.Decimal.Quotient
import EventQuery.Proofs.Decimal.Writing
import EventQuery.Proofs.Lexeme.NumberText

set_option autoImplicit false

namespace EventQuery.Decimal

open Format (digits_replicate_append)
open Lexeme (Digits read?_of_parts)

/-- The number that a numeral writes. -/
def Numeral.value (n : Numeral) : ℚ :=
  natOfDigits (n.whole ++ n.fraction) * 10 ^ (n.exponent - n.fraction.length)

theorem read?_toDigits (n : Nat) :
    ∃ numeral, Numeral.read? (Nat.toDigits 10 n) = some numeral ∧ numeral.value = n := by
  have read := read?_of_parts (digits_toDigits n) .absent .absent
  rw [List.append_nil, List.append_nil] at read
  refine ⟨_, read, ?_⟩
  simp [Numeral.value, natOfDigits_toDigits]

/-- The digits behind the point, zeros in front included. -/
def fractionDigits (places units : Nat) : List Char :=
  let digits := Nat.toDigits 10 (units % 10 ^ places)
  List.replicate (places - digits.length) '0' ++ digits

theorem fixedPlaces_eq (places units : Nat) : fixedPlaces places units =
    Nat.toDigits 10 (units / 10 ^ places) ++ ('.' :: fractionDigits places units ++ []) := by
  rw [List.append_nil, fixedPlaces, Nat.pow_eq, List.append_assoc]
  rfl

theorem digits_fractionDigits (places units : Nat) : Digits (fractionDigits places units) :=
  digits_replicate_append _ (digits_toDigits _)

theorem length_fractionDigits {places : Nat} (units : Nat) (pos : 0 < places) :
    (fractionDigits places units).length = places := by
  have small : units % 10 ^ places < 10 ^ places := Nat.mod_lt _ (Nat.pow_pos (by decide))
  have fits := (Nat.length_toDigits_le_iff (by decide) pos).mpr small
  rw [fractionDigits, List.length_append, List.length_replicate]
  exact Nat.sub_add_cancel fits

theorem natOfDigits_fixedPlaces {places : Nat} (units : Nat) (pos : 0 < places) :
    natOfDigits (Nat.toDigits 10 (units / 10 ^ places) ++ fractionDigits places units) = units := by
  have behind : Nat.ofDigitChars 10 (fractionDigits places units) 0 = units % 10 ^ places := by
    show natOfDigits (fractionDigits places units) = _
    rw [fractionDigits, natOfDigits_zeros_append, natOfDigits_toDigits]
  rw [natOfDigits_append, Nat.ofDigitChars_eq_ofDigitChars_zero, behind, natOfDigits_toDigits,
    length_fractionDigits units pos, Nat.div_add_mod]

/-- A number with decimal places is read as so many units of its last place. -/
theorem read?_fixedPlaces {places : Nat} (units : Nat) (pos : 0 < places) :
    ∃ numeral, Numeral.read? (fixedPlaces places units) = some numeral ∧
      numeral.value = units / 10 ^ places := by
  have read := read?_of_parts (digits_toDigits (units / 10 ^ places))
    (.point (digits_fractionDigits places units)) .absent
  rw [← fixedPlaces_eq] at read
  refine ⟨_, read, ?_⟩
  rw [Numeral.value, List.tail_cons, natOfDigits_fixedPlaces units pos,
    length_fractionDigits units pos, zero_sub, zpow_neg, zpow_natCast, div_eq_mul_inv]

theorem abs_roundDiv_sub_le (tie : Tie) (n : Nat) {d : Nat} (pos : 0 < d) :
    |(roundDiv tie n d : ℚ) - n / d| ≤ 1 / 2 := by
  obtain ⟨above, below⟩ := roundDiv_near tie (n := n) pos
  generalize roundDiv tie n d = r at above below
  have size : (0 : ℚ) < d := Nat.cast_pos.mpr pos
  have above' : (2 * (r * d) : ℚ) ≤ 2 * n + d := by exact_mod_cast above
  have below' : (2 * n : ℚ) ≤ 2 * (r * d) + d := by exact_mod_cast below
  rw [sub_div' size.ne', abs_div, abs_of_pos size, div_le_iff₀ size, abs_le]
  constructor <;> linarith

/-- Numbers of so many binary digits are not rounded. -/
theorem roundBinary_of_lt {bits n : Nat} (pos : 0 < bits) (small : n < 2 ^ bits) :
    roundBinary bits n = n := by
  have short : n.log2 + 1 - bits = 0 := by
    by_cases zero : n = 0
    · rw [zero, Nat.log2_zero]
      omega
    · have log := (Nat.log2_lt zero).mpr small
      omega
  rw [roundBinary, short]
  show roundDiv .toEven n 1 * 1 = n
  have near := roundDiv_near .toEven (n := n) (d := 1) (by decide)
  omega

end EventQuery.Decimal
