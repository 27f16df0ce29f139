import Mathlib.Algebra.Group.Nat.Defs
import EventQuery.Decimal.Shortest
import EventQuery.Proofs.Lexeme.Pattern

set_option autoImplicit false

namespace EventQuery.Decimal

open Lexeme (Digits)

theorem digits_toDigits (n : Nat) : Digits (Nat.toDigits 10 n) where
  present := Nat.toDigits_ne_nil
  only c member := by
    have digit := Nat.isDigit_of_mem_toDigits (by decide) (by decide) member
    simpa [Char.isDigit, Char.le_def] using digit

theorem natOfDigits_toDigits (n : Nat) : natOfDigits (Nat.toDigits 10 n) = n := by
  have worth := Nat.ofDigitChars_ten_toDigits (n := n)
  rwa [Nat.ofDigitChars_eq_foldl] at worth

theorem natOfDigits_append (front back : List Char) :
    natOfDigits (front ++ back) = Nat.ofDigitChars 10 back (natOfDigits front) :=
  Nat.ofDigitChars_append 0

theorem natOfDigits_zeros_append (zeros : Nat) (digits : List Char) :
    natOfDigits (List.replicate zeros '0' ++ digits) = natOfDigits digits := by
  have none : natOfDigits (List.replicate zeros '0') = 0 := Nat.ofDigitChars_replicate_zero
  rw [natOfDigits_append, none]
  rfl

theorem natOfDigits_lt {digits : List Char} (only : ∀ c ∈ digits, isDigit c = true) :
    natOfDigits digits < 10 ^ digits.length := by
  induction digits with
  | nil => decide
  | cons d rest ih =>
    have below : Nat.ofDigitChars 10 rest 0 < 10 ^ rest.length :=
      ih fun c member => only c (List.mem_cons_of_mem _ member)
    have digit : d.toNat - '0'.toNat ≤ 9 := by
      have most : d.toNat ≤ '9'.toNat := ((Lexeme.isDigit_iff d).mp (only d List.mem_cons_self)).2
      have nine : '9'.toNat = '0'.toNat + 9 := rfl
      omega
    have worth : natOfDigits (d :: rest) =
        10 ^ rest.length * (d.toNat - '0'.toNat) + Nat.ofDigitChars 10 rest 0 := by
      rw [← Nat.ofDigitChars_eq_ofDigitChars_zero]
      show Nat.ofDigitChars 10 (d :: rest) 0 = _
      rw [Nat.ofDigitChars_cons, Nat.mul_zero, Nat.zero_add]
    calc natOfDigits (d :: rest)
        = 10 ^ rest.length * (d.toNat - '0'.toNat) + Nat.ofDigitChars 10 rest 0 := worth
      _ < 10 ^ rest.length * 9 + 10 ^ rest.length :=
        Nat.add_lt_add_of_le_of_lt (Nat.mul_le_mul_left _ digit) below
      _ = 10 ^ (d :: rest).length := by rw [List.length_cons, Nat.pow_succ]; omega

/-- Only zero is written with a zero in front. -/
theorem head_toDigits {n : Nat} (pos : 0 < n) : ∀ c ∈ (Nat.toDigits 10 n).head?, c ≠ '0' := by
  induction n using Nat.strongRecOn with
  | ind n ih =>
    by_cases small : n < 10
    · rw [Nat.toDigits_of_lt_base small]
      intro c first
      cases first
      simpa using Nat.ne_of_gt pos
    · have more : 0 < n / 10 := Nat.div_pos (by omega) (by decide)
      have first := ih (n / 10) (Nat.div_lt_self pos (by decide)) more
      obtain ⟨d, others, same⟩ :=
        List.exists_cons_of_ne_nil (Nat.toDigits_ne_nil (n := n / 10) (b := 10))
      rw [Nat.toDigits_of_base_le (by decide) (by omega), same]
      rwa [same] at first

theorem stripZeros_pos {s : Scientific} (pos : 0 < s.digits) :
    ∀ fuel, 0 < (stripZeros fuel s).digits := by
  intro fuel
  induction fuel generalizing s with
  | zero => exact pos
  | succ fuel ih =>
    unfold stripZeros
    split
    · rename_i strippable
      have shorter : 0 < s.digits / 10 := by omega
      exact ih shorter
    · exact pos

/-- The multiple that is found identifies the number, and is the one below it or the next. -/
theorem Rounding.onGrid?_spec {r : Rounding} {unit digits : Nat} {tie : Tie}
    (found : r.onGrid? unit tie = some digits) :
    r.holds (digits * unit) = true ∧ digits ≤ r.value / unit + 1 := by
  unfold onGrid? at found
  dsimp only at found
  split at found
  · rename_i below above
    have either : ∀ up : Bool,
        r.holds ((if up then r.value / unit + 1 else r.value / unit) * unit) = true ∧
          (if up then r.value / unit + 1 else r.value / unit) ≤ r.value / unit + 1 := by
      intro up
      cases up with
      | true => exact ⟨above, Nat.le_refl _⟩
      | false => exact ⟨below, Nat.le_succ _⟩
    cases found
    exact either _
  · rename_i below _
    cases found
    exact ⟨below, Nat.le_succ _⟩
  · rename_i _ above
    cases found
    exact ⟨above, Nat.le_refl _⟩
  · cases found

theorem Rounding.onGrid?_pos {r : Rounding} (pos : 0 < r.low) {unit digits : Nat} {tie : Tie}
    (found : r.onGrid? unit tie = some digits) : 0 < digits := by
  have held := (onGrid?_spec found).1
  rw [Nat.pos_iff_ne_zero]
  rintro rfl
  rw [Nat.zero_mul] at held
  unfold holds at held
  split at held
  all_goals
    simp only [Bool.and_eq_true, decide_eq_true_eq] at held
    omega

/-- Zero only stands where no grid was fine enough. -/
theorem Rounding.shortest_digits {r : Rounding} (pos : 0 < r.low) (leading : Int) (tie : Tie)
    (counts : List Nat) :
    r.shortest leading tie counts = ⟨0, 0⟩ ∨ 0 < (r.shortest leading tie counts).digits := by
  induction counts with
  | nil => exact .inl rfl
  | cons count more ih =>
    unfold Rounding.shortest
    dsimp only
    split
    · rename_i digits found
      have low : 0 < (r.scaled (leading - (count - 1 : Nat))).1.low :=
        Nat.mul_pos pos (Nat.pow_pos (by decide))
      exact .inr (stripZeros_pos (s := ⟨digits, _⟩) (onGrid?_pos low found) 20)
    · exact ih

theorem Rounding.ofParts_low_pos {significand : Nat} (pos : 0 < significand) (exponent : Int) :
    0 < (Rounding.ofParts significand exponent).low := by
  have scale : 0 < Nat.pow 2 exponent.toNat := Nat.pow_pos (by decide)
  refine Nat.mul_pos ?_ scale
  split <;> omega

theorem shortest_digits {significand : Nat} (pos : 0 < significand) (exponent : Int) (tie : Tie) :
    shortest significand exponent tie = ⟨0, 0⟩ ∨ 0 < (shortest significand exponent tie).digits :=
  Rounding.shortest_digits (Rounding.ofParts_low_pos pos exponent) _ tie _

end EventQuery.Decimal
