import Mathlib

/- Rounding to binary64, from above. A significand that is cut to 53 bits grows by half a unit of
its last place at most, and what it becomes is packed and unpacked unchanged. -/

set_option autoImplicit false

namespace EventQuery.Binary64

open Float.Model (Format totalExponent)
open Float.Model.UnpackedFloat

/-- A significand of which nothing has been cut yet. -/
def uncut (m : Nat) : ExtendedMantissa := .ofMantissaAndAccuracy m .exact

theorem mantissa_shiftRight (em : ExtendedMantissa) (k : Nat) :
    (em >>> k).mantissa = em.mantissa / 2 ^ k := by
  induction k with
  | zero => exact (Nat.div_one _).symm
  | succ k ih =>
    show (em >>> k).mantissa / 2 = em.mantissa / 2 ^ (k + 1)
    rw [ih, Nat.div_div_eq_div_mul, Nat.pow_succ]

/-- Only the first bit that is cut off can make a significand grow. -/
theorem roundedMantissa_bounds (em : ExtendedMantissa) :
    em.mantissa ≤ em.roundedMantissa ∧ em.roundedMantissa ≤ em.mantissa + em.roundBit.toNat := by
  obtain ⟨m, round, sticky⟩ := em
  cases round <;> cases sticky <;>
    simp only [ExtendedMantissa.roundedMantissa, ExtendedMantissa.accuracy,
      Accuracy.roundToNearestEven, Bool.toNat_true, Bool.toNat_false] <;>
    omega

/-- The significand grows by half a unit of the last place that is kept. -/
theorem roundedMantissa_le (m k : Nat) :
    2 * (uncut m >>> k).roundedMantissa * 2 ^ k ≤ 2 * m + 2 ^ k := by
  cases k with
  | zero =>
    show 2 * m * 2 ^ 0 ≤ 2 * m + 2 ^ 0
    omega
  | succ k =>
    have grown := (roundedMantissa_bounds (uncut m >>> (k + 1))).2
    have kept : (uncut m >>> (k + 1)).mantissa = m / 2 ^ k / 2 := by
      rw [mantissa_shiftRight, Nat.pow_succ, ← Nat.div_div_eq_div_mul]
      rfl
    have bit : (uncut m >>> (k + 1)).roundBit.toNat ≤ m / 2 ^ k % 2 := by
      show ((uncut m >>> k).mantissa % 2 != 0).toNat ≤ m / 2 ^ k % 2
      rw [mantissa_shiftRight]
      show (m / 2 ^ k % 2 != 0).toNat ≤ m / 2 ^ k % 2
      rcases Nat.mod_two_eq_zero_or_one (m / 2 ^ k) with zero | one
      · rw [zero]
        exact Nat.le_refl _
      · rw [one]
        exact Nat.le_refl _
    have whole : m / 2 ^ k * 2 ^ k ≤ m := Nat.div_mul_le_self m (2 ^ k)
    generalize (uncut m >>> (k + 1)).roundedMantissa = rounded at *
    generalize m / 2 ^ k = half at *
    have twice : 2 * rounded ≤ half + 1 := by omega
    calc 2 * rounded * 2 ^ (k + 1)
        ≤ (half + 1) * 2 ^ (k + 1) := Nat.mul_le_mul_right _ twice
      _ = 2 * (half * 2 ^ k) + 2 ^ (k + 1) := by rw [Nat.pow_succ]; grind
      _ ≤ 2 * m + 2 ^ (k + 1) := by omega

/-- The exponent at which a number has the 53 bits of a normal number, if that is not too low. -/
theorem targetExponent_eq {m : Nat} {e : Int} :
    Format.binary64.targetExponent (totalExponent m e) = max ((m.log2 : Int) - 52 + e) (-1074) := by
  have width : Format.binary64.mantissaBits = 53 := rfl
  have least : Format.binary64.minExponent = -1074 := rfl
  unfold Format.targetExponent totalExponent
  rw [width, least]
  congr 1
  omega

theorem shiftToTargetExponent_eq {m k : Nat} {e : Int}
    (shift : max ((m.log2 : Int) - 52 + e) (-1074) - e = k) :
    shiftToTargetExponent .binary64 m e .exact = (uncut m >>> k, e + k) := by
  unfold shiftToTargetExponent shiftToExponent
  rw [targetExponent_eq]
  dsimp only
  rw [shift, Int.toNat_natCast]
  rfl

section Rounding

variable {m k : Nat} {e : Int}

/-- The bits that are kept are 53 bits. -/
theorem kept_bits (some : m ≠ 0) (bits : m.log2 = 52 + k) :
    2 ^ 52 ≤ m / 2 ^ k ∧ m / 2 ^ k < 2 ^ 53 := by
  have least : 2 ^ 52 * 2 ^ k ≤ m := by
    rw [← Nat.pow_add, ← bits]
    exact Nat.log2_self_le some
  have most : m < 2 ^ 53 * 2 ^ k := by
    have bound := Nat.lt_log2_self (n := m)
    rwa [bits, Nat.add_right_comm, Nat.pow_add] at bound
  exact ⟨(Nat.le_div_iff_mul_le (Nat.two_pow_pos k)).mpr least,
    (Nat.div_lt_iff_lt_mul (Nat.two_pow_pos k)).mpr most⟩

/-- A number of more than 53 bits is cut to 53 bits and grows by half a unit of the last place of
these at most. A carry moves the place. -/
theorem exists_rounded (sign : Sign) (some : m ≠ 0) (bits : m.log2 = 52 + k)
    (normal : -1074 ≤ e + k) :
    ∃ (r carry : Nat) (pos : 0 < r),
      roundWithAccuracy .binary64 sign m e .exact = .finite sign r (e + k + carry) pos ∧
        2 ^ 52 ≤ r ∧ r < 2 ^ 53 ∧ carry ≤ 1 ∧ 2 * r * 2 ^ (k + carry) ≤ 2 * m + 2 ^ k := by
  have first : shiftToTargetExponent .binary64 m e .exact = (uncut m >>> k, e + k) :=
    shiftToTargetExponent_eq (by omega)
  have kept := kept_bits some bits
  have bounds := roundedMantissa_bounds (uncut m >>> k)
  have bit : (uncut m >>> k).roundBit.toNat ≤ 1 := Bool.toNat_le _
  have grown := roundedMantissa_le m k
  rw [mantissa_shiftRight] at bounds
  change m / 2 ^ k ≤ _ ∧ _ ≤ m / 2 ^ k + _ at bounds
  unfold roundWithAccuracy
  rw [first]
  dsimp only
  generalize (uncut m >>> k).roundedMantissa = rounded at *
  by_cases carried : rounded < 2 ^ 53
  · have log : rounded.log2 = 52 := (Nat.log2_eq_iff (by omega)).mpr ⟨by omega, carried⟩
    have second : shiftToTargetExponent .binary64 rounded (e + k) .exact =
        (uncut rounded >>> 0, e + k + (0 : Nat)) := shiftToTargetExponent_eq (by omega)
    rw [second]
    refine ⟨rounded, 0, by omega, ?_, by omega, carried, by decide, grown⟩
    exact dif_neg (show ¬ rounded = 0 by omega)
  · obtain rfl : rounded = 2 ^ 53 := by omega
    have second : shiftToTargetExponent .binary64 (2 ^ 53) (e + k) .exact =
        (uncut (2 ^ 53) >>> 1, e + k + (1 : Nat)) :=
      shiftToTargetExponent_eq (by rw [Nat.log2_two_pow]; omega)
    rw [second]
    refine ⟨2 ^ 52, 1, by decide, rfl, by decide, by decide, by decide, ?_⟩
    rw [Nat.pow_succ]
    omega

end Rounding

theorem unpackSign_packComponents (spec : Format) (sign : Sign)
    (exponent : BitVec spec.exponentBits) (significand : BitVec spec.mantissaBitsWithoutImplicit) :
    unpackSign (packComponents spec sign exponent significand) = sign.toBitVec := by
  apply BitVec.eq_of_getLsbD_eq
  intro i small
  obtain rfl : i = 0 := by omega
  simp [unpackSign, packComponents, BitVec.getLsbD_append, BitVec.getElem_append]

/-- The first bit of a normal number is not stored. -/
theorem toNat_append_stored {r : Nat} (low : 2 ^ 52 ≤ r) (high : r < 2 ^ 53) :
    (1#1 ++ BitVec.ofNat 52 r).toNat = r := by
  rw [BitVec.toNat_append, ← Nat.shiftLeft_add_eq_or_of_lt (BitVec.isLt _), BitVec.toNat_ofNat]
  show 1 <<< 52 + r % 2 ^ 52 = r
  omega

/-- Normal numbers are kept whole. -/
theorem unpack_pack (sign : Sign) {r : Nat} {e : Int} (pos : 0 < r) (low : 2 ^ 52 ≤ r)
    (high : r < 2 ^ 53) (normal : -1074 ≤ e) (fits : e ≤ 971) :
    (Float.Model.pack (.finite sign r e pos)).unpack = .finite sign r e pos := by
  obtain ⟨biased, shifted, least, most⟩ : ∃ biased : Nat, e + 1023 + 52 = biased ∧ 1 ≤ biased ∧
      biased ≤ 2046 := ⟨(e + 1023 + 52).toNat, by omega, by omega, by omega⟩
  have stored : (BitVec.ofNat 11 biased).toNat = biased := by
    rw [BitVec.toNat_ofNat]
    exact Nat.mod_eq_of_lt (by omega)
  have notAll : BitVec.ofNat 11 biased ≠ -1#11 := by
    intro same
    have all : biased = 2047 := by rw [← stored, same]; rfl
    omega
  have notNone : BitVec.ofNat 11 biased ≠ 0#11 := by
    intro same
    have none : biased = 0 := by rw [← stored, same]; rfl
    omega
  have bits : r.log2 + 1 = Format.binary64.mantissaBits := by
    rw [(Nat.log2_eq_iff (by omega)).mpr ⟨low, high⟩]
    rfl
  have packed : pack .binary64 (.finite sign r e pos) =
      packComponents .binary64 sign (BitVec.ofNat 11 biased) (BitVec.ofNat 52 r) := by
    show (if 2 ^ 11 ≤ (e + 1023 + 52).toNat + 1 then _
      else if r.log2 + 1 = Format.binary64.mantissaBits then
        packComponents .binary64 sign (BitVec.ofNat 11 (e + 1023 + 52).toNat) (BitVec.ofNat 52 r)
      else _) = _
    rw [shifted, Int.toNat_natCast, if_neg (by omega), if_pos bits]
  show unpack .binary64 (pack .binary64 (.finite sign r e pos)) = _
  rw [packed]
  unfold unpack
  simp only [unpackMantissa_packComponents, unpackExponent_packComponents,
    unpackSign_packComponents]
  rw [if_neg notAll, if_neg notNone]
  have signs : Sign.ofBitVec sign.toBitVec = sign := by cases sign <;> rfl
  have place : ((BitVec.ofNat 11 biased).toNat : Int) - ((1023 : Nat) + (52 : Nat) : Int) = e := by
    rw [stored]
    omega
  congr 1
  exact toNat_append_stored low high

/-- Every number is a significand of 53 bits times a power of two that is not too great. -/
theorem unpack_bounds {x : Float.Model} {sign : Sign} {m : Nat} {e : Int} {pos : 0 < m}
    (unpacked : x.unpack = .finite sign m e pos) : m < 2 ^ 53 ∧ e ≤ 971 := by
  have stored : (@unpackMantissa .binary64 x.toBits.toBitVec).toNat < 2 ^ 52 := BitVec.isLt _
  have whole : (1#1 ++ @unpackMantissa .binary64 x.toBits.toBitVec).toNat < 2 ^ 53 := BitVec.isLt _
  unfold Float.Model.unpack unpack at unpacked
  dsimp only at unpacked
  generalize @unpackExponent .binary64 x.toBits.toBitVec = biased at unpacked
  split at unpacked
  · split at unpacked <;> cases unpacked
  · rename_i notAll
    split at unpacked
    · rename_i none
      subst none
      split at unpacked
      · cases unpacked
      · cases unpacked
        exact ⟨Nat.lt_trans stored (by decide), by decide⟩
    · cases unpacked
      refine ⟨whole, ?_⟩
      have most : biased.toNat ≠ 2047 := fun all => notAll (BitVec.eq_of_toNat_eq all)
      have bits : biased.toNat < 2 ^ 11 := biased.isLt
      change (biased.toNat : Int) - 1075 ≤ 971
      omega

end EventQuery.Binary64
