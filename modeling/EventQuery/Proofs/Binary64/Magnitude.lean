import Mathlib
import EventQuery.Json.Number
import EventQuery.Proofs.Binary64.Rounding

set_option autoImplicit false

namespace EventQuery.Binary64

open Float.Model (Format totalExponent)
open Float.Model.UnpackedFloat

/-- The number is `significand * 2 ^ place`, counted in units of `2 ^ -52`. -/
structure Parts (x : Float) (significand place : Nat) : Prop where
  low : 2 ^ 52 ≤ significand
  high : significand < 2 ^ 53
  unpacked : ∃ pos, x.toModel.unpack = .finite .positive significand ((place : Int) - 52) pos

variable {x y : Float} {m n f g : Nat}

theorem Parts.isFinite (parts : Parts x m f) : x.isFinite = true := by
  obtain ⟨pos, unpacked⟩ := parts.unpacked
  show x.toModel.unpack.isFinite = true
  rw [unpacked]
  rfl

/-- The number is at most so many units of `2 ^ -53`. -/
def AtMost (x : Float) (bound : Nat) : Prop := ∃ m f, Parts x m f ∧ 2 * (m * 2 ^ f) ≤ bound

/-- What is rounded to a number below `2 ^ 1024` is packed whole. -/
theorem exists_parts {v k : Nat} {e : Int} (place : Nat) (some : v ≠ 0) (bits : v.log2 = 52 + k)
    (placed : e + k = (place : Int) - 52)
    (fits : ∀ carry ≤ 1, 2 ^ 53 * 2 ^ (k + carry) ≤ 2 * v + 2 ^ k → place + carry ≤ 1023) :
    ∃ r carry, Parts (.ofModel (.pack (roundWithAccuracy .binary64 .positive v e .exact))) r
        (place + carry) ∧ 2 * r * 2 ^ (k + carry) ≤ 2 * v + 2 ^ k := by
  obtain ⟨r, carry, pos, rounded, low, high, once, grown⟩ :=
    exists_rounded (e := e) .positive some bits (by omega)
  have least : 2 ^ 53 * 2 ^ (k + carry) ≤ 2 * r * 2 ^ (k + carry) :=
    Nat.mul_le_mul_right _ (by omega)
  have inside := fits carry once (Nat.le_trans least grown)
  have exponent : e + k + carry = ((place + carry : Nat) : Int) - 52 := by omega
  refine ⟨r, carry, ⟨low, high, pos, ?_⟩, grown⟩
  rw [rounded]
  simp only [exponent]
  exact unpack_pack .positive pos low high (by omega) (by omega)

/-- Half a unit of the last place above the greatest number. Numbers below it do not overflow. -/
@[irreducible] def overflow : Nat := (2 ^ 54 - 1) * 2 ^ 970

theorem mul_two_pow_mul (m : Nat) {k n places : Nat} (same : k + n = places) :
    m * 2 ^ k * 2 ^ n = m * 2 ^ places := by
  rw [mul_assoc, ← pow_add, same]

theorem overflow_scaled : overflow * 2 ^ 104 = (2 ^ 54 - 1) * 2 ^ (1023 + 51) := by
  unfold overflow
  exact mul_two_pow_mul _ (by decide)

theorem overflow_between : 10 ^ 308 < overflow ∧ overflow < 10 ^ 309 := by decide +kernel

theorem power_lt_overflow {e : Nat} (few : e ≤ 308) : 10 ^ e < overflow :=
  Nat.lt_of_le_of_lt (pow_le_pow_right₀ (by decide) few) overflow_between.1

theorem log2_mul (parts : Parts x m f) (parts' : Parts y n g) :
    ∃ more ≤ 1, m * n ≠ 0 ∧ (m * n).log2 = 52 + (52 + more) := by
  have least : 2 ^ 52 * 2 ^ 52 ≤ m * n := Nat.mul_le_mul parts.low parts'.low
  have most : m * n < 2 ^ 53 * 2 ^ 53 := Nat.mul_lt_mul'' parts.high parts'.high
  have some : m * n ≠ 0 := by omega
  by_cases small : m * n < 2 ^ 105
  · exact ⟨0, by decide, some, (Nat.log2_eq_iff some).mpr ⟨by omega, small⟩⟩
  · exact ⟨1, by decide, some, (Nat.log2_eq_iff some).mpr ⟨by omega, by omega⟩⟩

theorem mul_eq (parts : Parts x m f) (parts' : Parts y n g) :
    x * y = .ofModel (.pack (roundWithAccuracy .binary64 .positive (m * n)
      (((f : Int) - 52) + ((g : Int) - 52)) .exact)) := by
  obtain ⟨pos, unpacked⟩ := parts.unpacked
  obtain ⟨pos', unpacked'⟩ := parts'.unpacked
  show Float.ofModel (.pack (mul .binary64 x.toModel.unpack y.toModel.unpack)) = _
  rw [unpacked, unpacked']
  rfl

/-- A number below half a unit above the greatest number of so many places has no more places, even
if rounding carries. -/
theorem place_le {v more places last : Nat} (some : v ≠ 0) (bits : v.log2 = 52 + (52 + more))
    (below : v * 2 ^ places < (2 ^ 54 - 1) * 2 ^ (last + 51)) :
    ∀ carry ≤ 1, 2 ^ 53 * 2 ^ (52 + more + carry) ≤ 2 * v + 2 ^ (52 + more) →
      places + more + carry ≤ last := by
  intro carry once grown
  have inside : places + more ≤ last := by
    have first : 2 ^ (52 + (52 + more) + places) < 2 ^ (54 + (last + 51)) := by
      have least := Nat.mul_le_mul_right (2 ^ places) (Nat.log2_self_le some)
      rw [bits, ← Nat.pow_add] at least
      rw [Nat.pow_add 2 54]
      omega
    have := (Nat.pow_lt_pow_iff_right (by decide)).mp first
    omega
  by_cases carried : places + more = last ∧ carry = 1
  · obtain ⟨rfl, rfl⟩ := carried
    have scaled := Nat.mul_le_mul_right (2 ^ places) grown
    have half : 52 + more + places = places + more + 51 + 1 := by omega
    have unit : 52 + more + 1 + places = places + more + 51 + 1 + 1 := by omega
    rw [Nat.add_mul, Nat.mul_assoc (2 ^ 53), Nat.mul_assoc 2, ← Nat.pow_add 2 (52 + more + 1),
      ← Nat.pow_add 2 (52 + more), half, unit, Nat.pow_succ, Nat.pow_succ] at scaled
    omega
  · omega

/-- A product below the overflow is a number, and grows by half a unit of its last place. -/
theorem exists_mul (parts : Parts x m f) (parts' : Parts y n g)
    (below : m * n * 2 ^ (f + g) < overflow * 2 ^ 104) :
    ∃ r more carry, (m * n).log2 = 52 + (52 + more) ∧ Parts (x * y) r (f + g + more + carry) ∧
      2 * r * 2 ^ (52 + more + carry) ≤ 2 * (m * n) + 2 ^ (52 + more) := by
  obtain ⟨more, one, some, bits⟩ := log2_mul parts parts'
  rw [overflow_scaled] at below
  obtain ⟨r, carry, whole, grown⟩ := exists_parts (e := ((f : Int) - 52) + ((g : Int) - 52))
    (f + g + more) some bits (by omega) (place_le some bits below)
  exact ⟨r, more, carry, bits, mul_eq parts parts' ▸ whole, grown⟩

theorem AtMost.isFinite_mul {a b : Nat} (left : AtMost x a) (right : AtMost y b)
    (below : a * b < 4 * (overflow * 2 ^ 104)) : (x * y).isFinite = true := by
  obtain ⟨m, f, parts, least⟩ := left
  obtain ⟨n, g, parts', least'⟩ := right
  have product : m * n * 2 ^ (f + g) < overflow * 2 ^ 104 := by
    have both := Nat.mul_le_mul least least'
    have same : 2 * (m * 2 ^ f) * (2 * (n * 2 ^ g)) = 4 * (m * n * 2 ^ (f + g)) := by
      rw [Nat.pow_add]
      grind
    rw [same] at both
    exact Nat.lt_of_mul_lt_mul_left (Nat.lt_of_le_of_lt both below)
  obtain ⟨_, _, _, _, whole, _⟩ := exists_mul parts parts' product
  exact whole.isFinite

/-- Naturals of 53 bits are numbers themselves, and longer ones grow by so many units of `2 ^ -53`
at most. -/
def slack (v : Nat) : Nat := if v < 2 ^ 53 then 0 else 2 ^ v.log2

theorem slack_le (v : Nat) : slack v ≤ v := by
  unfold slack
  split
  · exact Nat.zero_le v
  · exact Nat.log2_self_le (by omega)

theorem log2_mul_two_pow {v : Nat} (some : v ≠ 0) (k : Nat) : (v * 2 ^ k).log2 = v.log2 + k := by
  have pos : v * 2 ^ k ≠ 0 := Nat.mul_ne_zero some (Nat.ne_of_gt (Nat.two_pow_pos k))
  rw [Nat.log2_eq_iff pos]
  constructor
  · rw [Nat.pow_add]
    exact Nat.mul_le_mul_right _ (Nat.log2_self_le some)
  · rw [Nat.add_right_comm, Nat.pow_add]
    exact Nat.mul_lt_mul_of_pos_right Nat.lt_log2_self (Nat.two_pow_pos k)

theorem ofScientific_eq {s e : Nat} (some : s ≠ 0) (slow : ¬(s < 2 ^ 53 ∧ e ≤ 22))
    (few : e ≤ 2048) :
    Float.ofScientific s false e = .ofModel (.pack (roundWithAccuracy .binary64 .positive
      (s * 10 ^ e * 2 ^ 53) (-53) .exact)) := by
  have unsigned : Float.ofScientific s false e =
      .ofModel (.pack (ofScientific .binary64 s (e : Int))) := by
    unfold Float.ofScientific
    rw [dif_neg slow]
    rfl
  have most : ¬((e : Int) > 2 ^ 11) := by omega
  have least : ¬((e : Int) < -((2 ^ 11 : Int) + s.log2)) := by omega
  have moved : s <<< Format.binary64.mantissaBits * 10 ^ (e : Int).toNat = s * 10 ^ e * 2 ^ 53 := by
    show s <<< 53 * 10 ^ e = _
    rw [Nat.shiftLeft_eq, Nat.mul_right_comm]
  rw [unsigned]
  unfold ofScientific
  rw [dif_neg some, if_neg most, if_neg least, if_pos (Int.natCast_nonneg e)]
  unfold mul
  dsimp only
  rw [moved]
  rfl

/-- A natural number that has no exact way to be read is rounded once. -/
theorem atMost_of_slow {s e : Nat} (some : s ≠ 0) (slow : ¬(s < 2 ^ 53 ∧ e ≤ 22)) (few : e ≤ 2048)
    (long : 2 ^ 53 ≤ s * 10 ^ e) (below : s * 10 ^ e < overflow) :
    AtMost (Float.ofScientific s false e) (s * 10 ^ e * 2 ^ 53 + slack (s * 10 ^ e)) := by
  rw [ofScientific_eq some slow few]
  generalize s * 10 ^ e = v at *
  have present : v ≠ 0 := by omega
  have wide : 53 ≤ v.log2 := (Nat.le_log2 present).mpr long
  obtain ⟨more, bits⟩ : ∃ more, v.log2 = 51 + more := ⟨v.log2 - 51, by omega⟩
  have moved : (v * 2 ^ 53).log2 = 52 + (52 + more) := by
    rw [log2_mul_two_pow present]
    omega
  have scaled : v * 2 ^ 53 * 2 ^ 51 < (2 ^ 54 - 1) * 2 ^ (1023 + 51) := by
    have whole : v * 2 ^ 53 * 2 ^ 51 = v * 2 ^ 104 := Nat.mul_assoc v (2 ^ 53) (2 ^ 51)
    rw [← overflow_scaled, whole]
    exact (Nat.mul_lt_mul_right (Nat.two_pow_pos 104)).mpr below
  obtain ⟨r, carry, parts, grown⟩ := exists_parts (e := -53) (51 + more) (by omega) moved
    (by omega) (place_le (by omega) moved scaled)
  refine ⟨r, _, parts, ?_⟩
  have unit : 52 + more + carry = (51 + more + carry) + 1 := by omega
  have half : 52 + more = v.log2 + 1 := by omega
  rw [unit, half, Nat.pow_succ, Nat.pow_succ, Nat.mul_assoc, ← Nat.mul_assoc r] at grown
  rw [slack, if_neg (Nat.not_lt.mpr long)]
  omega

/-- A number is read with all its bits and the exponent that this takes. -/
theorem toFloat_eq {n : UInt64} (some : n.toNat ≠ 0) (short : n.toNat.log2 ≤ 52) :
    n.toFloat = .ofModel (.pack (roundWithAccuracy .binary64 .positive
      (n.toNat * 2 ^ (52 - n.toNat.log2)) (-((52 - n.toNat.log2 : Nat) : Int)) .exact)) := by
  have positive : compare (n.toNat : Int) 0 = .gt := Int.compare_eq_gt.mpr (by omega)
  have shift : (0 - Format.binary64.targetExponent (totalExponent n.toNat 0)).toNat =
      52 - n.toNat.log2 := by
    rw [targetExponent_eq]
    omega
  show Float.ofModel (.pack (normalize .binary64 (n.toNat : Int) 0 .positive)) = _
  unfold Float.Model.UnpackedFloat.normalize
  rw [positive]
  dsimp only
  unfold Float.Model.UnpackedFloat.round decreaseExponent
  dsimp only
  rw [Int.toNat_natCast, shift, Nat.shiftLeft_eq, Int.zero_sub]

theorem exists_toFloat {n : UInt64} (some : n.toNat ≠ 0) (short : n.toNat < 2 ^ 53) :
    ∃ r f, Parts n.toFloat r f ∧ r * 2 ^ f ≤ n.toNat * 2 ^ 52 := by
  have log : n.toNat.log2 ≤ 52 := Nat.lt_succ_iff.mp ((Nat.log2_lt some).mpr short)
  have bits : (n.toNat * 2 ^ (52 - n.toNat.log2)).log2 = 52 + 0 := by
    rw [log2_mul_two_pow some]
    omega
  have pos : n.toNat * 2 ^ (52 - n.toNat.log2) ≠ 0 :=
    Nat.mul_ne_zero some (Nat.ne_of_gt (Nat.two_pow_pos _))
  obtain ⟨r, carry, parts, grown⟩ := exists_parts (e := -((52 - n.toNat.log2 : Nat) : Int))
    n.toNat.log2 pos bits (by omega) fun _ _ _ => by omega
  refine ⟨r, _, toFloat_eq some log ▸ parts, ?_⟩
  have kept : r * 2 ^ carry ≤ n.toNat * 2 ^ (52 - n.toNat.log2) := by
    rw [Nat.zero_add, Nat.mul_assoc] at grown
    omega
  calc r * 2 ^ (n.toNat.log2 + carry)
      = r * 2 ^ carry * 2 ^ n.toNat.log2 := by rw [Nat.add_comm, Nat.pow_add, Nat.mul_assoc]
    _ ≤ n.toNat * 2 ^ (52 - n.toNat.log2) * 2 ^ n.toNat.log2 := Nat.mul_le_mul_right _ kept
    _ = n.toNat * 2 ^ 52 := by rw [Nat.mul_assoc, ← Nat.pow_add, Nat.sub_add_cancel log]

/-- The number one, by which a number that is read exactly is multiplied. -/
theorem parts_one : Parts (Float.ofBits 0x3FF0000000000000) (2 ^ 52) 0 :=
  ⟨by decide, by decide, by decide, rfl⟩

theorem atMost_floatOfNat {s : Nat} (some : s ≠ 0) (word : s < 2 ^ 64) :
    AtMost (Json.floatOfNat s) (s * 2 ^ 53 + slack s) := by
  by_cases short : s < 2 ^ 53
  · have same : s.toUInt64.toNat = s := UInt64.toNat_ofNat_of_lt' word
    obtain ⟨r, f, parts, kept⟩ : ∃ r f, Parts s.toUInt64.toFloat r f ∧ r * 2 ^ f ≤ s * 2 ^ 52 := by
      have exact := exists_toFloat (n := s.toUInt64)
      rw [same] at exact
      exact exact some short
    have quick : Json.floatOfNat s = s.toUInt64.toFloat * Float.ofBits 0x3FF0000000000000 := by
      show Float.ofScientific s false 0 = _
      unfold Float.ofScientific
      rw [dif_pos ⟨short, by decide⟩]
      rfl
    have below : r * 2 ^ 52 * 2 ^ (f + 0) < overflow * 2 ^ 104 := by
      have great : 10 ^ 16 < overflow := power_lt_overflow (by decide)
      rw [Nat.add_zero, Nat.mul_right_comm]
      omega
    obtain ⟨r', more, carry, bits, parts', grown⟩ := exists_mul parts parts_one below
    obtain rfl : more = 0 := by
      have most : (r * 2 ^ 52).log2 < 105 := by
        have high := parts.high
        exact (Nat.log2_lt (by have := parts.low; omega)).mpr (by omega)
      omega
    rw [quick]
    refine ⟨r', _, parts', ?_⟩
    have held : r' * 2 ^ carry ≤ r := by
      rw [Nat.mul_assoc, Nat.add_zero, Nat.pow_add, Nat.mul_left_comm r'] at grown
      omega
    have whole : r' * 2 ^ (f + carry) ≤ r * 2 ^ f := by
      rw [Nat.add_comm, Nat.pow_add, ← Nat.mul_assoc]
      exact Nat.mul_le_mul_right _ held
    rw [slack, if_pos short, Nat.add_zero, Nat.add_zero]
    omega
  · have small : s * 10 ^ 0 < overflow := by
      have great : 10 ^ 20 < overflow := power_lt_overflow (by decide)
      omega
    have slow := atMost_of_slow (e := 0) some (by omega) (by decide) (by omega) small
    rwa [Nat.pow_zero, Nat.mul_one] at slow

/-- Whether a power of ten is at most so many units of `2 ^ -53`. -/
def powerWithin (e bound : Nat) : Bool :=
  match (Json.powerOfTen e).toModel.unpack with
  | .finite .positive n g _ =>
    decide (2 ^ 52 ≤ n) && decide (n < 2 ^ 53) && decide (-52 ≤ g) &&
      decide (2 * (n * 2 ^ (g + 52).toNat) ≤ bound)
  | _ => false

theorem atMost_of_powerWithin {e bound : Nat} (within : powerWithin e bound = true) :
    AtMost (Json.powerOfTen e) bound := by
  unfold powerWithin at within
  split at within
  · rename_i n g pos unpacked
    simp only [Bool.and_eq_true, decide_eq_true_eq] at within
    obtain ⟨⟨⟨low, high⟩, least⟩, worth⟩ := within
    have place : g = ((g + 52).toNat : Int) - 52 := by omega
    refine ⟨n, (g + 52).toNat, ⟨low, high, pos, ?_⟩, worth⟩
    simp only [← place]
    exact unpacked
  · cases within

theorem powerWithin_of_le : ∀ e ≤ 22, powerWithin e (10 ^ e * 2 ^ 53) = true := by decide +kernel

theorem atMost_powerOfTen {e : Nat} (few : e ≤ 308) :
    AtMost (Json.powerOfTen e) (10 ^ e * 2 ^ 53 + 10 ^ e) := by
  by_cases short : e ≤ 22
  · obtain ⟨m, f, parts, least⟩ := atMost_of_powerWithin (powerWithin_of_le e short)
    exact ⟨m, f, parts, Nat.le_trans least (Nat.le_add_right _ _)⟩
  · have long : 2 ^ 53 ≤ 10 ^ e :=
      Nat.le_trans (by decide : 2 ^ 53 ≤ 10 ^ 22) (Nat.pow_le_pow_right (by decide) (by omega))
    obtain ⟨m, f, parts, least⟩ := atMost_of_slow (s := 1) (e := e) (by decide) (by omega)
      (by omega) (by rwa [Nat.one_mul]) (by rw [Nat.one_mul]; exact power_lt_overflow few)
    rw [Nat.one_mul] at least
    exact ⟨m, f, parts, Nat.le_trans least (Nat.add_le_add_left (slack_le _) _)⟩

end EventQuery.Binary64
