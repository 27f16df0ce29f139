import EventQuery.Document.Size
import EventQuery.Proofs.Decimal.Places

set_option autoImplicit false

namespace EventQuery.Document

open Decimal (Numeral fixedPlaces roundDiv)
open Lexeme (Digits)

/-- Each unit is 1024 of the one before. -/
def units : List String := ["B", "KB", "MB", "GB"]

/-- The unit is the largest that the size reaches. -/
theorem exists_unitFor (size scale : Nat) (unit : String) (larger : List String) :
    ∃ k name, (unit :: larger)[k]? = some name ∧
      unitFor size scale unit larger = (1024 ^ k * scale, name) ∧
      (k ≠ 0 → 1024 ^ k * scale ≤ size) ∧
      (k ≠ larger.length → size < 1024 ^ (k + 1) * scale) := by
  induction larger generalizing scale unit with
  | nil => exact ⟨0, unit, rfl, by simp [unitFor], by simp, by simp⟩
  | cons next others ih =>
    by_cases small : size < 1024 * scale
    · exact ⟨0, unit, rfl, by simp [unitFor, small], by simp, by simpa using small⟩
    · obtain ⟨k, name, found, scaled, least, most⟩ := ih (1024 * scale) next
      have power (n : Nat) : 1024 ^ n * (1024 * scale) = 1024 ^ (n + 1) * scale := by
        rw [← Nat.mul_assoc, ← Nat.pow_succ]
      rw [power] at scaled least
      rw [power] at most
      refine ⟨k + 1, name, found, ?_, fun _ => ?_, fun last => ?_⟩
      · rw [unitFor, if_neg small, scaled]
      · by_cases first : k = 0
        · rw [first]
          omega
        · exact least first
      · exact most fun same => last (congrArg (· + 1) same)

/-- The number of a size and, behind a space, its unit, given by its place among the units. -/
def readSize? (text : String) : Option (ℚ × Nat) := do
  let numeral ← Numeral.read? (text.toList.takeWhile (· ≠ ' '))
  let place ← units.idxOf? (String.ofList ((text.toList.dropWhile (· ≠ ' ')).drop 1))
  return (numeral.value, place)

theorem readSize?_append {number : List Char} {unit : String} {numeral : Numeral} {k : Nat}
    (solid : ∀ c ∈ number, c ≠ ' ') (read : Numeral.read? number = some numeral)
    (listed : units[k]? = some unit) :
    readSize? (String.ofList number ++ " " ++ unit) = some (numeral.value, k) := by
  have place : units.idxOf? unit = some k := by
    match k, listed with
    | 0, rfl | 1, rfl | 2, rfl | 3, rfl => rfl
  have text : (String.ofList number ++ " " ++ unit).toList = number ++ ' ' :: unit.toList := by
    simp
  have whole : ∀ c ∈ number, decide (c ≠ ' ') = true := fun c member =>
    decide_eq_true (solid c member)
  rw [readSize?, text, List.takeWhile_append_of_pos whole, List.dropWhile_append_of_pos whole]
  simp [read, place]

theorem solid_of_digits {digits : List Char} (written : Digits digits) :
    ∀ c ∈ digits, c ≠ ' ' := by
  rintro c member rfl
  exact absurd (written.only ' ' member).1 (by decide)

theorem solid_fixedPlaces (places n : Nat) : ∀ c ∈ fixedPlaces places n, c ≠ ' ' := by
  intro c member
  rw [Decimal.fixedPlaces_eq, List.append_nil, List.mem_append, List.mem_cons] at member
  rcases member with whole | rfl | behind
  · exact solid_of_digits (Decimal.digits_toDigits _) c whole
  · decide
  · exact solid_of_digits (Decimal.digits_fractionDigits places n) c behind

/-- The size is less than 1024 of its unit, but not by half a hundredth. -/
def RoundsFull (size : Nat) : Prop :=
  (1048571 ≤ size ∧ size < 1024 ^ 2) ∨ (1073736582 ≤ size ∧ size < 1024 ^ 3)

/-- The hundredths of a unit that a size has, rounded. -/
def hundredths (size scale : Nat) : Nat := roundDiv .toEven (100 * size) scale

theorem le_hundredths {size scale : Nat} (pos : 0 < scale) (reached : scale ≤ size) :
    100 ≤ hundredths size scale := by
  have near := (Decimal.roundDiv_near .toEven (n := 100 * size) pos).2
  rw [← hundredths] at near
  by_contra fewer
  have less : hundredths size scale * scale ≤ 99 * scale := Nat.mul_le_mul_right _ (by omega)
  omega

/-- A size is rounded down unless it is in the last half hundredth below. -/
theorem hundredths_lt_iff (size scale : Nat) (pos : 0 < scale)
    (apart : 200 * size ≠ 204799 * scale) :
    hundredths size scale < 102400 ↔ 200 * size < 204799 * scale := by
  obtain ⟨above, below⟩ := Decimal.roundDiv_near .toEven (n := 100 * size) pos
  rw [← hundredths] at above below
  constructor
  · intro less
    have most : hundredths size scale * scale ≤ 102399 * scale := Nat.mul_le_mul_right _ (by omega)
    omega
  · intro less
    by_contra more
    have least : 102400 * scale ≤ hundredths size scale * scale :=
      Nat.mul_le_mul_right _ (by omega)
    omega

theorem hundredths_le (size scale : Nat) (small : size < 1024 * scale) :
    hundredths size scale ≤ 102400 := by
  have pos : 0 < scale := Nat.pos_of_ne_zero fun none => by simp [none] at small
  have near := (Decimal.roundDiv_near .toEven (n := 100 * size) pos).1
  rw [← hundredths] at near
  by_contra more
  have least : 102401 * scale ≤ hundredths size scale * scale := Nat.mul_le_mul_right _ (by omega)
  omega

/-- The number that is read of a size: bytes are exact, and larger units have two places. -/
def numberIn (size k : Nat) : ℚ := if k = 0 then size else hundredths size (1024 ^ k) / 100

/-- What is read of a size that is a number of 53 bits. -/
theorem exists_readSize? (size : Nat) (small : size < 2 ^ 53) :
    ∃ k ≤ 3, readSize? (humanSize size) = some (numberIn size k, k) ∧
      (k ≠ 0 → 1024 ^ k ≤ size) ∧ (k ≠ 3 → size < 1024 ^ (k + 1)) := by
  obtain ⟨k, unit, listed, chosen, least, most⟩ := exists_unitFor size 1 "B" ["KB", "MB", "GB"]
  rw [Nat.mul_one] at chosen least
  rw [Nat.mul_one] at most
  refine ⟨k, Nat.lt_succ_iff.mp (List.getElem?_eq_some_iff.mp listed).1, ?_, least, most⟩
  have same : Decimal.roundBinary 53 size = size := Decimal.roundBinary_of_lt (by decide) small
  rw [humanSize, same, chosen, numberIn]
  dsimp only
  by_cases bytes : k = 0
  · obtain ⟨numeral, read, value⟩ := Decimal.read?_toDigits size
    rw [if_pos (by rw [bytes]; rfl), if_pos bytes, ← value]
    show readSize? (String.ofList (Nat.toDigits 10 size) ++ " " ++ unit) = _
    exact readSize?_append (solid_of_digits (Decimal.digits_toDigits size)) read listed
  · obtain ⟨numeral, read, value⟩ :=
      Decimal.read?_fixedPlaces (hundredths size (1024 ^ k)) (by decide : 0 < 2)
    have several : 1024 ^ k ≠ 1 := (Nat.one_lt_pow bytes (by decide)).ne'
    rw [if_neg several, if_neg bytes, ← hundredths,
      readSize?_append (solid_fixedPlaces 2 _) read listed, value]
    norm_num

theorem abs_numberIn_sub_le (size k : Nat) : |numberIn size k - size / 1024 ^ k| ≤ 0.005 := by
  unfold numberIn
  split
  · rename_i bytes
    rw [bytes, pow_zero, div_one, sub_self, abs_zero]
    norm_num
  · have scaled := Decimal.abs_roundDiv_sub_le .toEven (100 * size) (d := 1024 ^ k)
      (Nat.pow_pos (by decide))
    rw [← hundredths, Nat.cast_mul, mul_div_assoc, abs_le] at scaled
    push_cast at scaled
    rw [abs_le]
    constructor
    · linarith
    · linarith

theorem one_le_numberIn {size k : Nat} (larger : k ≠ 0) (reached : 1024 ^ k ≤ size) :
    1 ≤ numberIn size k := by
  have least := le_hundredths (Nat.pow_pos (by decide)) reached
  rw [numberIn, if_neg larger, le_div_iff₀ (by norm_num)]
  exact_mod_cast least

/-- The number of hundredths decides whether a number of larger units is below 1024. -/
theorem numberIn_lt_iff {size k : Nat} (larger : k ≠ 0) :
    numberIn size k < 1024 ↔ hundredths size (1024 ^ k) < 102400 := by
  rw [numberIn, if_neg larger, div_lt_iff₀ (by norm_num)]
  norm_num

/-- The number is below 1024 unless its unit is the largest, or it has been rounded up. -/
theorem most_iff {size k : Nat} (unit : k ≤ 3) (least : k ≠ 0 → 1024 ^ k ≤ size)
    (most : k ≠ 3 → size < 1024 ^ (k + 1)) :
    (k ≠ 3 → numberIn size k < 1024) ↔ ¬ RoundsFull size := by
  unfold RoundsFull
  match k, unit with
  | 0, _ =>
    have bytes : numberIn size 0 < 1024 := by
      rw [numberIn, if_pos rfl]
      exact_mod_cast most (by decide)
    have small := most (by decide)
    exact iff_of_true (fun _ => bytes) (by omega)
  | 1, _ =>
    have small := most (by decide)
    have below := hundredths_lt_iff size (1024 ^ 1) (by decide) (by omega)
    rw [numberIn_lt_iff (by decide), below]
    omega
  | 2, _ =>
    have reached := least (by decide)
    have small := most (by decide)
    have below := hundredths_lt_iff size (1024 ^ 2) (by decide) (by omega)
    rw [numberIn_lt_iff (by decide), below]
    omega
  | 3, _ =>
    have reached := least (by decide)
    exact iff_of_true (fun last => absurd rfl last) (by omega)

/-- A number that is not below 1024 has just been rounded up to it. -/
theorem numberIn_eq_of_le {size k : Nat} (larger : k ≠ 0) (small : size < 1024 ^ (k + 1))
    (reached : 1024 ≤ numberIn size k) : numberIn size k = 1024 := by
  have most := hundredths_le size (1024 ^ k) (by rwa [← Nat.pow_succ'])
  have least : ¬ hundredths size (1024 ^ k) < 102400 := by
    rw [← numberIn_lt_iff larger]
    exact not_lt.mpr reached
  rw [numberIn, if_neg larger, Nat.le_antisymm most (Nat.not_lt.mp least)]
  norm_num

/-- A size in the unit that it should have: at least one of the unit unless these are bytes, and
less than 1024 of it unless there is no larger one. -/
structure InRightUnit (size : Nat) (number : ℚ) (k : Nat) : Prop where
  least : k ≠ 0 → 1 ≤ number
  most : k ≠ 3 → number < 1024
  near : |number - size / 1024 ^ k| ≤ 0.005

/-- A size is read in its right unit, except where it is less than half a hundredth below the next
unit. There it is read as 1024 of the unit that it has. -/
theorem humanSize_inRightUnit_iff (size : Nat) (small : size < 2 ^ 53) :
    ∃ number k, readSize? (humanSize size) = some (number, k) ∧
      (InRightUnit size number k ↔ ¬ RoundsFull size) ∧
      (RoundsFull size → number = 1024 ∧ k ≠ 3 ∧ |number - size / 1024 ^ k| ≤ 0.005) := by
  obtain ⟨k, unit, read, least, most⟩ := exists_readSize? size small
  have near := abs_numberIn_sub_le size k
  have below := most_iff unit least most
  refine ⟨numberIn size k, k, read, ⟨fun right => below.mp right.most, fun apart => ?_⟩,
    fun full => ?_⟩
  · exact ⟨fun larger => one_le_numberIn larger (least larger), below.mpr apart, near⟩
  · obtain ⟨last, beyond⟩ := Classical.not_imp.mp (mt below.mp (not_not_intro full))
    have larger : k ≠ 0 := by
      rintro rfl
      have bytes := most last
      unfold RoundsFull at full
      omega
    exact ⟨numberIn_eq_of_le larger (most last) (not_lt.mp beyond), last, near⟩

/-- The greatest size below a gigabyte that is not rounded up to 1024 megabytes. -/
theorem gigabyte_inRightUnit : 1073736581 < 2 ^ 53 ∧
    ∃ number k, readSize? (humanSize 1073736581) = some (number, k) ∧
      InRightUnit 1073736581 number k := by
  have small : 1073736581 < 2 ^ 53 := by decide
  obtain ⟨number, k, read, right, _⟩ := humanSize_inRightUnit_iff 1073736581 small
  exact ⟨small, number, k, read, right.mpr (by unfold RoundsFull; decide)⟩

/-- One byte below a megabyte. -/
theorem kilobytes_rounded_up : humanSize 1048575 = "1024.00 KB" ∧
    readSize? (humanSize 1048575) = some (1024, 1) ∧ ¬ InRightUnit 1048575 1024 1 := by
  refine ⟨by decide +kernel, ?_, fun right => ?_⟩
  · obtain ⟨k, unit, read, least, most⟩ := exists_readSize? 1048575 (by decide)
    have only : ∀ k ≤ 3, (k ≠ 0 → 1024 ^ k ≤ 1048575) → (k ≠ 3 → 1048575 < 1024 ^ (k + 1)) →
        k = 1 := by decide
    obtain rfl : k = 1 := only k unit least most
    have rounded : hundredths 1048575 (1024 ^ 1) = 102400 := by decide
    rw [read, numberIn, if_neg (by decide), rounded]
    norm_num
  · exact lt_irrefl _ (right.most (by decide))

end EventQuery.Document
