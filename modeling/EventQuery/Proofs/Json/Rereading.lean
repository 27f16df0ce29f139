import EventQuery.Proofs.Decimal.Bounds
import EventQuery.Proofs.Decimal.Writing
import EventQuery.Proofs.Json.Scaling
import EventQuery.Proofs.Lexeme.NumberText

/- The text of a finite number is read as a number again. Text with a point and no exponent is
always scaled down, and text with an exponent has the digits and the exponent of the shortest
decimal. -/

set_option autoImplicit false

namespace EventQuery.Json

open Decimal (Numeral natOfDigits natOfDigits_append natOfDigits_lt natOfDigits_zeros_append
  jsonFormat)
open Decimal.Format (Leads digits_append_replicate digits_drop digits_replicate_append digits_take
  digits_zero exponential positional)
open Lexeme (Digits Fraction Exponent power?)

theorem le_ofDigitChars (s : Nat) (digits : List Char) : s ≤ Nat.ofDigitChars 10 digits s := by
  rw [Nat.ofDigitChars_eq_ofDigitChars_zero]
  calc s
      ≤ 10 ^ digits.length * s := Nat.le_mul_of_pos_left s (Nat.pow_pos (by decide))
    _ ≤ _ := Nat.le_add_right _ _

theorem takeWhole_of_le {digits : List Char} : ∀ {s : Nat},
    Nat.ofDigitChars 10 digits s ≤ greatestWord →
      takeWhole s digits = ⟨Nat.ofDigitChars 10 digits s, 0⟩ := by
  induction digits with
  | nil => exact fun _ => rfl
  | cons d rest ih =>
    intro s fits
    rw [Nat.ofDigitChars_cons] at fits ⊢
    rw [takeWhole]
    exact (if_pos (Nat.le_trans (le_ofDigitChars _ rest) fits)).trans (ih fits)

theorem takeFraction_of_le {digits : List Char} : ∀ {s : Nat} {power : Int},
    Nat.ofDigitChars 10 digits s ≤ greatestWord →
      takeFraction ⟨s, power⟩ digits =
        ⟨Nat.ofDigitChars 10 digits s, power - digits.length⟩ := by
  induction digits with
  | nil =>
    intro s power _
    rw [List.length_nil, Int.natCast_zero, Int.sub_zero]
    rfl
  | cons d rest ih =>
    intro s power fits
    rw [Nat.ofDigitChars_cons] at fits ⊢
    have places : power - ((d :: rest).length : Nat) = power - 1 - (rest.length : Nat) := by
      rw [List.length_cons]
      omega
    rw [takeFraction, places]
    dsimp only
    exact (if_pos (Nat.le_trans (le_ofDigitChars _ rest) fits)).trans (ih fits)

/-- No digit is dropped from a row that fits into 64 bits. -/
theorem ofNumeral_of_le {whole fraction : List Char} {power : Int}
    (fits : natOfDigits (whole ++ fraction) ≤ greatestWord) :
    Scaled.ofNumeral ⟨whole, fraction, power⟩ =
      ⟨natOfDigits (whole ++ fraction), power - fraction.length⟩ := by
  rw [natOfDigits_append] at fits ⊢
  have first := takeWhole_of_le (s := 0) (Nat.le_trans (le_ofDigitChars _ fraction) fits)
  unfold Scaled.ofNumeral
  dsimp only
  rw [first]
  change Nat.ofDigitChars 10 fraction (Nat.ofDigitChars 10 whole 0) ≤ greatestWord at fits
  rw [takeFraction_of_le fits]
  dsimp only
  congr 1
  omega

section Layouts

variable {digits : List Char} {leading : Int}

/-- Text without an exponent has a point, and its digits make up no more than seventeen. -/
theorem exists_positional (leads : Leads digits leading) (short : natOfDigits digits ≤ 10 ^ 17)
    (few : leading ≤ 15) :
    ∃ whole fraction, Digits whole ∧ Digits fraction ∧
      positional digits leading = whole ++ '.' :: fraction ∧
        natOfDigits (whole ++ fraction) ≤ 10 ^ 17 := by
  unfold positional
  split
  · refine ⟨['0'], List.replicate ((-leading).toNat - 1) '0' ++ digits, digits_zero,
      digits_replicate_append _ leads.written, by simp, ?_⟩
    have zero : ['0'] = List.replicate 1 '0' := rfl
    rw [zero, natOfDigits_zeros_append, natOfDigits_zeros_append]
    exact short
  · dsimp only
    have front := digits_append_replicate (digits_take leads.written leading.toNat)
      (leading.toNat + 1 - digits.length)
    by_cases longer : leading.toNat + 1 < digits.length
    · have present : digits.drop (leading.toNat + 1) ≠ [] := by simp; omega
      have none : leading.toNat + 1 - digits.length = 0 := by omega
      have split : (digits.drop (leading.toNat + 1)).isEmpty = false := by simp; omega
      rw [split]
      refine ⟨_, _, front, digits_drop leads.written present, rfl, ?_⟩
      rw [none, List.replicate_zero, List.append_nil, List.take_append_drop]
      exact short
    · have empty : (digits.drop (leading.toNat + 1)).isEmpty = true := by simp; omega
      rw [empty]
      refine ⟨_, _, front, digits_zero, rfl, ?_⟩
      have places := digits_append_replicate front 1
      refine Nat.le_of_lt (Nat.lt_of_lt_of_le (natOfDigits_lt places.isDigit)
        (Nat.pow_le_pow_right (by decide) ?_))
      simp
      omega

theorem readExponent?_toDigits (n : Nat) :
    Numeral.readExponent? ('-' :: Nat.toDigits 10 n) = some (-(n : Int)) ∧
      Numeral.readExponent? ('+' :: Nat.toDigits 10 n) = some (n : Int) := by
  have written := Decimal.digits_toDigits n
  have wholly : (Nat.toDigits 10 n).all isDigit = true := List.all_eq_true.mpr written.isDigit
  constructor
  · simp [Numeral.readExponent?, written.isEmpty, wholly, Decimal.natOfDigits_toDigits]
  · simp [Numeral.readExponent?, written.isEmpty, wholly, Decimal.natOfDigits_toDigits]

theorem exists_exponential (leads : Leads digits leading) :
    ∃ fraction exponent, Fraction fraction ∧ Exponent exponent ∧
      exponential true digits leading = digits.take 1 ++ (fraction ++ exponent) ∧
        fraction.tail = digits.drop 1 ∧ power? exponent = some leading := by
  have written := Decimal.digits_toDigits leading.natAbs
  have power : ∃ sign, Lexeme.Sign sign ∧
      (if leading < 0 then ['-'] else if true then ['+'] else []) = sign ∧
        Numeral.readExponent? (sign ++ Nat.toDigits 10 leading.natAbs) = some leading := by
    obtain ⟨minus, plus⟩ := readExponent?_toDigits leading.natAbs
    by_cases down : leading < 0
    · refine ⟨['-'], .inr (.inr rfl), if_pos down, minus.trans (congrArg some ?_)⟩
      omega
    · refine ⟨['+'], .inr (.inl rfl), if_neg down, plus.trans (congrArg some ?_)⟩
      omega
  obtain ⟨sign, signed, same, read⟩ := power
  unfold exponential
  dsimp only
  rw [same]
  by_cases empty : digits.drop 1 = []
  · refine ⟨[], _, .absent, .power (.inl rfl) signed written, ?_, empty.symm, read⟩
    simp [empty]
  · have places := digits_drop leads.written empty
    refine ⟨'.' :: digits.drop 1, _, .point places, .power (.inl rfl) signed written, ?_, rfl, read⟩
    rw [places.isEmpty]
    simp

end Layouts

theorem toFloat?_greatest (tie : Decimal.Tie) :
    (Scaled.mk (Decimal.shortest (2 ^ 53 - 1) 971 tie).digits
      (Decimal.shortest (2 ^ 53 - 1) 971 tie).exponent).toFloat?.isSome = true := by
  cases tie with
  | upward => decide +kernel
  | toEven => decide +kernel

/-- Shortest decimals are not too great for the reader. -/
theorem toFloat?_shortest {significand : Nat} {exponent : Int} (some : 0 < significand)
    (short : significand < 2 ^ 53) (low : exponent ≤ 971) (tie : Decimal.Tie) :
    (Scaled.mk (Decimal.shortest significand exponent tie).digits
      (Decimal.shortest significand exponent tie).exponent).toFloat?.isSome = true := by
  by_cases greatest : significand = 2 ^ 53 - 1 ∧ exponent = 971
  · obtain ⟨rfl, rfl⟩ := greatest
    exact toFloat?_greatest tie
  · have within := Decimal.shortest_within some exponent tie
    refine Scaled.toFloat?_isSome within.digits fun up => ?_
    have below := within.below
    generalize Decimal.shortest significand exponent tie = decimal at *
    change 0 ≤ decimal.exponent at up
    change decimal.digits * 10 ^ decimal.exponent.toNat ≤ greatestScaled
    have down : (-decimal.exponent).toNat = 0 := by omega
    rw [down, Nat.pow_zero, Nat.mul_one] at below
    refine le_greatestScaled short (show exponent.toNat ≤ 971 by omega) (by omega) ?_
    calc decimal.digits * 10 ^ decimal.exponent.toNat * 4
        ≤ decimal.digits * 10 ^ decimal.exponent.toNat * 4 * 2 ^ (-exponent).toNat :=
          Nat.le_mul_of_pos_right _ (Nat.two_pow_pos _)
      _ = decimal.digits * (4 * 2 ^ (-exponent).toNat * 10 ^ decimal.exponent.toNat) := by grind
      _ ≤ (4 * significand + 2) * 2 ^ exponent.toNat := below

theorem read?_minus (text : List Char) : Numeral.read? ('-' :: text) = none := rfl

theorem readFloat?_minus (text : List Char) :
    readFloat? ('-' :: text) =
      ((Numeral.read? text).bind fun n => (Scaled.ofNumeral n).toFloat?).map Neg.neg :=
  rfl

theorem readFloat?_of_read? {text : List Char} {n : Numeral} (read : Numeral.read? text = some n) :
    readFloat? text = (Scaled.ofNumeral n).toFloat? := by
  unfold readFloat?
  split
  · rw [read?_minus] at read
    cases read
  · rw [read]
    rfl

theorem readFloat?_magnitude {significand : Nat} {exponent : Int} (some : 0 < significand)
    (short : significand < 2 ^ 53) (low : exponent ≤ 971) :
    ∃ n, Numeral.read? (jsonFormat.magnitude significand exponent) = .some n ∧
      (Scaled.ofNumeral n).toFloat?.isSome = true := by
  have leads := Decimal.Format.leads_shortest some exponent jsonFormat.tie
  have within := (Decimal.shortest_within some exponent jsonFormat.tie).digits
  have great := toFloat?_shortest some short low jsonFormat.tie
  have word : 10 ^ 17 ≤ greatestWord := by decide
  unfold Decimal.Format.magnitude
  dsimp only at leads ⊢
  generalize Decimal.shortest significand exponent jsonFormat.tie = decimal at *
  have worth := Decimal.natOfDigits_toDigits decimal.digits
  generalize Nat.toDigits 10 decimal.digits = digits at *
  rw [← worth] at within
  split
  · rename_i inside
    obtain ⟨whole, fraction, front, back, same, fits⟩ := exists_positional leads within inside.2
    have read := Lexeme.read?_of_parts front (.point back) .absent
    rw [List.append_nil] at read
    refine ⟨⟨whole, fraction, 0⟩, same ▸ read, ?_⟩
    have places : 0 < fraction.length := List.length_pos_iff.mpr back.present
    have down : (0 : Int) - fraction.length < 0 := by omega
    rw [ofNumeral_of_le (Nat.le_trans fits word)]
    exact Scaled.toFloat?_isSome fits fun up => absurd down (Int.not_lt.mpr up)
  · obtain ⟨fraction, ending, point, power, same, places, value⟩ := exists_exponential leads
    have read := Lexeme.read?_of_parts (digits_take leads.written 0) point power
    rw [value] at read
    refine ⟨_, same ▸ read, ?_⟩
    have parts : digits.take 1 ++ digits.drop 1 = digits := List.take_append_drop 1 digits
    have all : natOfDigits (digits.take 1 ++ fraction.tail) = decimal.digits := by
      rw [places, parts, worth]
    rw [ofNumeral_of_le (all ▸ worth ▸ Nat.le_trans within word), all]
    have moved : (digits.length : Int) - 1 + decimal.exponent - fraction.tail.length =
        decimal.exponent := by
      have present : 0 < digits.length := List.length_pos_iff.mpr leads.written.present
      rw [places, List.length_drop]
      omega
    rw [moved]
    exact great

/-- Every finite number is read back as a number, though not always as the same one. -/
theorem readFloat?_of_write? {x : Float} {text : List Char}
    (written : jsonFormat.write? x = some text) : (readFloat? text).isSome = true := by
  unfold Decimal.Format.write? at written
  split at written
  · cases written
  · cases written
  · rename_i sign _
    cases written
    cases sign with
    | negative => decide +kernel
    | positive => decide +kernel
  · rename_i sign significand exponent some unpacked
    cases written
    obtain ⟨short, low⟩ := Binary64.unpack_bounds unpacked
    obtain ⟨n, read, small⟩ := readFloat?_magnitude some short low
    cases sign with
    | negative =>
      unfold Decimal.Format.signed
      rw [readFloat?_minus, read]
      exact Option.isSome_map.trans small
    | positive => exact (readFloat?_of_read? read).symm ▸ small

end EventQuery.Json
