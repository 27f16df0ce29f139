import EventQuery.Proofs.Lexeme.MaximalMunch

set_option autoImplicit false

namespace EventQuery.Lexeme

open Decimal

theorem takeWhile_digits {digits back : List Char} (written : Digits digits)
    (stop : ∀ c ∈ back.head?, isDigit c = false) :
    (digits ++ back).takeWhile isDigit = digits ∧ (digits ++ back).dropWhile isDigit = back := by
  have taken := takeRun_of_stop [] written.isDigit stop
  rw [takeRun, List.nil_append, List.nil_append, Prod.mk.injEq] at taken
  exact taken

theorem Digits.isEmpty {digits : List Char} (written : Digits digits) : digits.isEmpty = false := by
  cases digits with
  | nil => exact absurd rfl written.present
  | cons d more => rfl

theorem readExponent?_of_sign {sign digits : List Char} (signed : Sign sign)
    (written : Digits digits) : ∃ power, Numeral.readExponent? (sign ++ digits) = some power := by
  have wholly : digits.all isDigit = true := List.all_eq_true.mpr written.isDigit
  rcases signed with rfl | rfl | rfl
  · unfold Numeral.readExponent?
    rw [List.nil_append]
    split
    rename_i negative rest apart
    split at apart
    · exact absurd (written.isDigit '-' (List.mem_cons_self ..)) (by decide)
    · exact absurd (written.isDigit '+' (List.mem_cons_self ..)) (by decide)
    · cases apart
      exact ⟨_, by simp [written.isEmpty, wholly]; rfl⟩
  · exact ⟨_, by simp [Numeral.readExponent?, written.isEmpty, wholly]; rfl⟩
  · exact ⟨_, by simp [Numeral.readExponent?, written.isEmpty, wholly]; rfl⟩

/-- The power of ten that the end of a number writes. -/
def power? : List Char → Option Int
  | [] => some 0
  | _ :: more => Numeral.readExponent? more

theorem power?_of_exponent {exponent : List Char} (power : Exponent exponent) :
    ∃ value, power? exponent = some value := by
  cases power with
  | absent => exact ⟨0, rfl⟩
  | power _ signed written => exact readExponent?_of_sign signed written

/-- A number is taken apart where its parts meet. -/
theorem read?_of_parts {whole fraction exponent : List Char} (digits : Digits whole)
    (point : Fraction fraction) (power : Exponent exponent) :
    Numeral.read? (whole ++ (fraction ++ exponent)) =
      (power? exponent).map fun value => ⟨whole, fraction.tail, value⟩ := by
  have stop : ∀ c ∈ (fraction ++ exponent).head?, isDigit c = false := by
    by_cases bare : fraction ++ exponent = []
    · rw [bare]
      exact fun _ absent => by cases absent
    · have head : ∀ c ∈ (fraction ++ (exponent ++ [])).head?, isDigit c = false :=
        head_of_parts point power bare
      rwa [List.append_nil] at head
  obtain ⟨taken, dropped⟩ := takeWhile_digits digits stop
  simp only [Numeral.read?, taken, dropped, digits.isEmpty, Bool.false_and]
  cases point with
  | absent =>
    cases power with
    | absent => rfl
    | power marked _ _ =>
      rcases marked with rfl | rfl
      · rfl
      · rfl
  | @point places point =>
    cases power with
    | absent =>
      obtain ⟨taken', dropped'⟩ := takeWhile_digits point (show ∀ c ∈ ([] : List Char).head?, _ from
        fun _ absent => by cases absent)
      rw [List.append_nil] at taken' dropped'
      simp [taken', dropped', power?]
    | @power mark sign exponent marked signed written =>
      have stop' : ∀ c ∈ (mark :: (sign ++ exponent)).head?, isDigit c = false := by
        intro c first
        cases first
        rcases marked with rfl | rfl <;> rfl
      obtain ⟨taken', dropped'⟩ := takeWhile_digits point stop'
      simp [taken', dropped', marked, power?]

theorem read?_of_numberText {text : List Char} (numeral : NumberText text) :
    ∃ n, Numeral.read? text = some n := by
  obtain @⟨whole, fraction, exponent, digits, point, power⟩ := numeral
  obtain ⟨value, read⟩ := power?_of_exponent power
  exact ⟨⟨whole, fraction.tail, value⟩, by rw [read?_of_parts digits point power, read]; rfl⟩

theorem toLower_of_isDigit {c : Char} (digit : isDigit c = true) : c.toLower = c := by
  have below : ¬ (c.val ≥ 'A'.val ∧ c.val ≤ 'Z'.val) := by
    intro upper
    have high : c.val ≤ '9'.val := ((isDigit_iff c).mp digit).2
    exact absurd (UInt32.le_trans upper.1 high) (by decide)
  exact dif_neg below

/-- A digit begins neither the name of infinity nor that of what is no number. -/
theorem readMagnitude?_of_isDigit {first : Char} {more : List Char}
    (digit : isDigit first = true) :
    readMagnitude? (first :: more) = (Numeral.read? (first :: more)).map Numeral.toFloat := by
  have apart (other : Char) (rest : List Char) (letter : isDigit other = false) :
      (first :: more).map Char.toLower ≠ other :: rest := by
    intro same
    rw [List.map_cons, toLower_of_isDigit digit, List.cons.injEq] at same
    rw [same.1, letter] at digit
    cases digit
  unfold readMagnitude?
  dsimp only
  rw [if_neg, if_neg]
  · exact apart 'n' _ rfl
  · rintro (short | long)
    · exact apart 'i' _ rfl short
    · exact apart 'i' _ rfl long

/-- Every text of a number is read, since it begins with a digit. -/
theorem readFloat?_of_numberText {text : List Char} (numeral : NumberText text) :
    ∃ x, readFloat? text = some x := by
  obtain ⟨n, written⟩ := read?_of_numberText numeral
  cases text with
  | nil =>
    have unread : Numeral.read? [] = none := rfl
    rw [unread] at written
    cases written
  | cons first more =>
    have digit : isDigit first = true := numeral.first_digit
    refine ⟨n.toFloat, ?_⟩
    unfold readFloat?
    split
    · rename_i minus
      cases minus
      exact absurd digit (by decide)
    · rename_i plus
      cases plus
      exact absurd digit (by decide)
    · rw [readMagnitude?_of_isDigit digit, written]
      rfl

end EventQuery.Lexeme
