import EventQuery.Json.Reader
import EventQuery.Proofs.Lexeme.Respelling

set_option autoImplicit false

namespace EventQuery.Json

open Lexeme (Digits Fraction Exponent Sign inNumber)

/-- `'-'? digits ('.' digits)? ([eE] [+-]? digits)?`. A zero before the point stands alone there. -/
inductive NumberText : List Char → Prop where
  | mk {minus whole fraction exponent : List Char} (signed : minus = [] ∨ minus = ['-'])
      (digits : Digits whole) (alone : ∀ more, whole = '0' :: more → more = [])
      (point : Fraction fraction) (power : Exponent exponent) :
      NumberText (minus ++ (whole ++ (fraction ++ exponent)))

/-- No number goes on into the text. -/
def EndsNumber (rest : List Char) : Prop := ∀ c ∈ rest.head?, inNumber c = false

theorem endsNumber_cons {c : Char} (outside : inNumber c = false) (rest : List Char) :
    EndsNumber (c :: rest) := by
  intro d first
  cases first
  exact outside

section Parts

variable {whole fraction exponent rest : List Char}

theorem EndsNumber.head (ends : EndsNumber rest) {c : Char} (first : c ∈ rest.head?) :
    isDigit c = false ∧ c ≠ '.' ∧ c ≠ 'e' ∧ c ≠ 'E' := by
  have outside := ends c first
  simp only [inNumber, Bool.or_eq_false_iff, decide_eq_false_iff_not, and_assoc] at outside
  obtain ⟨noDigit, noPoint, small, great, _⟩ := outside
  exact ⟨noDigit, noPoint, small, great⟩

theorem takeDigits_of_digits (digits : Digits whole)
    (stop : ∀ c ∈ rest.head?, isDigit c = false) :
    takeDigits (whole ++ rest) = some (whole, rest) := by
  obtain ⟨taken, dropped⟩ := Lexeme.takeWhile_digits digits stop
  simp [takeDigits, taken, dropped, digits.present]

theorem takeWholePart_of_digits (digits : Digits whole)
    (alone : ∀ more, whole = '0' :: more → more = [])
    (stop : ∀ c ∈ rest.head?, isDigit c = false) :
    takeWholePart (whole ++ rest) = some (whole, rest) := by
  rw [takeWholePart, takeDigits_of_digits digits stop]
  split
  · rename_i found
    cases found
    exact absurd (alone _ rfl) (List.cons_ne_nil _ _)
  · rfl

theorem takeExponentPart_of_exponent (power : Exponent exponent) (ends : EndsNumber rest) :
    takeExponentPart (exponent ++ rest) = some (exponent, rest) := by
  cases power with
  | absent =>
    cases rest with
    | nil => rfl
    | cons c more =>
      obtain ⟨_, _, small, great⟩ := ends.head (c := c) rfl
      simp [takeExponentPart, small, great]
  | @power mark sign digits marked signed written =>
    have number : takeDigits (digits ++ rest) = some (digits, rest) :=
      takeDigits_of_digits written fun c first => (ends.head first).1
    have apart : takeSign (sign ++ (digits ++ rest)) = (sign, digits ++ rest) :=
      Lexeme.splitSign_of_sign signed written rest
    rw [List.cons_append, List.append_assoc, takeExponentPart, if_pos marked, apart]
    simp [number]

/-- What follows the digits before the point begins with no digit. -/
theorem head_of_parts (point : Fraction fraction) (power : Exponent exponent)
    (ends : EndsNumber rest) :
    ∀ c ∈ (fraction ++ (exponent ++ rest)).head?, isDigit c = false := by
  cases point with
  | point written =>
    intro c first
    cases first
    rfl
  | absent =>
    by_cases absent : exponent = []
    · subst absent
      exact fun c first => (ends.head first).1
    · obtain ⟨mark, more, next, noDigit, _⟩ := power.head rest absent
      rw [List.nil_append, next]
      intro c first
      cases first
      exact noDigit

theorem takeFractionPart_of_fraction (point : Fraction fraction) (power : Exponent exponent)
    (ends : EndsNumber rest) :
    takeFractionPart (fraction ++ (exponent ++ rest)) = some (fraction, exponent ++ rest) := by
  have stop := head_of_parts .absent power ends
  rw [List.nil_append] at stop
  cases point with
  | point written =>
    rw [List.cons_append, takeFractionPart, takeDigits_of_digits written stop]
    rfl
  | absent =>
    have noPoint : ∀ c ∈ (exponent ++ rest).head?, c ≠ '.' := by
      by_cases absent : exponent = []
      · subst absent
        exact fun c first => (ends.head first).2.1
      · obtain ⟨mark, more, next, _, other⟩ := power.head rest absent
        rw [next]
        intro c first
        cases first
        exact other
    rw [List.nil_append]
    unfold takeFractionPart
    split
    · rename_i more begins
      rw [begins] at noPoint
      exact absurd rfl (noPoint '.' rfl)
    · rfl

end Parts

theorem NumberText.head {text : List Char} (number : NumberText text) :
    ∃ c more, text = c :: more ∧ (c = '-' ∨ isDigit c = true) := by
  obtain ⟨signed, digits, _, _, _⟩ := number
  obtain ⟨d, more, rfl⟩ := List.exists_cons_of_ne_nil digits.present
  rcases signed with rfl | rfl
  · exact ⟨d, _, rfl, .inr (digits.isDigit d List.mem_cons_self)⟩
  · exact ⟨'-', _, rfl, .inl rfl⟩

theorem takeNumber_of_numberText {text rest : List Char} (number : NumberText text)
    (ends : EndsNumber rest) : takeNumber (text ++ rest) = some (text, rest) := by
  obtain @⟨minus, whole, fraction, exponent, signed, digits, alone, point, power⟩ := number
  have wholly := takeWholePart_of_digits digits alone (head_of_parts point power ends)
  have behind := takeFractionPart_of_fraction point power ends
  have last := takeExponentPart_of_exponent power ends
  simp only [List.append_assoc]
  rcases signed with rfl | rfl
  · have unsigned : ∀ more, whole ++ (fraction ++ (exponent ++ rest)) ≠ '-' :: more := by
      obtain ⟨d, others, rfl⟩ := List.exists_cons_of_ne_nil digits.present
      intro more same
      have digit := digits.isDigit d List.mem_cons_self
      rw [(List.cons.inj same).1] at digit
      exact absurd digit (by decide)
    simp [takeNumber, wholly, behind, last]
  · simp [takeNumber, wholly, behind, last]

end EventQuery.Json
