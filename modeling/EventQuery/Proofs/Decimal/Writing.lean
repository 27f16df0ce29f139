import EventQuery.Decimal.Format
import EventQuery.Proofs.Decimal.Digits
import EventQuery.Proofs.Json.Number

set_option autoImplicit false

namespace EventQuery.Decimal.Format

open Lexeme (Digits Fraction Exponent)
open Json (NumberText)

/-- The digits of a decimal and the exponent of the first of them. Zeros in front stand alone. -/
structure Leads (digits : List Char) (leading : Int) : Prop where
  written : Digits digits
  zero : digits.head? = some '0' → digits = ['0'] ∧ leading = 0

theorem leads_shortest {significand : Nat} (pos : 0 < significand) (exponent : Int) (tie : Tie) :
    let decimal := shortest significand exponent tie
    let digits := Nat.toDigits 10 decimal.digits
    Leads digits ((digits.length : Int) - 1 + decimal.exponent) := by
  dsimp only
  refine ⟨digits_toDigits _, fun first => ?_⟩
  rcases shortest_digits pos exponent tie with none | some
  · rw [none]
    exact ⟨rfl, rfl⟩
  · exact absurd rfl (head_toDigits some _ first)

section Texts

variable {digits : List Char} {leading : Int}

theorem digits_zero : Digits ['0'] where
  present := List.cons_ne_nil _ _
  only c member := by
    rw [List.mem_singleton.mp member]
    decide

theorem digits_take (written : Digits digits) (count : Nat) :
    Digits (digits.take (count + 1)) where
  present := by simp [written.present]
  only c member := written.only c (List.mem_of_mem_take member)

theorem digits_drop (written : Digits digits) {count : Nat} (present : digits.drop count ≠ []) :
    Digits (digits.drop count) where
  present := present
  only c member := written.only c (List.mem_of_mem_drop member)

theorem digits_replicate_append (zeros : Nat) (written : Digits digits) :
    Digits (List.replicate zeros '0' ++ digits) where
  present := by simp [written.present]
  only c member := by
    rcases List.mem_append.mp member with zero | digit
    · rw [List.eq_of_mem_replicate zero]
      decide
    · exact written.only c digit

theorem digits_append_replicate (written : Digits digits) (zeros : Nat) :
    Digits (digits ++ List.replicate zeros '0') where
  present := by simp [written.present]
  only c member := by
    rcases List.mem_append.mp member with digit | zero
    · exact written.only c digit
    · rw [List.eq_of_mem_replicate zero]
      decide

theorem numberText_positional (leads : Leads digits leading) (minus : List Char)
    (signed : minus = [] ∨ minus = ['-']) : NumberText (minus ++ positional digits leading) := by
  unfold positional
  split
  · have places := digits_replicate_append ((-leading).toNat - 1) leads.written
    have number := NumberText.mk signed digits_zero (by simp) (.point places) .absent
    simpa using number
  · dsimp only
    have whole := digits_append_replicate (digits_take leads.written leading.toNat)
      (leading.toNat + 1 - digits.length)
    have alone : ∀ more, digits.take (leading.toNat + 1) ++
        List.replicate (leading.toNat + 1 - digits.length) '0' = '0' :: more → more = [] := by
      intro more same
      have first : digits.head? = some '0' := by
        obtain ⟨d, others, rfl⟩ := List.exists_cons_of_ne_nil leads.written.present
        rw [List.take_succ_cons, List.cons_append] at same
        rw [List.head?_cons, (List.cons.inj same).1]
      obtain ⟨rfl, rfl⟩ := leads.zero first
      simpa using same.symm
    have places : Digits (if (digits.drop (leading.toNat + 1)).isEmpty then ['0']
        else digits.drop (leading.toNat + 1)) := by
      split
      · exact digits_zero
      · rename_i present
        exact digits_drop leads.written (by simpa using present)
    have number := NumberText.mk signed whole alone (.point places) .absent
    simpa using number

theorem numberText_exponential (leads : Leads digits leading) (plusSign : Bool) (minus : List Char)
    (signed : minus = [] ∨ minus = ['-']) :
    NumberText (minus ++ exponential plusSign digits leading) := by
  have whole := digits_take leads.written 0
  have alone : ∀ more, digits.take 1 = '0' :: more → more = [] := by
    intro more same
    have one : (digits.take 1).length ≤ 1 := by simp
    rw [same, List.length_cons] at one
    exact List.length_eq_zero_iff.mp (by omega)
  have point : Fraction (if (digits.drop 1).isEmpty then [] else '.' :: digits.drop 1) := by
    split
    · exact .absent
    · rename_i present
      exact .point (digits_drop leads.written (by simpa using present))
  have sign : Lexeme.Sign (if leading < 0 then ['-'] else if plusSign then ['+'] else []) := by
    split
    · exact .inr (.inr rfl)
    · split
      · exact .inr (.inl rfl)
      · exact .inl rfl
  have power := Exponent.power (.inl rfl) sign (digits_toDigits leading.natAbs)
  have number := NumberText.mk signed whole alone point power
  simpa [exponential] using number

end Texts

theorem numberText_signed (sign : Float.Model.UnpackedFloat.Sign) {text : List Char}
    (either : ∀ minus, minus = [] ∨ minus = ['-'] → NumberText (minus ++ text)) :
    NumberText (signed sign text) := by
  cases sign with
  | negative => exact either ['-'] (.inr rfl)
  | positive => exact either [] (.inl rfl)

theorem numberText_of_write? {format : Format} {x : Float} {text : List Char}
    (written : format.write? x = some text) : NumberText text := by
  unfold write? at written
  split at written
  · cases written
  · cases written
  · cases written
    refine numberText_signed _ fun minus signs => ?_
    exact NumberText.mk signs digits_zero (by simp) (.point digits_zero) .absent
  · rename_i significand exponent pos _
    cases written
    refine numberText_signed _ fun minus signs => ?_
    have leads := leads_shortest pos exponent format.tie
    unfold magnitude
    dsimp only
    split
    · exact numberText_positional leads minus signs
    · exact numberText_exponential leads format.plusSign minus signs

theorem write?_isSome (format : Format) (x : Float) : (format.write? x).isSome = x.isFinite := by
  unfold write? Float.isFinite Float.Model.isFinite
  cases x.toModel.unpack <;> rfl

end EventQuery.Decimal.Format
