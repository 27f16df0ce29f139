import EventQuery.Proofs.Grammar.Unfolding

set_option autoImplicit false

namespace EventQuery

namespace Parser

variable {α β ω : Type}

/-- The first parser does what the second one does, unless it runs out of levels of nesting. -/
def Curtails (p q : Parser α) : Prop :=
  ∀ c, p c = q c ∨ ∃ f, p c = .error f ∧ f.fault = .unexpected .shallower

namespace Curtails

theorem refl (p : Parser α) : Curtails p p := fun _ => .inl rfl

theorem shallower (q : Parser α) : Curtails (Parser.fail .shallower) q :=
  fun _ => .inr ⟨_, rfl, rfl⟩

theorem bind {p p' : Parser α} {q q' : α → Parser β} (first : Curtails p p')
    (second : ∀ a, Curtails (q a) (q' a)) : Curtails (p >>= q) (p' >>= q') := by
  intro c
  rcases first c with same | ⟨f, failed, limit⟩
  · cases ran : p c with
    | error f =>
      left
      rw [bind_of_error ran, bind_of_error (same.symm.trans ran)]
    | ok result =>
      obtain ⟨a, d⟩ := result
      rw [bind_of_ok ran, bind_of_ok (same.symm.trans ran)]
      exact second a d
  · exact .inr ⟨f, bind_of_error failed q, limit⟩

variable {budget larger : Nat}

theorem nested {production : (k : Nat) → k < budget → Parser α}
    {production' : (k : Nat) → k < larger → Parser α} (fewer : budget ≤ larger)
    (deeper : ∀ k k' below below', k ≤ k' → Curtails (production k below) (production' k' below')) :
    Curtails (Parser.nested budget production) (Parser.nested larger production') := by
  cases budget with
  | zero => exact shallower _
  | succ k =>
    cases larger with
    | zero => exact absurd fewer (Nat.not_succ_le_zero k)
    | succ k' =>
      exact deeper k k' (Nat.lt_succ_self k) (Nat.lt_succ_self k') (Nat.le_of_succ_le_succ fewer)

theorem chain {operator : Token → Option ω} {combine : ω → α → α → α} {head head' : Parser α}
    {rest rest' : Nat → Parser α} (fewer : budget ≤ larger) (first : Curtails head head')
    (others : ∀ k k', k < budget → k ≤ k' → Curtails (rest k) (rest' k')) :
    Curtails (Parser.chain operator combine budget head rest)
      (Parser.chain operator combine larger head' rest') := by
  apply first.bind
  intro a
  apply (refl peek).bind
  intro t
  split
  · exact refl _
  · apply nested fewer
    intro k k' below _ le
    apply (refl advance).bind
    intro _
    apply (others k k' below le).bind
    intro b
    exact refl _

theorem enclosed {inside inside' : Nat → Parser α} (fewer : budget ≤ larger)
    (deeper : ∀ k k', k < budget → k ≤ k' → Curtails (inside k) (inside' k')) :
    Curtails (Parser.enclosed budget inside) (Parser.enclosed larger inside') := by
  apply nested fewer
  intro k k' below _ le
  apply (refl advance).bind
  intro _
  apply (deeper k k' below le).bind
  intro a
  exact refl _

end Curtails

end Parser

open EventQuery.Parser (Curtails)

namespace Arithmetic

theorem signed_curtails (allowed : Bool) {operand operand' : Parser Float}
    (operands : Curtails operand operand') :
    Curtails (signed allowed operand) (signed allowed operand') := by
  apply (Curtails.refl Parser.peek).bind
  intro t
  split
  · apply (Curtails.refl Parser.advance).bind
    intro _
    apply operands.bind
    intro x
    exact .refl _
  · exact operands

mutual

theorem sum_curtails (budget larger : Nat) (fewer : budget ≤ larger) :
    Curtails (sum budget) (sum larger) := by
  rw [sum_eq, sum_eq]
  exact .chain fewer (signed_curtails true (product_curtails budget larger fewer))
    fun k k' below le => sum_curtails k k' le
termination_by 3 * budget + 2

theorem product_curtails (budget larger : Nat) (fewer : budget ≤ larger) :
    Curtails (product budget) (product larger) := by
  rw [product_eq, product_eq]
  exact .chain fewer (primary_curtails budget larger fewer)
    fun k k' below le => factors_curtails k k' le
termination_by 3 * budget + 1

theorem factors_curtails (budget larger : Nat) (fewer : budget ≤ larger) :
    Curtails (factors budget) (factors larger) := by
  rw [factors_eq, factors_eq]
  exact .chain fewer (signed_curtails true (primary_curtails budget larger fewer))
    fun k k' below le => factors_curtails k k' le
termination_by 3 * budget + 1

theorem primary_curtails (budget larger : Nat) (fewer : budget ≤ larger) :
    Curtails (primary budget) (primary larger) := by
  rw [primary_eq, primary_eq]
  apply (Curtails.refl Parser.peek).bind
  intro t
  split
  · exact .enclosed fewer fun k k' below le => sum_curtails k k' le
  · exact .refl _
  · exact .refl _
termination_by 3 * budget

end

theorem value_curtails {budget larger : Nat} (fewer : budget ≤ larger) :
    Curtails (value budget) (value larger) := by
  apply (Curtails.refl Parser.current).bind
  intro first
  apply (sum_curtails budget larger fewer).bind
  intro x
  exact .refl _

end Arithmetic

namespace Grammar

theorem referenceFirst_curtails {budget larger : Nat} (fewer : budget ≤ larger) :
    Curtails (referenceFirst budget) (referenceFirst larger) := by
  apply (Curtails.refl reference).bind
  intro left
  apply (Curtails.refl Parser.expectComparison).bind
  intro op
  apply (Arithmetic.value_curtails fewer).bind
  intro right
  exact .refl _

theorem valueFirst_curtails {budget larger : Nat} (fewer : budget ≤ larger) :
    Curtails (valueFirst budget) (valueFirst larger) := by
  apply (Arithmetic.value_curtails fewer).bind
  intro left
  exact .refl _

mutual

theorem formula_curtails (budget larger : Nat) (fewer : budget ≤ larger) :
    Curtails (formula budget) (formula larger) := by
  rw [formula_eq, formula_eq]
  exact .chain fewer (condition_curtails budget larger fewer)
    fun k k' below le => formula_curtails k k' le
termination_by 2 * budget + 1

theorem condition_curtails (budget larger : Nat) (fewer : budget ≤ larger) :
    Curtails (condition budget) (condition larger) := by
  rw [condition_eq, condition_eq]
  apply (Curtails.refl Parser.peek).bind
  intro t
  split
  · apply Curtails.nested fewer
    intro k k' below _ le
    apply (Curtails.refl Parser.advance).bind
    intro _
    apply (formula_curtails k k' le).bind
    intro inner
    exact .refl _
  · exact .enclosed fewer fun k k' below le => formula_curtails k k' le
  · exact referenceFirst_curtails fewer
  · exact valueFirst_curtails fewer
termination_by 2 * budget

end

theorem filtered_curtails {budget larger : Nat} (fewer : budget ≤ larger) (inner : Query) :
    Curtails (filtered budget inner) (filtered larger inner) := by
  apply (Curtails.refl Parser.peek).bind
  intro t
  split
  · apply (Curtails.refl Parser.advance).bind
    intro _
    apply (formula_curtails budget larger fewer).bind
    intro held
    exact .refl _
  · exact .refl _

mutual

theorem query_curtails (budget larger : Nat) (fewer : budget ≤ larger) :
    Curtails (query budget) (query larger) := by
  rw [query_eq, query_eq]
  exact .chain fewer (operand_curtails budget larger fewer)
    fun k k' below le => query_curtails k k' le
termination_by 3 * budget + 2

theorem operand_curtails (budget larger : Nat) (fewer : budget ≤ larger) :
    Curtails (operand budget) (operand larger) := by
  rw [operand, operand]
  apply (term_curtails budget larger fewer).bind
  intro inner
  apply (Curtails.refl (repeated inner)).bind
  intro often
  exact filtered_curtails fewer often
termination_by 3 * budget + 1

theorem term_curtails (budget larger : Nat) (fewer : budget ≤ larger) :
    Curtails (term budget) (term larger) := by
  rw [term_eq, term_eq]
  apply (Curtails.refl Parser.peek).bind
  intro t
  split
  · exact .enclosed fewer fun k k' below le => query_curtails k k' le
  · exact .refl _
  · exact .refl _
termination_by 3 * budget

end

theorem wholeQuery_curtails {budget larger : Nat} (fewer : budget ≤ larger) :
    Curtails (wholeQuery budget) (wholeQuery larger) := by
  apply (query_curtails budget larger fewer).bind
  intro tree
  exact .refl _

end Grammar

end EventQuery
