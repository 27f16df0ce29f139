import EventQuery.Proofs.Grammar.Derivation

set_option autoImplicit false

namespace EventQuery.Derivation

theorem Primary.tokens_eq_cons (p : Primary) :
    ∃ t rest, p.tokens = t :: rest ∧ (t.value = .leftParen ∨ ∃ lexeme, t.value = .number lexeme) := by
  cases p with
  | number numeral => exact ⟨_, _, rfl, .inr ⟨_, rfl⟩⟩
  | parens opening inside closing => exact ⟨_, _, rfl, .inl rfl⟩

theorem Product.tokens_eq_cons (p : Product) :
    ∃ t rest, p.tokens = t :: rest ∧ (t.value = .leftParen ∨ ∃ lexeme, t.value = .number lexeme) := by
  cases p with
  | last only => exact only.tokens_eq_cons
  | more first op rest =>
    obtain ⟨t, later, spelled, begins⟩ := first.tokens_eq_cons
    exact ⟨t, _, by rw [Product.tokens, spelled]; rfl, begins⟩

/-- A sum begins with a sign, a parenthesis or a number. -/
theorem Sum.tokens_eq_cons (s : Sum) :
    ∃ t rest, s.tokens = t :: rest ∧
      (t.value = .minus ∨ t.value = .leftParen ∨ ∃ lexeme, t.value = .number lexeme) := by
  have signed (sign : Option Span) (p : Product) (back : List (Located Token)) :
      ∃ t rest, optionalToken .minus sign ++ p.tokens ++ back = t :: rest ∧
        (t.value = .minus ∨ t.value = .leftParen ∨ ∃ lexeme, t.value = .number lexeme) := by
    obtain ⟨t, later, spelled, begins⟩ := p.tokens_eq_cons
    cases sign with
    | none => exact ⟨t, _, by rw [spelled]; rfl, .inr begins⟩
    | some span => exact ⟨_, _, rfl, .inl rfl⟩
  cases s with
  | last sign only => simpa [Sum.tokens] using signed sign only []
  | more sign first op rest => simpa [Sum.tokens] using signed sign first (op.token :: rest.tokens)

theorem Sum.tokens_ne_nil (s : Sum) : s.tokens ≠ [] := by
  obtain ⟨t, rest, spelled, -⟩ := s.tokens_eq_cons
  rw [spelled]
  exact List.cons_ne_nil t rest

/-- No operator of arithmetic. -/
def EndsSum (t : Token) : Prop := additive? t = none ∧ multiplicative? t = none

/-- Nothing that goes on from a formula. -/
def EndsFormula (t : Token) : Prop := EndsSum t ∧ logical? t = none

/-- Nothing that goes on from an operand. -/
def EndsOperand (t : Token) : Prop := EndsFormula t ∧ t ≠ .filterKeyword

/-- Nothing that goes on from a query. -/
def EndsQuery (t : Token) : Prop := EndsOperand t ∧ relational? t = none

theorem multiplicative?_of_additive? {t : Token} {op : Arithmetic.Operation}
    (known : additive? t = some op) : multiplicative? t = none := by
  cases t <;> first | rfl | cases known

theorem endsSum_of_logical? {t : Token} {kind : Query.Kind} (known : logical? t = some kind) :
    EndsSum t := by
  cases t <;> first | exact ⟨rfl, rfl⟩ | cases known

theorem endsOperand_of_relational? {t : Token} {kind : Query.Kind}
    (known : relational? t = some kind) : EndsOperand t := by
  cases t <;> first | exact ⟨⟨⟨rfl, rfl⟩, rfl⟩, Token.noConfusion⟩ | cases known

end EventQuery.Derivation
