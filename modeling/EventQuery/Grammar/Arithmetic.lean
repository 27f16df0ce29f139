import EventQuery.Decimal.Numeral
import EventQuery.Grammar.Operators

set_option autoImplicit false

namespace EventQuery.Arithmetic

/-- Reads an operand, negated if a minus stands before it where one is allowed. -/
def signed (allowed : Bool) (operand : Parser Float) : Parser Float := do
  if allowed && (← Parser.peek) = .minus then
    let _ ← Parser.advance
    return -(← operand)
  else operand

/-- A numeral is computed before it is passed. -/
def number (lexeme : String) : Parser Float :=
  match Decimal.readFloat? lexeme.toList with
  | none => Parser.fail .number
  | some x => do
    let _ ← Parser.advance
    return x

private theorem nested_measure {k budget n : Nat} (below : k < budget) :
    k * (n + 1) + n < budget * (n + 1) := by
  have step := Nat.mul_le_mul_right (n + 1) (Nat.succ_le_of_lt below)
  rw [Nat.succ_mul] at step
  omega

private theorem tail_measure {k budget n : Nat} (below : k < budget) (rest : Nat) :
    k * (n + 1) + rest < budget * (n + 1) + (rest + 1) := by
  have step := Nat.mul_le_mul_right (n + 1) (Nat.le_of_lt below)
  omega

/-- Reads an expression of the levels that are left, the loosest first. Below the tightest level
stand numerals and expressions of all levels in parentheses. -/
def expression (levels : List Level) (budget : Nat) : List Level → Parser Float
  | [] => do
    match ← Parser.peek with
    | .leftParen =>
      Parser.nested budget fun k _ => do
        let _ ← Parser.advance
        let x ← expression levels k levels
        let _ ← Parser.expectToken .rightParen .closing
        return x
    | .number lexeme => number lexeme
    | _ => Parser.fail .operand
  | level :: tighter => do
    let first ← signed level.headSigned (expression levels budget tighter)
    Parser.climb level.table.associativity level.operator? Operation.apply budget
      (fun k _ => signed level.tailSigned (expression levels k tighter)) first
termination_by rest => budget * (levels.length + 1) + rest.length
decreasing_by
  · exact nested_measure (by assumption)
  · exact Nat.lt_succ_self _
  · exact tail_measure (by assumption) _

def evaluate (levels : List Level) (budget : Nat) : Parser Float :=
  expression levels budget levels

/-- Reads an expression into a value that covers it. -/
def value (budget : Nat) : Parser Query := do
  let first ← Parser.current
  let x ← evaluate levels budget
  let c ← get
  return .ofValue x (first.span.merge c.last)

end EventQuery.Arithmetic
