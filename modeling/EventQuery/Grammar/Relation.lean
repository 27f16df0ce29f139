import EventQuery.Grammar.Formula

set_option autoImplicit false

namespace EventQuery.Grammar

/-- A relation, `as`, and the variable that is bound to it. -/
def binding : Parser Query := do
  let relation ← Parser.advance
  let _ ← Parser.expectToken .asKeyword .asKeyword
  let name ← Parser.expectWord .variableName
  return .ofBinding relation name

/-- At most one plus repeats a term. -/
def repeated (inner : Query) : Parser Query := do
  if (← Parser.peek) = .plus then
    let _ ← Parser.advance
    return .branch .repetition [inner]
  else return inner

/-- A filter applies to what stands before it, repeated or not. -/
def filtered (budget : Nat) (inner : Query) : Parser Query := do
  if (← Parser.peek) = .filterKeyword then
    let _ ← Parser.advance
    return .branch .filter [inner, ← formula budget]
  else return inner

mutual

/-- Operands with `:` and `|` between them. -/
def query (budget : Nat) : Parser Query := do
  let first ← operand budget
  Parser.climb relationOperators.associativity relationOperator? combine budget
    (fun k _ => operand k) first
termination_by 3 * budget + 2

/-- A term with its plus and its filter. -/
def operand (budget : Nat) : Parser Query := do
  let inner ← term budget
  filtered budget (← repeated inner)
termination_by 3 * budget + 1

/-- A binding, or a query in parentheses. -/
def term (budget : Nat) : Parser Query := do
  match ← Parser.peek with
  | .leftParen =>
    Parser.nested budget fun k _ => do
      let _ ← Parser.advance
      let inner ← query k
      let _ ← Parser.expectToken .rightParen .closing
      return inner
  | .relation _ => binding
  | _ => Parser.fail .relation
termination_by 3 * budget

end

/-- A query that is followed by the end of the input. -/
def wholeQuery (budget : Nat) : Parser Query := do
  let tree ← query budget
  if (← get).atEnd then return tree else Parser.fail .endOfInput

end EventQuery.Grammar
