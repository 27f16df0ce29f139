import EventQuery.Grammar.Arithmetic

set_option autoImplicit false

namespace EventQuery.Grammar

def combine (kind : Query.Kind) (left right : Query) : Query := .branch kind [left, right]

/-- A variable and one of its properties with a dot between them. -/
def reference : Parser Query := do
  let name ← Parser.expectWord .variableName
  let _ ← Parser.expectToken .dot .dot
  let property ← Parser.expectWord .propertyName
  return .ofReference name property

def referenceFirst (budget : Nat) : Parser Query := do
  let left ← reference
  let op ← Parser.expectComparison
  let right ← Arithmetic.value budget
  return .ofPredicate left op right

def valueFirst (budget : Nat) : Parser Query := do
  let left ← Arithmetic.value budget
  let op ← Parser.expectComparison
  let right ← reference
  return .ofPredicate left op right

mutual

def formula (budget : Nat) : Parser Query := do
  let first ← condition budget
  Parser.climb filterConnectives.associativity filterConnective? combine budget
    (fun k _ => condition k) first
termination_by 2 * budget + 1

/-- An operand of connectives. What follows `not` is a whole formula. -/
def condition (budget : Nat) : Parser Query := do
  match ← Parser.peek with
  | .notKeyword =>
    Parser.nested budget fun k _ => do
      let _ ← Parser.advance
      return .branch .negation [← formula k]
  | .leftParen =>
    Parser.nested budget fun k _ => do
      let _ ← Parser.advance
      let inner ← formula k
      let _ ← Parser.expectToken .rightParen .closing
      return inner
  | .word _ => referenceFirst budget
  | _ => valueFirst budget
termination_by 2 * budget

end

end EventQuery.Grammar
