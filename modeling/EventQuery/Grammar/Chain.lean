import EventQuery.Grammar.Parser

set_option autoImplicit false

namespace EventQuery

/-- `a op b op c` is grouped as `(a op b) op c` or as `a op (b op c)`. -/
inductive Associativity where
  | left
  | right
  deriving DecidableEq

/-- Operators by their text. The fallback stands for texts without a row. -/
structure OperatorTable (ω : Type) where
  rows : List (String × ω)
  fallback : Option ω
  associativity : Associativity

namespace OperatorTable

variable {ω : Type}

def find? (table : OperatorTable ω) (text : String) : Option ω :=
  (table.rows.lookup text).or table.fallback

def symbols (table : OperatorTable ω) : List String := table.rows.map Prod.fst

end OperatorTable

namespace Parser

variable {α ω : Type}

/-- Each operator takes the operand after it into what was combined before. Its level of nesting
is given back at the end of the chain. -/
def climbLeft (operator : Token → Option ω) (combine : ω → α → α → α) :
    (budget : Nat) → ((k : Nat) → k < budget → Parser α) → α → Parser α
  | 0, _, first => do
    match operator (← peek) with
    | none => return first
    | some _ => fail .shallower
  | budget + 1, operand, first => do
    match operator (← peek) with
    | none => return first
    | some op =>
      keepingOpen do
        let _ ← advance
        let next ← operand budget (Nat.lt_succ_self _)
        climbLeft operator combine budget (fun k h => operand k (Nat.lt_succ_of_lt h))
          (combine op first next)

/-- Each operator combines the operand before it with the whole chain after it. -/
def climbRight (operator : Token → Option ω) (combine : ω → α → α → α) :
    (budget : Nat) → ((k : Nat) → k < budget → Parser α) → α → Parser α
  | 0, _, first => do
    match operator (← peek) with
    | none => return first
    | some _ => fail .shallower
  | budget + 1, operand, first => do
    match operator (← peek) with
    | none => return first
    | some op =>
      let _ ← advance
      let next ← operand budget (Nat.lt_succ_self _)
      let rest ← climbRight operator combine budget (fun k h => operand k (Nat.lt_succ_of_lt h))
        next
      return combine op first rest

/-- Reads the chain that continues `first`. Every operator takes its operand one level deeper. -/
def climb (associativity : Associativity) (operator : Token → Option ω)
    (combine : ω → α → α → α) (budget : Nat) (operand : (k : Nat) → k < budget → Parser α)
    (first : α) : Parser α :=
  match associativity with
  | .left => climbLeft operator combine budget operand first
  | .right => climbRight operator combine budget operand first

end Parser

end EventQuery
