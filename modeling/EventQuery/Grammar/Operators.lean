import EventQuery.Grammar.Chain
import EventQuery.Query.Tree

set_option autoImplicit false

namespace EventQuery

/-- `a : b` is followed by, `a | b` is a choice. -/
def relationOperators : OperatorTable Query.Kind :=
  ⟨[(":", .sequence), ("|", .alternative)], none, .right⟩

/-- Every connective that is not `or` is a conjunction. -/
def filterConnectives : OperatorTable Query.Kind :=
  ⟨[("or", .disjunction)], some .conjunction, .right⟩

def relationOperator? (t : Token) : Option Query.Kind :=
  t.symbol?.bind relationOperators.find?

def filterConnective? : Token → Option Query.Kind
  | .connective text => filterConnectives.find? text
  | _ => none

namespace Arithmetic

inductive Operation where
  | add
  | subtract
  | multiply
  | divide
  deriving DecidableEq

/-- Division by zero gives an infinity or what is no number. -/
def Operation.apply : Operation → Float → Float → Float
  | add, x, y => x + y
  | subtract, x, y => x - y
  | multiply, x, y => x * y
  | divide, x, y => x / y

/-- Operators that bind equally tight, and whether a minus may stand before the first operand of a
chain and before the later ones. -/
structure Level where
  table : OperatorTable Operation
  headSigned : Bool
  tailSigned : Bool

def Level.operator? (level : Level) (t : Token) : Option Operation :=
  t.symbol?.bind level.table.find?

/-- The loosest level first. A sign in a sum negates the whole product after it; in a product only
the later factors may have one. -/
def levels : List Level :=
  [⟨⟨[("+", .add), ("-", .subtract)], none, .right⟩, true, true⟩,
   ⟨⟨[("*", .multiply), ("/", .divide)], none, .right⟩, false, true⟩]

end Arithmetic

end EventQuery
