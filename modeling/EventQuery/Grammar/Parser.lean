import EventQuery.Token.Cursor

set_option autoImplicit false

namespace EventQuery

/-- Productions may be nested to this depth. -/
def maxNesting : Nat := 128

/-- What would have been accepted at the place of a fault. -/
inductive Expectation where
  | relation
  | closing
  | asKeyword
  | variableName
  | dot
  | propertyName
  | comparison
  | number
  | operand
  | endOfInput
  | shallower
  | described (text : String)
  deriving DecidableEq

def Expectation.text : Expectation → String
  | relation => "'(' or relation name"
  | closing => "')'"
  | asKeyword => "'as'"
  | variableName => "variable name"
  | dot => "'.'"
  | propertyName => "property name"
  | comparison => "comparison operator"
  | number => "number"
  | operand => "number or '('"
  | endOfInput => "end of input"
  | shallower => "expression nested at most " ++ toString maxNesting ++ " levels deep"
  | described text => text

/-- The current token does not fit, or a token was to be passed where there is none. -/
inductive Fault where
  | unexpected (expected : Expectation)
  | overrun (position : Nat)
  deriving DecidableEq

/-- `cursor` is at the token of the fault. The failed productions have left `opened` levels of
nesting open. -/
structure Failure where
  fault : Fault
  cursor : Cursor
  opened : Nat
  deriving DecidableEq

abbrev Parser := StateT Cursor (Except Failure)

namespace Parser

variable {α : Type}

def current : Parser (Located Token) := fun c => .ok (c.current, c)

def peek : Parser Token := fun c => .ok (c.current.value, c)

def fail (expected : Expectation) : Parser α := fun c => .error ⟨.unexpected expected, c, 0⟩

/-- Passes the current token. -/
def advance : Parser (Located Token) := fun c =>
  match c.next? with
  | some next => .ok (c.current, next)
  | none => .error ⟨.overrun c.passed, c.overrun, 0⟩

/-- Passes the current token if it is one of those accepted. -/
def expect (accepted : Token → Bool) (expected : Expectation) : Parser (Located Token) := do
  if accepted (← peek) then advance else fail expected

def expectToken (token : Token) (expected : Expectation) : Parser (Located Token) :=
  expect (· = token) expected

def expectWord (expected : Expectation) : Parser (Located Token) :=
  expect (·.word?.isSome) expected

def expectComparison : Parser (Located Token) :=
  expect (fun t => match t with | .comparison _ => true | _ => false) .comparison

/-- Runs a production one level deeper, which must be within the budget of levels. The level is
given back when the production ends, in either way. -/
def nested (budget : Nat) (production : (k : Nat) → k < budget → Parser α) : Parser α :=
  match budget, production with
  | 0, _ => fail .shallower
  | k + 1, production => production k (Nat.lt_succ_self k)

/-- Runs a production one level deeper. The level stays open when the production fails. -/
def keepingOpen (production : Parser α) : Parser α := fun c =>
  (production c).mapError fun f => { f with opened := f.opened + 1 }

end Parser

end EventQuery
