set_option autoImplicit false

namespace EventQuery.Query

inductive Kind where
  | binding
  | relationName
  | variableName
  | repetition
  | sequence
  | alternative
  | filter
  | negation
  | predicate
  | comparison
  | reference
  | propertyName
  | value
  | conjunction
  | disjunction
  deriving DecidableEq, Inhabited

namespace Kind

def all : List Kind :=
  [binding, relationName, variableName, repetition, sequence, alternative, filter, negation,
    predicate, comparison, reference, propertyName, value, conjunction, disjunction]

def name : Kind → String
  | binding => "ASSIGN"
  | relationName => "RELATION"
  | variableName => "VARIABLE"
  | repetition => "KLEENE"
  | sequence => "SEQ"
  | alternative => "OR"
  | filter => "FILTER"
  | negation => "PRED_NOT"
  | predicate => "PREDICATE"
  | comparison => "PRED_OP"
  | reference => "VAR_PROP"
  | propertyName => "PROPERTY"
  | value => "VALUE"
  | conjunction => "PRED_AND"
  | disjunction => "PRED_OR"

def ofName? (text : String) : Option Kind := all.find? (·.name = text)

def arity : Kind → Nat
  | relationName | variableName | comparison | propertyName | value => 0
  | repetition | negation => 1
  | binding | sequence | alternative | filter | reference | conjunction | disjunction => 2
  | predicate => 3

def isLeaf (k : Kind) : Bool := k.arity = 0

/-- Kinds that denote a relation between events. -/
def isRelational : Kind → Bool
  | binding | repetition | sequence | alternative | filter => true
  | _ => false

/-- Kinds that denote a condition in a filter. -/
def isFormula : Kind → Bool
  | negation | predicate | conjunction | disjunction => true
  | _ => false

/-- A predicate compares a property with a number, in either order. -/
def comparable : Option Kind → Option Kind → Bool
  | some .reference, some .value | some .value, some .reference => true
  | _, _ => false

/-- Whether a node of kind `parent`, whose children have the kinds `children`, may have a child of
kind `child` at the given place among them. -/
def accepts (parent : Kind) (children : List Kind) (index : Nat) (child : Kind) : Bool :=
  match parent with
  | binding => child = if index = 0 then relationName else variableName
  | reference => child = if index = 0 then variableName else propertyName
  | repetition | sequence | alternative => child.isRelational
  | filter => if index = 0 then child.isRelational else child.isFormula
  | negation | conjunction | disjunction => child.isFormula
  | predicate =>
    if index = 1 then child = comparison else comparable children[0]? children[2]?
  | relationName | variableName | comparison | propertyName | value => false

theorem ofName?_name (k : Kind) : ofName? k.name = some k := by
  cases k <;> decide +kernel

end Kind

end EventQuery.Query
