import EventQuery.Log.Code
import EventQuery.Query.Tree

set_option autoImplicit false

namespace EventQuery.Query

inductive Defect where
  | wrongArity (kind : Kind) (found : Nat)
  | wrongChild (kind child : Kind) (index : Nat)
  | missingToken (kind : Kind)
  | missingValue
  deriving DecidableEq

namespace Defect

def message : Defect → String
  | wrongArity kind found =>
    kind.name ++ " node has " ++ toString found ++ " children, expected " ++ toString kind.arity
  | wrongChild kind child index =>
    kind.name ++ " node cannot have a " ++ child.name ++ " child at position " ++ toString index
  | missingToken kind => kind.name ++ " leaf is missing its token"
  | missingValue => "VALUE node is missing its number"

/-- Queries do not yield defective trees, so a defect is never a fault of the query. -/
def code (_ : Defect) : Code := .internalError

end Defect

def validateLeaf (kind : Kind) (token : Option (Located Token)) (value : Option Float) :
    Except Defect Unit :=
  if token.isNone then .error (.missingToken kind)
  else if kind = .value ∧ value.isNone then .error .missingValue
  else .ok ()

mutual

/-- Reports the first defect, a node before its children. -/
def validate : Query → Except Defect Unit
  | node kind children token value =>
    if children.length ≠ kind.arity then .error (.wrongArity kind children.length)
    else if kind.isLeaf then validateLeaf kind token value
    else validateAll kind (children.map Query.kind) 0 children

/-- Checks the children of a node of kind `parent` from the given place on. -/
def validateAll (parent : Kind) (kinds : List Kind) (index : Nat) :
    List Query → Except Defect Unit
  | [] => .ok ()
  | child :: rest =>
    if parent.accepts kinds index child.kind then
      match validate child with
      | .error defect => .error defect
      | .ok () => validateAll parent kinds (index + 1) rest
    else .error (.wrongChild parent child.kind index)

end

def isValid (q : Query) : Bool :=
  match q.validate with
  | .ok () => true
  | .error _ => false

end EventQuery.Query
