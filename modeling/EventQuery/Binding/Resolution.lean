import EventQuery.Binding.Table
import EventQuery.Log.Code

/- Resolving variables. Bindings hold for the whole query, so a filter may refer to a variable
that is bound behind it; a reference to a variable that is bound nowhere is a fault. -/

set_option autoImplicit false

namespace EventQuery.Binding

/-- Binds sites one after the other and lists, in reverse, those that bind again. -/
def bindAll (t : Table) (again : List Site) : List Site → Table × List Site
  | [] => (t, again)
  | s :: rest => bindAll (t.bind s) (if t.rebinds s then s :: again else again) rest

/-- A reference to a variable that no relation is bound to. -/
structure ResolutionError where
  reference : Reference
  deriving DecidableEq

namespace ResolutionError

def code (_ : ResolutionError) : Code := .undefinedVariable

def span (e : ResolutionError) : Span := e.reference.span

def message (e : ResolutionError) : String :=
  "Undefined variable '" ++ e.reference.name ++ "' at " ++ e.span.render

end ResolutionError

/-- Adds references one after the other. -/
def referAll (t : Table) : List Reference → Except ResolutionError Table
  | [] => .ok t
  | r :: rest => if t.contains r.name then referAll (t.refer r) rest else .error ⟨r⟩

/-- The sites of a query that bind a variable to a further relation. -/
def reboundSites (q : Query) : List Site := (bindAll .empty [] q.sites).2.reverse

/-- The variables of a query, or the first reference to a variable that is not bound in it. -/
def resolve (q : Query) : Except ResolutionError Table :=
  referAll (bindAll .empty [] q.sites).1 q.references

end EventQuery.Binding
