import EventQuery.Query.Tree

set_option autoImplicit false

namespace EventQuery

namespace Binding

/-- A relation and the variable bound to it, with the place of the variable. -/
structure Site where
  relation : String
  name : String
  span : Span
  deriving DecidableEq

/-- A property asked of a variable, with the place of the variable. -/
structure Reference where
  name : String
  property : String
  span : Span
  deriving DecidableEq

end Binding

open Binding (Site Reference)

namespace Query

def span (q : Query) : Span := q.span?.getD .origin

/-- Binding nodes without two children bind nothing. -/
def site? (q : Query) : Option Site :=
  match q.kind, q.children with
  | .binding, relation :: name :: _ => some ⟨relation.text, name.text, name.span⟩
  | _, _ => none

def reference? (q : Query) : Option Reference :=
  match q.kind, q.children with
  | .reference, name :: property :: _ => some ⟨name.text, property.text, name.span⟩
  | _, _ => none

def sites (q : Query) : List Site := q.nodes.filterMap site?

def references (q : Query) : List Reference := q.nodes.filterMap reference?

end Query

end EventQuery
