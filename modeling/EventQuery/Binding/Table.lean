import EventQuery.Binding.Site
import EventQuery.Query.Json

set_option autoImplicit false

namespace EventQuery.Binding

/-- A bound variable: its relations in order, its properties by name, the place of its first
binding and the number of its bindings. -/
structure Variable where
  name : String
  relations : List String
  properties : List String
  span : Span
  count : Nat
  deriving DecidableEq

def Variable.isRebound (v : Variable) : Bool := 1 < v.relations.length

/-- Variables in the order of their first bindings. Their places in the table are their numbers. -/
structure Table where
  entries : List Variable
  deriving DecidableEq

/-- Adds a text to texts in order, unless it is there. -/
def insertText (text : String) : List String → List String
  | [] => [text]
  | t :: rest =>
    if text = t then t :: rest
    else if text < t then text :: t :: rest
    else t :: insertText text rest

namespace Table

def empty : Table := ⟨[]⟩

def find? (t : Table) (name : String) : Option Variable := t.entries.find? (·.name = name)

def contains (t : Table) (name : String) : Bool := (t.find? name).isSome

/-- The number of a variable. -/
def id? (t : Table) (name : String) : Option Nat := t.entries.findIdx? (·.name = name)

def get? (t : Table) (id : Nat) : Option Variable := t.entries[id]?

def size (t : Table) : Nat := t.entries.length

def isEmpty (t : Table) : Bool := t.entries.isEmpty

def update (t : Table) (name : String) (change : Variable → Variable) : Table :=
  ⟨t.entries.map fun v => if v.name = name then change v else v⟩

/-- Whether a site binds a variable that is bound already to a further relation. -/
def rebinds (t : Table) (s : Site) : Bool :=
  match t.find? s.name with
  | some v => !v.relations.contains s.relation
  | none => false

def addRelation (relation : String) (v : Variable) : Variable :=
  { v with
    count := v.count + 1
    relations := if v.relations.contains relation then v.relations
      else v.relations ++ [relation] }

def bind (t : Table) (s : Site) : Table :=
  if t.contains s.name then t.update s.name (addRelation s.relation)
  else ⟨t.entries ++ [⟨s.name, [s.relation], [], s.span, 1⟩]⟩

def refer (t : Table) (r : Reference) : Table :=
  t.update r.name fun v => { v with properties := insertText r.property v.properties }

/-- The number of different pairs of a variable and its property. -/
def referenceCount (t : Table) : Nat :=
  t.entries.foldr (fun v count => v.properties.length + count) 0

def variableToJson (lib : Json.Library) (id : Nat) (v : Variable) : Json :=
  lib.record [("name", lib.string v.name), ("id", lib.nat id),
    ("relations", lib.row (v.relations.map lib.string)),
    ("properties", lib.row (v.properties.map lib.string)),
    ("binding_span", v.span.toJson lib), ("binding_count", lib.nat v.count)]

def toJson (lib : Json.Library) (t : Table) : Json :=
  lib.record [("variables", lib.row (t.entries.zipIdx.map fun (v, id) => variableToJson lib id v))]

/-- One line for each variable: its number, name, relations and properties. -/
def listing (t : Table) : List String :=
  t.entries.zipIdx.map fun (v, id) =>
    "  #" ++ toString id ++ " " ++ v.name ++ ": " ++ " | ".intercalate v.relations ++ " [" ++
      ", ".intercalate v.properties ++ "]"

end Table

end EventQuery.Binding
