import EventQuery.Decimal.Format
import EventQuery.Query.Kind
import EventQuery.Source.Position
import EventQuery.Token.Basic

set_option autoImplicit false

namespace EventQuery

/-- A node has a kind and children in order. Leaves hold the token that they were read from, and
values the number that their text writes. -/
inductive Query where
  | node (kind : Query.Kind) (children : List Query) (token : Option (Located Token))
      (value : Option Float)

namespace Query

instance : Inhabited Query := ⟨.node default [] none none⟩

def kind : Query → Kind
  | node kind _ _ _ => kind

def children : Query → List Query
  | node _ children _ _ => children

def token : Query → Option (Located Token)
  | node _ _ token _ => token

def value : Query → Option Float
  | node _ _ _ value => value

/-- What holds of every node whose children it holds of holds of every tree. -/
@[elab_as_elim]
theorem nested_induction {motive : Query → Prop}
    (node : ∀ kind children token value,
      (∀ child ∈ children, motive child) → motive (.node kind children token value))
    (tree : Query) : motive tree :=
  Query.rec (motive_1 := motive) (motive_2 := fun children => ∀ child ∈ children, motive child)
    (fun kind children token value held => node kind children token value held)
    (fun _ absent => nomatch absent)
    (fun _ _ first others _ member => by
      cases member with
      | head => exact first
      | tail _ later => exact others _ later)
    tree

def branch (kind : Kind) (children : List Query) : Query := .node kind children none none

def leaf (kind : Kind) (token : Located Token) : Query := .node kind [] (some token) none

def ofBinding (relation name : Located Token) : Query :=
  branch .binding [leaf .relationName relation, leaf .variableName name]

def ofReference (name property : Located Token) : Query :=
  branch .reference [leaf .variableName name, leaf .propertyName property]

def ofPredicate (left : Query) (op : Located Token) (right : Query) : Query :=
  branch .predicate [left, leaf .comparison op, right]

/-- A value stands for the whole expression that it was computed from. -/
def ofValue (number : Float) (span : Span) : Query :=
  .node .value [] (some ⟨.number (String.ofList (Decimal.valueText number)), span⟩) (some number)

def text? (q : Query) : Option String := q.token.map (·.value.text)

def text (q : Query) : String := q.text?.getD ""

mutual

/-- The range of the token of a node, or the ranges below it put together. -/
def span? : Query → Option Span
  | node _ _ (some token) _ => some token.span
  | node _ children none _ => spanOfAll none children

/-- Extends a range over those of the trees that have one. -/
def spanOfAll (covered : Option Span) : List Query → Option Span
  | [] => covered
  | q :: rest =>
    match covered, span? q with
    | some s, some t => spanOfAll (some (s.merge t)) rest
    | some s, none => spanOfAll (some s) rest
    | none, found => spanOfAll found rest

end

mutual

/-- Every node with its level below the root, a node before its children. -/
def outline (level : Nat) : Query → List (Nat × Query)
  | node kind children token value =>
    (level, node kind children token value) :: outlineAll (level + 1) children

def outlineAll (level : Nat) : List Query → List (Nat × Query)
  | [] => []
  | q :: rest => outline level q ++ outlineAll level rest

end

/-- The nodes of a tree, a node before its children. -/
def nodes (q : Query) : List Query := (q.outline 0).map Prod.snd

mutual

def nodeCount : Query → Nat
  | node _ children _ _ => 1 + nodeCountAll children

def nodeCountAll : List Query → Nat
  | [] => 0
  | q :: rest => nodeCount q + nodeCountAll rest

end

mutual

/-- The number of nodes on the longest way down from the root. -/
def depth : Query → Nat
  | node _ children _ _ => 1 + depthOfAll children

def depthOfAll : List Query → Nat
  | [] => 0
  | q :: rest => max (depth q) (depthOfAll rest)

end

mutual

/-- Whether two trees have the same kinds, numbers and structure, and tokens that `alike` accepts.
Numbers are compared as numbers: zeros are equal, and what is no number differs from itself. -/
def agrees (alike : Option (Located Token) → Option (Located Token) → Bool) :
    Query → Query → Bool
  | node kind children token value, other =>
    kind = other.kind && alike token other.token && value == other.value &&
      agreesAll alike children other.children

def agreesAll (alike : Option (Located Token) → Option (Located Token) → Bool) :
    List Query → List Query → Bool
  | [], [] => true
  | q :: rest, r :: others => agrees alike q r && agreesAll alike rest others
  | _, _ => false

end

def sameText (s t : Option (Located Token)) : Bool :=
  s.map (·.value.text) = t.map (·.value.text)

/-- The same tree apart from places in the source. -/
def sameShape (q r : Query) : Bool := agrees sameText q r

/-- The same tree, places included. -/
def same (q r : Query) : Bool := agrees (fun s t => s = t) q r

end Query

end EventQuery
