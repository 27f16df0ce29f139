import EventQuery.Json.Library
import EventQuery.Query.Tree

set_option autoImplicit false

namespace EventQuery

namespace Comparison

def jsonName : Comparison → String
  | less => "LessThan"
  | lessOrEqual => "LessThanOrEqual"
  | greater => "GreaterThan"
  | greaterOrEqual => "GreaterThanOrEqual"
  | equal => "Equals"
  | notEqual => "NotEquals"

def ofJsonName? (name : String) : Option Comparison := all.find? (·.jsonName = name)

end Comparison

namespace Token

def jsonName : Token → String
  | leftParen => "LeftParen"
  | rightParen => "RightParen"
  | relation _ => "Relation"
  | asKeyword => "As"
  | word _ => "Word"
  | plus => "Plus"
  | colon => "Colon"
  | pipe => "Pipe"
  | filterKeyword => "Filter"
  | notKeyword => "Not"
  | connective _ => "FilterOp"
  | comparison _ => "Comparison"
  | dot => "Dot"
  | minus => "Minus"
  | times => "Multiply"
  | divide => "Divide"
  | number _ => "Number"
  | space => "Space"
  | tab => "Tab"
  | newline => "Newline"
  | comment _ => "Comment"
  | endOfInput => "Eof"

/-- The tokens that carry nothing. -/
def plain : List Token :=
  [leftParen, rightParen, asKeyword, plus, colon, pipe, filterKeyword, notKeyword, dot, minus,
    times, divide, space, tab, newline, endOfInput]

/-- The tokens that carry a text, without it. -/
def withText : List (String → Token) := [relation, word, connective, number, comment]

def plainOfName? (name : String) : Option Token := plain.find? (·.jsonName = name)

def withTextOfName? (name : String) : Option (String → Token) :=
  withText.find? fun make => (make "").jsonName = name

/-- A token that carries something is paired with it. -/
def toJson (lib : Json.Library) (t : Token) : Json :=
  match t with
  | relation text | word text | connective text | number text | comment text =>
    lib.newtypeVariant t.jsonName (lib.string text)
  | comparison op => lib.newtypeVariant t.jsonName (lib.unitVariant op.jsonName)
  | _ => lib.unitVariant t.jsonName

end Token

namespace Query

def Kind.jsonName : Kind → String
  | binding => "Assign"
  | relationName => "Relation"
  | variableName => "Variable"
  | repetition => "Kleene"
  | sequence => "Seq"
  | alternative => "Or"
  | filter => "Filter"
  | negation => "PredNot"
  | predicate => "Predicate"
  | comparison => "PredOp"
  | reference => "VarProp"
  | propertyName => "Property"
  | value => "Value"
  | conjunction => "PredAnd"
  | disjunction => "PredOr"

def Kind.ofJsonName? (name : String) : Option Kind := all.find? (·.jsonName = name)

end Query

section Writing

variable (lib : Json.Library)

def Position.toJson (p : Position) : Json :=
  lib.record
    [("offset", lib.nat p.offset), ("line", lib.nat p.line.toNat),
      ("column", lib.nat p.column.toNat)]

def Span.toJson (s : Span) : Json :=
  lib.record [("start", s.start.toJson lib), ("end", s.stop.toJson lib)]

namespace Query

def tokenToJson : Option (Located Token) → Json
  | none => .null
  | some t => lib.record [("value", t.value.toJson lib), ("span", t.span.toJson lib)]

def numberToJson : Option Float → Json
  | none => .null
  | some x => lib.float x

mutual

def toJson : Query → Json
  | node kind children token value =>
    lib.record
      [("kind", lib.unitVariant kind.jsonName), ("children", lib.row (toJsonAll children)),
        ("token", tokenToJson lib token), ("value", numberToJson lib value)]

def toJsonAll : List Query → List Json
  | [] => []
  | q :: rest => toJson q :: toJsonAll rest

end

end Query

end Writing

namespace Query

section Reading

variable (lib : Json.Library)

/-- A variant that carries nothing, alone or paired with null. The argument bounds the nesting. -/
def plainVariant? (depth : Nat) (j : Json) : Option String :=
  match lib.variant? j with
  | some (name, none) => some name
  | some (name, some .null) => if depth = 0 then none else some name
  | _ => none

def readComparison? (depth : Nat) (j : Json) : Option Comparison :=
  (plainVariant? lib depth j).bind Comparison.ofJsonName?

def readToken? (depth : Nat) (j : Json) : Option Token :=
  match lib.variant? j with
  | some (name, none) => Token.plainOfName? name
  | some (name, some content) =>
    if depth = 0 then none
    else if name = "Comparison" then (readComparison? lib (depth - 1) content).map .comparison
    else
      match Token.withTextOfName? name with
      | some make => (lib.string? content).map make
      | none =>
        match content with
        | .null => Token.plainOfName? name
        | _ => none
  | none => none

def greatestOffset : Nat := UInt64.size - 1

def greatestColumn : Nat := UInt32.size - 1

def readPosition? : Nat → Json → Option Position
  | 0, _ => none
  | _ + 1, j =>
    match lib.fields? ["offset", "line", "column"] j with
    | some [some offset, some line, some column] => do
      return ⟨← lib.nat? greatestOffset offset, .ofNat (← lib.nat? greatestColumn line),
        .ofNat (← lib.nat? greatestColumn column)⟩
    | _ => none

def readSpan? : Nat → Json → Option Span
  | 0, _ => none
  | depth + 1, j =>
    match lib.fields? ["start", "end"] j with
    | some [some start, some stop] => do
      return ⟨← readPosition? lib depth start, ← readPosition? lib depth stop⟩
    | _ => none

def readLocated? : Nat → Json → Option (Located Token)
  | 0, _ => none
  | depth + 1, j =>
    match lib.fields? ["value", "span"] j with
    | some [some value, some span] => do
      return ⟨← readToken? lib depth value, ← readSpan? lib depth span⟩
    | _ => none

/-- Reads a tree. The first argument bounds the nesting of the document: a node and the row of its
children take one level each. Parts that are ignored count for nothing. -/
def ofJson? : Nat → Json → Option Query
  | 0, _ => none
  | depth + 1, j =>
    match lib.fields? ["kind", "children", "token", "value"] j with
    | some [some kind, some children, token, value] => do
      let kind ← (plainVariant? lib depth kind).bind Kind.ofJsonName?
      let children ← lib.entries? children
      let children ← match depth with
        | 0 => none
        | below + 1 => children.mapM (ofJson? below)
      let token ← lib.optional? (readLocated? lib depth) token
      let value ← lib.optional? lib.float? value
      return .node kind children token value
    | _ => none

/-- The tree that a text writes. -/
def readText? (text : String) : Option Query :=
  (lib.read? text.toList).bind (ofJson? lib lib.maxDepth)

end Reading

end Query

end EventQuery
