import EventQuery.Grammar.Relation
import EventQuery.Log.Code
import EventQuery.Text.Quoted

set_option autoImplicit false

namespace EventQuery

/-- A fault with the token it was found at and the name of the source. -/
structure SyntaxError where
  sourceName : String
  fault : Fault
  found : Located Token
  deriving DecidableEq

namespace SyntaxError

def code (_ : SyntaxError) : Code := .unexpectedToken

def span (e : SyntaxError) : Span := e.found.span

def foundText (e : SyntaxError) : String := e.found.value.describe

def expectedText (e : SyntaxError) : String :=
  match e.fault with
  | .unexpected expected => expected.text
  | .overrun _ => ""

def message (e : SyntaxError) : String :=
  match e.fault with
  | .unexpected expected =>
    e.sourceName ++ ":" ++ e.span.render ++ ": unexpected token '" ++ e.foundText ++
      "', expected " ++ expected.text
  | .overrun position => Cursor.overrunText position

/-- Whether a complete query was read and more input follows it. -/
def isTrailing (e : SyntaxError) : Bool := e.fault = .unexpected .endOfInput

end SyntaxError

/-- A named token stream that is being parsed. `depth` levels of nesting are open. -/
structure Session where
  sourceName : String
  cursor : Cursor
  depth : Nat

namespace Session

variable {α : Type}

def start (sourceName : String) (stream : TokenStream) : Session :=
  ⟨sourceName, .ofStream stream, 0⟩

/-- A new session that goes on where this one is. -/
def resume (s : Session) (sourceName : String) : Session := ⟨sourceName, s.cursor.renewed, 0⟩

/-- Runs a parser within the levels of nesting that are left. -/
def run (s : Session) (parser : Nat → Parser α) : Except SyntaxError α × Session :=
  match parser (maxNesting - s.depth) s.cursor with
  | .ok (result, cursor) => (.ok result, { s with cursor })
  | .error f =>
    (.error ⟨s.sourceName, f.fault, f.cursor.current⟩,
      { s with cursor := f.cursor, depth := s.depth + f.opened })

/-- Parses a query that must reach the end of the input, with all levels of nesting closed. -/
def parse (s : Session) : Except SyntaxError Query × Session :=
  run { s with depth := 0 } Grammar.wholeQuery

/-- Opens one level of nesting. -/
def enter (s : Session) : Except SyntaxError Session :=
  if maxNesting ≤ s.depth then
    .error ⟨s.sourceName, .unexpected .shallower, s.cursor.current⟩
  else .ok { s with depth := s.depth + 1 }

def leave (s : Session) : Session := { s with depth := s.depth - 1 }

def describe (s : Session) : String :=
  "CeplParser \x7b source_name: " ++ Text.quoted s.sourceName ++ ", tokens: " ++
    Text.quoted s.cursor.diagnostic ++ ", depth: " ++ toString s.depth ++ " \x7d"

end Session

/-- The query that a token stream spells. -/
def parseQuery (sourceName : String) (stream : TokenStream) : Except SyntaxError Query :=
  (Session.start sourceName stream).parse.1

end EventQuery
