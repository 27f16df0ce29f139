import EventQuery.Token.Stream

set_option autoImplicit false

namespace EventQuery

/-- `passed` tokens lie behind the cursor and `ahead` are still to come before the end of the
input, which is at `finish`. The token passed last was at `last`. -/
structure Cursor where
  passed : Nat
  ahead : List (Located Token)
  finish : Span
  last : Span
  deriving DecidableEq

namespace Cursor

def current (c : Cursor) : Located Token :=
  match c.ahead with
  | [] => ⟨.endOfInput, c.finish⟩
  | t :: _ => t

/-- The cursor before the first token. Nothing was passed, so `last` is the empty range there. -/
def ofStream (s : TokenStream) : Cursor :=
  let c : Cursor := ⟨0, s.content, s.finish, .origin⟩
  { c with last := .point c.current.span.start }

/-- The same place, as if nothing had been passed. -/
def renewed (c : Cursor) : Cursor := { c with last := .point c.current.span.start }

def atEnd (c : Cursor) : Bool := c.ahead.isEmpty

/-- Passes one token. At the end of the input there is none. -/
def next? (c : Cursor) : Option Cursor :=
  match c.ahead with
  | [] => none
  | t :: rest => some ⟨c.passed + 1, rest, c.finish, t.span⟩

/-- What an attempt to pass the end of the input leaves behind. -/
def overrun (c : Cursor) : Cursor := { c with last := c.finish }

def overrunText (position : Nat) : String :=
  "advance() called at end of input (position " ++ toString position ++ ")"

/-- Place and current token, as shown in diagnostics. -/
def diagnostic (c : Cursor) : String :=
  "TokenStream(pos: " ++ toString c.passed ++ "/" ++ toString (c.passed + c.ahead.length + 1) ++
    ", current: '" ++ c.current.value.describe ++ "' at " ++ c.current.span.render ++ ")"

end Cursor

end EventQuery
