set_option autoImplicit false

namespace EventQuery

/-- Offsets count bytes from 0. Lines and columns count from 1, columns in characters, and both
begin again from 0 behind the greatest 32-bit number. -/
structure Position where
  offset : Nat
  line : UInt32
  column : UInt32
  deriving DecidableEq, Inhabited

namespace Position

/-- The place before the first character. -/
def start : Position := ⟨0, 1, 1⟩

/-- The place after `c`: only a line feed begins a new line. -/
def advance (p : Position) (c : Char) : Position :=
  if c = '\n' then ⟨p.offset + 1, p.line + 1, 1⟩
  else ⟨p.offset + c.utf8Size, p.line, p.column + 1⟩

def advanceOver (p : Position) (text : List Char) : Position :=
  text.foldl advance p

/-- Earlier offset first, then line, then column. -/
def order (p q : Position) : Ordering :=
  (compare p.offset q.offset).then ((compare p.line q.line).then (compare p.column q.column))

def render (p : Position) : String :=
  toString p.line ++ ":" ++ toString p.column

@[simp] theorem advanceOver_nil (p : Position) : p.advanceOver [] = p := rfl

@[simp] theorem advanceOver_cons (p : Position) (c : Char) (text : List Char) :
    p.advanceOver (c :: text) = (p.advance c).advanceOver text := rfl

theorem advanceOver_append (p : Position) (front back : List Char) :
    p.advanceOver (front ++ back) = (p.advanceOver front).advanceOver back :=
  List.foldl_append

end Position

structure Span where
  start : Position
  stop : Position
  deriving DecidableEq, Inhabited

namespace Span

/-- The empty range at `p`. -/
def point (p : Position) : Span := ⟨p, p⟩

/-- The range of nodes that stand for no text of their own. -/
def origin : Span := point Position.start

/-- The least range that covers both; on equal offsets the first range gives the end point. -/
def merge (s t : Span) : Span :=
  { start := if t.start.offset < s.start.offset then t.start else s.start
    stop := if s.stop.offset < t.stop.offset then t.stop else s.stop }

def size (s : Span) : Nat := s.stop.offset - s.start.offset

def isEmpty (s : Span) : Bool := s.start.offset = s.stop.offset

/-- A range is reported by the place where it starts. -/
def render (s : Span) : String := s.start.render

end Span

/-- A value with the range of source text it was read from. -/
structure Located (α : Type) where
  value : α
  span : Span
  deriving DecidableEq, Inhabited

end EventQuery
