import EventQuery.Source.Text
import EventQuery.Token.Basic

set_option autoImplicit false

namespace EventQuery

/-- Which tokens are counted: trivia may be left out, and classes need not be told apart. -/
structure Counting where
  detailed : Bool
  trivia : Bool
  deriving DecidableEq, Inhabited

structure Tally where
  total : Nat
  classes : List (Token.Class × Nat)
  comments : Nat
  longestComment : Nat
  deepest : Nat
  deriving DecidableEq, Inhabited

namespace Tally

def zero : Tally := ⟨0, [], 0, 0, 0⟩

def increment (c : Token.Class) : List (Token.Class × Nat) → List (Token.Class × Nat)
  | [] => [(c, 1)]
  | (d, n) :: rest => if c = d then (d, n + 1) :: rest else (d, n) :: increment c rest

/-- The number of counted tokens of a class. -/
def ofClass (t : Tally) (c : Token.Class) : Nat := (t.classes.lookup c).getD 0

/-- Comments are counted even where trivia is left out. -/
def record (counting : Counting) (t : Tally) (token : Token) : Tally :=
  let comments := match token with
    | .comment _ => t.comments + 1
    | _ => t.comments
  if token.isTrivia && !counting.trivia then { t with comments }
  else
    { t with
      comments
      total := t.total + 1
      classes := if counting.detailed then increment token.tokenClass t.classes else t.classes }

/-- Keeps the greatest depth of open parentheses. -/
def reach (t : Tally) (depth : Nat) : Tally := { t with deepest := max t.deepest depth }

/-- Keeps the greatest length of a comment, in bytes. -/
def extend (t : Tally) (content : List Char) : Tally :=
  { t with longestComment := max t.longestComment (byteCount content) }

theorem lookup_increment (c d : Token.Class) (counts : List (Token.Class × Nat)) :
    ((increment c counts).lookup d).getD 0 =
      (counts.lookup d).getD 0 + if c = d then 1 else 0 := by
  induction counts with
  | nil =>
    by_cases same : d = c
    · simp [increment, same]
    · simp [increment, List.lookup_cons, beq_eq_false_iff_ne.2 same, Ne.symm same]
  | cons entry rest ih =>
    obtain ⟨e, n⟩ := entry
    by_cases here : c = e
    · by_cases same : d = e
      · simp [increment, here, same]
      · simp [increment, here, List.lookup_cons, beq_eq_false_iff_ne.2 same, Ne.symm same]
    · by_cases same : d = e
      · have apart : c ≠ d := same ▸ here
        simp [increment, here, same]
      · simp [increment, here, List.lookup_cons, beq_eq_false_iff_ne.2 same, ih]

end Tally

end EventQuery
