import EventQuery.Decimal.Numeral

set_option autoImplicit false

namespace EventQuery

/-- A piece of source text with at least one character. -/
structure Lexeme where
  first : Char
  more : List Char
  deriving DecidableEq

namespace Lexeme

def text (l : Lexeme) : List Char := l.first :: l.more

/-- Names begin with an ASCII letter or an underscore. -/
def beginsName (c : Char) : Bool := c.isAlpha || c = '_'

def continuesName (c : Char) : Bool := c.isAlphanum || c = '_'

def endsLine (c : Char) : Bool := c = '\n' || c = '\r'

/-- Moves the characters before the first that fails `keep` behind those already taken. -/
def takeRun (keep : Char → Bool) (taken rest : List Char) : List Char × List Char :=
  (taken ++ rest.takeWhile keep, rest.dropWhile keep)

def beginsWithDigit : List Char → Bool
  | d :: _ => isDigit d
  | [] => false

/-- A fraction is taken only when a digit follows the point. -/
def takeFraction : List Char × List Char → List Char × List Char
  | (taken, '.' :: rest) =>
    if beginsWithDigit rest then takeRun isDigit (taken ++ ['.']) rest else (taken, '.' :: rest)
  | parts => parts

def splitSign : List Char → List Char × List Char
  | '+' :: rest => (['+'], rest)
  | '-' :: rest => (['-'], rest)
  | rest => ([], rest)

/-- An exponent is taken only when a digit follows its letter and its sign, if there is one. -/
def takeExponent : List Char × List Char → List Char × List Char
  | (taken, e :: rest) =>
    let (sign, digits) := splitSign rest
    if (e = 'e' ∨ e = 'E') ∧ beginsWithDigit digits then
      takeRun isDigit (taken ++ e :: sign) digits
    else (taken, e :: rest)
  | parts => parts

/-- Takes `second` when it is next. -/
def takeChar (second : Char) : List Char → List Char × List Char
  | c :: more => if c = second then ([c], more) else ([], c :: more)
  | [] => ([], [])

/-- The characters that the longest lexeme beginning with `first` takes, and those after it. -/
def munch (first : Char) (rest : List Char) : List Char × List Char :=
  if isDigit first then takeExponent (takeFraction (takeRun isDigit [] rest))
  else if beginsName first then takeRun continuesName [] rest
  else if first = '#' then takeRun (fun c => !endsLine c) [] rest
  else if first = '\r' then takeChar '\n' rest
  else if first = '<' ∨ first = '>' ∨ first = '=' ∨ first = '!' then takeChar '=' rest
  else ([], rest)

theorem takeRun_append (keep : Char → Bool) (taken rest : List Char) :
    (takeRun keep taken rest).1 ++ (takeRun keep taken rest).2 = taken ++ rest := by
  simp [takeRun, List.takeWhile_append_dropWhile]

theorem takeFraction_append (parts : List Char × List Char) :
    (takeFraction parts).1 ++ (takeFraction parts).2 = parts.1 ++ parts.2 := by
  unfold takeFraction
  split
  · split
    · simp [takeRun_append]
    · rfl
  · rfl

theorem splitSign_append (rest : List Char) : (splitSign rest).1 ++ (splitSign rest).2 = rest := by
  unfold splitSign
  split <;> rfl

theorem takeExponent_append (parts : List Char × List Char) :
    (takeExponent parts).1 ++ (takeExponent parts).2 = parts.1 ++ parts.2 := by
  unfold takeExponent
  split
  · dsimp only
    split
    · simp [takeRun_append, splitSign_append]
    · rfl
  · rfl

theorem takeChar_append (second : Char) (rest : List Char) :
    (takeChar second rest).1 ++ (takeChar second rest).2 = rest := by
  unfold takeChar
  split
  · split <;> rfl
  · rfl

/-- No character is lost, and none is added. -/
theorem munch_append (first : Char) (rest : List Char) :
    (munch first rest).1 ++ (munch first rest).2 = rest := by
  unfold munch
  split
  · simp [takeExponent_append, takeFraction_append, takeRun_append]
  · split
    · simp [takeRun_append]
    · split
      · simp [takeRun_append]
      · split
        · exact takeChar_append ..
        · split
          · exact takeChar_append ..
          · rfl

theorem length_munch_rest (first : Char) (rest : List Char) :
    (munch first rest).2.length ≤ rest.length := by
  have whole := congrArg List.length (munch_append first rest)
  rw [List.length_append] at whole
  omega

/-- Adds the lexemes of a source to those found before it, the last one first. -/
def splitOnto (found : List Lexeme) : List Char → List Lexeme
  | [] => found
  | c :: rest => splitOnto (⟨c, (munch c rest).1⟩ :: found) (munch c rest).2
termination_by source => source.length
decreasing_by exact Nat.lt_succ_of_le (length_munch_rest c rest)

/-- The lexemes of a source in order. -/
def split (source : List Char) : List Lexeme := (splitOnto [] source).reverse

/-- What holds of the empty source and is handed on from behind a lexeme holds of every source. -/
theorem split_induction {motive : List Char → Prop} (nil : motive [])
    (lexeme : ∀ c rest, motive (munch c rest).2 → motive (c :: rest)) :
    ∀ source, motive source
  | [] => nil
  | c :: rest => lexeme c rest (split_induction nil lexeme (munch c rest).2)
termination_by source => source.length
decreasing_by exact Nat.lt_succ_of_le (length_munch_rest c rest)

theorem splitOnto_append (found before : List Lexeme) (source : List Char) :
    splitOnto (found ++ before) source = splitOnto found source ++ before := by
  induction source using split_induction generalizing found with
  | nil => simp [splitOnto]
  | lexeme c rest ih => rw [splitOnto, splitOnto, ← ih, List.cons_append]

@[simp] theorem split_nil : split [] = [] := by simp [split, splitOnto]

/-- Splitting takes one lexeme and goes on behind it. -/
theorem split_cons (c : Char) (rest : List Char) :
    split (c :: rest) = ⟨c, (munch c rest).1⟩ :: split (munch c rest).2 := by
  have apart := splitOnto_append [] [⟨c, (munch c rest).1⟩] (munch c rest).2
  rw [List.nil_append] at apart
  rw [split, splitOnto, apart, List.reverse_append, split]
  rfl

end Lexeme

end EventQuery
