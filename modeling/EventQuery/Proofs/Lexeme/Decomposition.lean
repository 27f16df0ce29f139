import EventQuery.Lexeme.Scan
import EventQuery.Proofs.Lexeme.Limits

set_option autoImplicit false

namespace EventQuery.Lexeme

/-- A text with the token that it stands for. -/
structure Piece where
  text : List Char
  token : Token

/-- The text of a row of pieces. -/
def covered (pieces : List Piece) : List Char := pieces.flatMap (·.text)

@[simp] theorem covered_nil : covered [] = [] := rfl

@[simp] theorem covered_cons (piece : Piece) (rest : List Piece) :
    covered (piece :: rest) = piece.text ++ covered rest := rfl

theorem covered_append (front back : List Piece) :
    covered (front ++ back) = covered front ++ covered back := List.flatMap_append

/-- Pieces one behind the other, each at the place that its text takes up. -/
def placed (p : Position) : List Piece → List (Located Token)
  | [] => []
  | piece :: rest =>
    ⟨piece.token, ⟨p, p.advanceOver piece.text⟩⟩ :: placed (p.advanceOver piece.text) rest

theorem placed_append (p : Position) (front back : List Piece) :
    placed p (front ++ back) = placed p front ++ placed (p.advanceOver (covered front)) back := by
  induction front generalizing p with
  | nil => rfl
  | cons piece rest ih =>
    rw [List.cons_append, placed, placed, ih, List.cons_append, covered_cons,
      Position.advanceOver_append]

/-- Pushing pieces places them behind those that are there. -/
theorem foldl_push (pieces : List Piece) (b : StreamBuilder) :
    (pieces.foldl (fun b piece => b.push piece.token piece.text) b).tokens.toList =
      b.tokens.toList ++ placed b.position pieces := by
  induction pieces generalizing b with
  | nil => exact (List.append_nil _).symm
  | cons piece rest ih =>
    rw [List.foldl_cons, ih, placed]
    simp only [StreamBuilder.push, Array.toList_push, List.append_assoc, List.singleton_append]

/-- A closing parenthesis without an opening one leaves the depth at zero. -/
def depthBehind (depth : Nat) : Token → Nat
  | .leftParen => depth + 1
  | .rightParen => depth - 1
  | _ => depth

/-- The number of parentheses that are open behind the pieces. -/
def openDepth (pieces : List Piece) : Nat :=
  pieces.foldl (fun depth piece => depthBehind depth piece.token) 0

def significantCount (pieces : List Piece) : Nat := pieces.countP (·.token.isSignificant)

theorem openDepth_concat (before : List Piece) (piece : Piece) :
    openDepth (before ++ [piece]) = depthBehind (openDepth before) piece.token := by
  rw [openDepth, List.foldl_append]
  rfl

theorem significantCount_concat (before : List Piece) (piece : Piece) :
    significantCount (before ++ [piece]) =
      significantCount before + if piece.token.isSignificant then 1 else 0 := by
  rw [significantCount, List.countP_append, List.countP_singleton]
  rfl

/-- A lexeme that may not follow the pieces before it. What its own text breaks is found first, then
its depth, then the number of tokens. -/
inductive Exceeds (before : List Piece) (text : List Char) (token : Token) : LexicalFault → Prop where
  | size {fault : LexicalFault} (large : Oversized text fault) : Exceeds before text token fault
  | nesting (opens : token = .leftParen) (deep : 128 < openDepth before + 1) :
      Exceeds before text token (.nestingTooDeep (openDepth before + 1))
  | count (sized : ∀ fault, ¬ Oversized text fault)
      (shallow : token = .leftParen → openDepth before + 1 ≤ 128)
      (counts : token.isSignificant = true) (many : 10000 < significantCount before + 1) :
      Exceeds before text token .tooManyTokens

/-- Trivia is refused for its size only. -/
theorem Exceeds.oversized {before : List Piece} {text : List Char} {token : Token}
    {fault : LexicalFault} (exceeds : Exceeds before text token fault)
    (trivia : token.isSignificant = false) : Oversized text fault := by
  cases exceeds with
  | size large => exact large
  | nesting opens =>
    rw [opens] at trivia
    cases trivia
  | count _ _ counts =>
    rw [trivia] at counts
    cases counts

/-- What the pieces and the text behind them put together is a row of longest lexemes within all
limits, up to that text. -/
inductive Decomposes (source : List Char) : List Piece → List Char → Prop where
  | start : Decomposes source [] source
  | step {before : List Piece} {text rest : List Char} {token : Token}
      (reached : Decomposes source before (text ++ rest)) (longest : Longest text rest token)
      (within : ∀ fault, ¬ Exceeds before text token fault) :
      Decomposes source (before ++ [⟨text, token⟩]) rest

/-- What is wrong with the text behind a row of pieces. -/
inductive Refuses (before : List Piece) : List Char → LexicalFault → Prop where
  | unmatched {c : Char} {rest : List Char} (none : Unmatched (c :: rest)) :
      Refuses before (c :: rest) (.invalidCharacter c)
  | exceeding {text rest : List Char} {token : Token} {fault : LexicalFault}
      (longest : Longest text rest token) (exceeds : Exceeds before text token fault) :
      Refuses before (text ++ rest) fault

/-- Nothing of the source is left out. -/
theorem Decomposes.covers {source left : List Char} {pieces : List Piece}
    (decomposes : Decomposes source pieces left) : covered pieces ++ left = source := by
  induction decomposes with
  | start => rfl
  | step _ _ _ ih =>
    rw [covered_append, covered_cons, covered_nil, List.append_nil, List.append_assoc, ih]

theorem Decomposes.pattern {source left : List Char} {pieces : List Piece}
    (decomposes : Decomposes source pieces left) :
    ∀ piece ∈ pieces, Pattern piece.text piece.token := by
  induction decomposes with
  | start => exact fun _ absent => by cases absent
  | step _ longest _ ih =>
    intro piece member
    rcases List.mem_append.mp member with earlier | last
    · exact ih piece earlier
    · rw [List.mem_singleton.mp last]
      exact longest.fits

/-- A source is decomposed in one way, as far as it goes. -/
theorem Decomposes.unique {source left : List Char} {pieces : List Piece}
    (decomposes : Decomposes source pieces left) :
    ∀ {left' : List Char} {pieces' : List Piece}, Decomposes source pieces' left' →
      pieces.length = pieces'.length → pieces = pieces' ∧ left = left' := by
  induction decomposes with
  | start =>
    intro left' pieces' other length
    cases other with
    | start => exact ⟨rfl, rfl⟩
    | step =>
      rw [List.length_append] at length
      cases length
  | step _ longest _ ih =>
    intro left' pieces' other length
    rw [List.length_append] at length
    cases other with
    | start => cases length
    | step reached' longest' _ =>
      rw [List.length_append] at length
      obtain ⟨rfl, same⟩ := ih reached' (Nat.add_right_cancel length)
      obtain ⟨rfl, rfl, rfl⟩ := longest.unique longest' same
      exact ⟨rfl, rfl⟩

/-- Where a row of pieces goes on, every shorter row goes on with its next lexeme. -/
theorem Decomposes.exists_next {source left left' : List Char} {pieces pieces' : List Piece}
    (longer : Decomposes source pieces left) (shorter : Decomposes source pieces' left')
    (short : pieces'.length < pieces.length) :
    ∃ text rest token, left' = text ++ rest ∧ Longest text rest token ∧
      ∀ fault, ¬ Exceeds pieces' text token fault := by
  induction longer with
  | start => cases short
  | @step before text rest token reached longest within ih =>
    rw [List.length_append, List.length_singleton] at short
    by_cases inside : pieces'.length < before.length
    · exact ih inside
    · have length : before.length = pieces'.length := by omega
      obtain ⟨rfl, same⟩ := reached.unique shorter length
      exact ⟨text, rest, token, same.symm, longest, within⟩

/-- Where a lexeme comes next, only its limits are a reason to refuse it. -/
theorem Refuses.exceeds_of_longest {before : List Piece} {text rest : List Char} {token : Token}
    {fault : LexicalFault} (refuses : Refuses before (text ++ rest) fault)
    (longest : Longest text rest token) : Exceeds before text token fault := by
  generalize here : text ++ rest = left at refuses
  cases refuses with
  | unmatched none => exact absurd longest.fits (none text rest token here)
  | exceeding longest' exceeds =>
    obtain ⟨rfl, rfl, rfl⟩ := longest.unique longest' here
    exact exceeds

/-- What is refused behind one row of pieces is refused behind no other. -/
theorem Refuses.unique {source left left' : List Char} {pieces pieces' : List Piece}
    {fault fault' : LexicalFault} (refuses : Refuses pieces left fault)
    (refuses' : Refuses pieces' left' fault') (reached : Decomposes source pieces left)
    (reached' : Decomposes source pieces' left') : pieces = pieces' ∧ left = left' := by
  have not_longer {before after : List Piece} {here there : List Char} {found : LexicalFault}
      (ends : Refuses before here found) (part : Decomposes source before here)
      (whole : Decomposes source after there) : ¬ before.length < after.length := by
    intro short
    obtain ⟨text, rest, token, rfl, longest, within⟩ := whole.exists_next part short
    exact within found (ends.exceeds_of_longest longest)
  have least := not_longer refuses reached reached'
  have most := not_longer refuses' reached' reached
  exact reached.unique reached' (by omega)

/-- A row of pieces that reaches the end of the source is not continued, and neither is any other
row refused before it. -/
theorem Decomposes.end_unique {source left : List Char} {pieces pieces' : List Piece}
    (whole : Decomposes source pieces []) (part : Decomposes source pieces' left) :
    (left = [] → pieces' = pieces) ∧ ∀ fault, ¬ Refuses pieces' left fault := by
  have nonempty (text rest : List Char) (token : Token) (longest : Longest text rest token) :
      [] ≠ text ++ rest := by
    intro empty
    exact longest.fits.ne_nil (List.append_eq_nil_iff.mp empty.symm).1
  have within : ¬ pieces.length < pieces'.length := by
    intro short
    obtain ⟨text, rest, token, empty, longest, _⟩ := part.exists_next whole short
    exact nonempty text rest token longest empty
  by_cases short : pieces'.length < pieces.length
  · obtain ⟨text, rest, token, rfl, longest, fits⟩ := whole.exists_next part short
    exact ⟨fun empty => absurd empty.symm (nonempty text rest token longest),
      fun fault refuses => fits fault (refuses.exceeds_of_longest longest)⟩
  · obtain ⟨rfl, rfl⟩ := whole.unique part (by omega)
    refine ⟨fun _ => rfl, fun fault refuses => ?_⟩
    generalize ended : ([] : List Char) = left at refuses
    cases refuses with
    | unmatched => cases ended
    | exceeding longest => exact nonempty _ _ _ longest ended

end EventQuery.Lexeme
