import EventQuery.Proofs.Lexeme.Decomposition

/- Decompositions are local. Whether pieces decompose a text is a matter of each piece, what was
opened and counted before it and the text behind it. So a decomposition may be cut between any
two pieces: with less before a piece no limit is nearer, and with less behind it no lexeme is
longer. -/

set_option autoImplicit false

namespace EventQuery.Lexeme

/-- A piece that is the longest lexeme in front of the text behind it, and that may follow the pieces
before it. -/
structure Fits (before : List Piece) (piece : Piece) (rest : List Char) : Prop where
  longest : Longest piece.text rest piece.token
  within : ∀ fault, ¬ Exceeds before piece.text piece.token fault

section Deciding

variable {source left : List Char} {before pieces : List Piece}

theorem Decomposes.fits (decomposes : Decomposes source pieces left) :
    ∀ front piece back, pieces = front ++ piece :: back →
      Fits front piece (covered back ++ left) := by
  induction decomposes with
  | start =>
    intro front piece back same
    cases front <;> cases same
  | @step before text rest token reached longest within ih =>
    intro front piece back same
    rcases List.eq_nil_or_concat back with rfl | ⟨inner, last, rfl⟩
    · obtain ⟨rfl, here⟩ := List.append_inj' same rfl
      cases here
      exact ⟨longest, within⟩
    · rw [List.concat_eq_append, ← List.cons_append, ← List.append_assoc] at same
      obtain ⟨earlier, here⟩ := List.append_inj' same rfl
      cases here
      have fits := ih front piece inner earlier
      rwa [List.concat_eq_append, covered_append, covered_cons, covered_nil, List.append_nil,
        List.append_assoc]

/-- By induction on the pieces that are left, each of them one step. -/
theorem Decomposes.extend (reached : Decomposes source before (covered pieces ++ left))
    (fits : ∀ front piece back, pieces = front ++ piece :: back →
      Fits (before ++ front) piece (covered back ++ left)) :
    Decomposes source (before ++ pieces) left := by
  induction pieces generalizing before with
  | nil => rwa [List.append_nil]
  | cons piece rest ih =>
    have first : Fits before piece (covered rest ++ left) := by
      simpa using fits [] piece rest rfl
    rw [covered_cons, List.append_assoc] at reached
    have stepped := reached.step first.longest first.within
    have onward : ∀ front other back, rest = front ++ other :: back →
        Fits (before ++ [piece] ++ front) other (covered back ++ left) := by
      intro front other back same
      have later := fits (piece :: front) other back (by rw [same, List.cons_append])
      rwa [List.append_assoc, List.singleton_append]
    have whole := ih stepped onward
    rwa [List.append_assoc, List.singleton_append] at whole

theorem decomposes_of_fits
    (fits : ∀ front piece back, pieces = front ++ piece :: back →
      Fits front piece (covered back ++ left)) :
    Decomposes (covered pieces ++ left) pieces left := by
  have reached : Decomposes (covered pieces ++ left) [] (covered pieces ++ left) := .start
  exact reached.extend fits

end Deciding

theorem Longest.shorten {text rest more : List Char} {token : Token}
    (longest : Longest text (rest ++ more) token) : Longest text rest token where
  fits := longest.fits
  greatest := by
    intro front back other here others
    have longer : front ++ (back ++ more) = text ++ (rest ++ more) := by
      rw [← List.append_assoc, here, List.append_assoc]
    exact longest.greatest front (back ++ more) other longer others

theorem depthBehind_mono {depth depth' : Nat} (le : depth ≤ depth') (t : Token) :
    depthBehind depth t ≤ depthBehind depth' t := by
  unfold depthBehind
  split <;> omega

theorem foldl_depthBehind_mono (pieces : List Piece) :
    ∀ {depth depth' : Nat}, depth ≤ depth' →
      pieces.foldl (fun depth piece => depthBehind depth piece.token) depth ≤
        pieces.foldl (fun depth piece => depthBehind depth piece.token) depth' := by
  induction pieces with
  | nil => exact fun le => le
  | cons piece rest ih => exact fun le => ih (depthBehind_mono le piece.token)

/-- What was opened before a piece can only add to the depth, since closing stops at zero. -/
theorem openDepth_le_append (front back : List Piece) :
    openDepth back ≤ openDepth (front ++ back) := by
  rw [openDepth, openDepth, List.foldl_append]
  exact foldl_depthBehind_mono back (Nat.zero_le _)

theorem significantCount_le_append (front back : List Piece) :
    significantCount back ≤ significantCount (front ++ back) := by
  rw [significantCount, significantCount, List.countP_append]
  exact Nat.le_add_left ..

/-- A lexeme within all limits stays so behind pieces that open and count no more, in any text of its
token that is not too large by itself. -/
theorem within_of_le {before before' : List Piece} {text text' : List Char} {token : Token}
    (within : ∀ fault, ¬ Exceeds before text token fault)
    (sized : ∀ fault, ¬ Oversized text' fault) (depth : openDepth before' ≤ openDepth before)
    (count : significantCount before' ≤ significantCount before) :
    ∀ fault, ¬ Exceeds before' text' token fault := by
  intro fault exceeds
  have shallow : token = .leftParen → openDepth before + 1 ≤ 128 := by
    intro opens
    apply Nat.le_of_not_lt
    exact fun deep => within _ (.nesting opens deep)
  cases exceeds with
  | size large => exact sized fault large
  | nesting opens deep =>
    have room := shallow opens
    omega
  | count _ _ counts many =>
    have room : ¬ 10000 < significantCount before + 1 := fun full =>
      within _ (.count (fun fault large => within fault (.size large)) shallow counts full)
    omega

theorem Fits.not_oversized {before : List Piece} {piece : Piece} {rest : List Char}
    (fits : Fits before piece rest) (fault : LexicalFault) : ¬ Oversized piece.text fault :=
  fun large => fits.within fault (.size large)

section Cutting

variable {source left : List Char} {front back : List Piece}

/-- The pieces before a cut decompose the text before it. -/
theorem Decomposes.before_cut (decomposes : Decomposes source (front ++ back) left) :
    Decomposes (covered front) front [] := by
  have cut : Decomposes (covered front ++ []) front [] := by
    apply decomposes_of_fits
    intro before piece behind same
    have whole : front ++ back = before ++ piece :: (behind ++ back) := by
      rw [same, List.append_assoc, List.cons_append]
    have fits := decomposes.fits before piece (behind ++ back) whole
    have longest : Longest piece.text (covered behind ++ (covered back ++ left)) piece.token := by
      rw [← List.append_assoc, ← covered_append]
      exact fits.longest
    rw [List.append_nil]
    exact ⟨longest.shorten, fits.within⟩
  rwa [List.append_nil] at cut

/-- The pieces behind a cut decompose the text behind it. -/
theorem Decomposes.behind_cut (decomposes : Decomposes source (front ++ back) left) :
    Decomposes (covered back ++ left) back left := by
  apply decomposes_of_fits
  intro before piece behind same
  have whole : front ++ back = (front ++ before) ++ piece :: behind := by
    rw [same, List.append_assoc]
  have fits := decomposes.fits (front ++ before) piece behind whole
  have within := within_of_le fits.within fits.not_oversized (openDepth_le_append front before)
    (significantCount_le_append front before)
  exact ⟨fits.longest, within⟩

end Cutting

end EventQuery.Lexeme
