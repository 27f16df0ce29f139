import EventQuery.Proofs.Lexeme.Decomposition
import EventQuery.Proofs.Token.Stream

set_option autoImplicit false

namespace EventQuery

namespace Lexeme

namespace Progress

/-- What a scan keeps is what the pieces before it come to. -/
structure Follows (p : Progress) (before : List Piece) : Prop where
  position : p.position = Position.start.advanceOver (covered before)
  depth : p.depth = openDepth before
  significant : p.significant = significantCount before
  tokens : p.tokens.reverse = placed .start before

theorem follows_start : Progress.start.Follows [] := ⟨rfl, rfl, rfl, rfl⟩

variable {p nested : Progress} {before : List Piece} {token : Token}

theorem nest_eq_ok (nests : p.nest token = .ok nested) :
    nested.position = p.position ∧ nested.depth = depthBehind p.depth token ∧
      nested.significant = p.significant ∧ nested.tokens = p.tokens ∧
      (token = .leftParen → p.depth + 1 ≤ 128) := by
  unfold nest at nests
  split at nests
  · split at nests
    · cases nests
    · rename_i shallow
      cases nests
      exact ⟨rfl, rfl, rfl, rfl, fun _ => Nat.not_lt.mp shallow⟩
  · cases nests
    exact ⟨rfl, rfl, rfl, rfl, fun opens => by cases opens⟩
  · cases nests
    exact ⟨rfl, rfl, rfl, rfl, fun opens => by cases opens⟩
  · rename_i noOpening noClosing _
    cases nests
    refine ⟨rfl, ?_, rfl, rfl, fun opens => absurd opens noOpening⟩
    cases token <;> first | rfl | exact absurd rfl noOpening | exact absurd rfl noClosing

theorem nest_eq_error {fault : LexicalFault} (fails : p.nest token = .error fault) :
    token = .leftParen ∧ 128 < p.depth + 1 ∧ fault = .nestingTooDeep (p.depth + 1) := by
  unfold nest at fails
  split at fails
  · split at fails
    · rename_i deep
      cases fails
      exact ⟨rfl, deep, rfl⟩
    · cases fails
  all_goals cases fails

/-- A token that is placed behind the others is one piece more. -/
theorem Follows.push (follows : p.Follows before) (nests : p.nest token = .ok nested)
    (counting : Counting) (text : List Char) :
    (nested.push counting token text).Follows (before ++ [⟨text, token⟩]) := by
  obtain ⟨position, depth, significant, tokens, _⟩ := nest_eq_ok nests
  have place : nested.position = Position.start.advanceOver (covered before) :=
    position.trans follows.position
  refine ⟨?_, ?_, ?_, ?_⟩
  · rw [covered_append, covered_cons, covered_nil, List.append_nil, Position.advanceOver_append,
      ← place]
    rfl
  · rw [openDepth_concat, ← follows.depth]
    exact depth
  · rw [significantCount_concat, ← follows.significant, ← significant]
    show (if token.isSignificant then nested.significant + 1 else nested.significant) = _
    split <;> rfl
  · rw [placed_append, ← follows.tokens, ← tokens, ← place]
    exact List.reverse_cons

end Progress

/-- How a scan ends. It has come to the end of a source that it has decomposed, or to a boundary
where it refuses what follows; what it keeps then is what it kept at the boundary, with the refused
token counted at most towards the depth and the lengths. Something that `holds` at every boundary
holds at this one. -/
inductive Ends (counting : Counting) (source : List Char) (holds : Progress → List Piece → Prop) :
    Scan → Prop
  | finished {p : Progress} {pieces : List Piece} (decomposes : Decomposes source pieces [])
      (follows : p.Follows pieces) (held : holds p pieces) :
      Ends counting source holds (.finished counting p)
  | failed {p q : Progress} {pieces : List Piece} {left : List Char} {fault : LexicalFault}
      (decomposes : Decomposes source pieces left) (follows : p.Follows pieces)
      (held : holds p pieces) (stayed : q = p ∨ ∃ token, p.nest token = .ok q)
      (refuses : Refuses pieces left fault) : Ends counting source holds (.failed q fault)

/-- What holds at a boundary holds at the next one. -/
def Kept (counting : Counting) (holds : Progress → List Piece → Prop) : Prop :=
  ∀ (p nested : Progress) (before : List Piece) (token : Token) (text : List Char),
    p.Follows before → holds p before → p.nest token = .ok nested →
      holds (nested.push counting token text) (before ++ [⟨text, token⟩])

section Scanning

variable {source left : List Char} {p : Progress} {before : List Piece}

theorem full_eq_true_iff {nested : Progress} (token : Token)
    (significant : nested.significant = significantCount before) :
    nested.full token = true ↔
      token.isSignificant = true ∧ 10000 < significantCount before + 1 := by
  rw [Progress.full, significant, Bool.and_eq_true, decide_eq_true_eq]
  rfl

/-- One step of a scan: a lexeme within the limits is one piece more, and the scan fails at the
place of one that is not. -/
theorem scanFrom_cons {l : Lexeme} {token : Token} (counting : Counting)
    (follows : p.Follows before) (fits : Pattern l.text token) (rest : List Lexeme) :
    (∃ nested, p.nest token = .ok nested ∧
        scanFrom counting p (l :: rest) = scanFrom counting (nested.push counting token l.text) rest ∧
        ∀ fault, ¬ Exceeds before l.text token fault) ∨
      ∃ (q : Progress) (fault : LexicalFault), (q = p ∨ p.nest token = .ok q) ∧
        scanFrom counting p (l :: rest) = Scan.failed q fault ∧
          Exceeds before l.text token fault := by
  rcases reads_pattern fits with ⟨read, sized⟩ | ⟨fault, read, large⟩
  · cases nests : p.nest token with
    | error fault =>
      right
      obtain ⟨opens, deep, rfl⟩ := Progress.nest_eq_error nests
      refine ⟨p, .nestingTooDeep (p.depth + 1), .inl rfl, ?_, ?_⟩
      · simp only [scanFrom, read, nests]
      · rw [follows.depth] at deep ⊢
        exact .nesting opens deep
    | ok nested =>
      obtain ⟨_, _, significant, _, shallow⟩ := Progress.nest_eq_ok nests
      rw [follows.depth] at shallow
      have fullness := full_eq_true_iff token (significant.trans follows.significant)
      by_cases full : nested.full token = true
      · right
        obtain ⟨counts, many⟩ := fullness.mp full
        refine ⟨nested, .tooManyTokens, .inr rfl, ?_, .count sized shallow counts many⟩
        simp only [scanFrom, read, nests, full, if_true]
      · left
        refine ⟨nested, rfl, ?_, ?_⟩
        · simp only [scanFrom, read, nests, full]
          rfl
        · intro fault exceeds
          cases exceeds with
          | size large => exact sized _ large
          | nesting opens deep =>
            have room := shallow opens
            omega
          | count _ _ counts many => exact full (fullness.mpr ⟨counts, many⟩)
  · right
    refine ⟨p, fault, .inl rfl, ?_, .size large⟩
    simp only [scanFrom, read]

/-- From every boundary of the decomposition, by induction on the lexemes that are left. -/
theorem ends_scanFrom {counting : Counting} {holds : Progress → List Piece → Prop}
    (kept : Kept counting holds) :
    ∀ {p : Progress} {before : List Piece}, p.Follows before → holds p before →
      Decomposes source before left →
        Ends counting source holds (scanFrom counting p (split left)) := by
  induction left using split_induction with
  | nil =>
    intro p before follows held decomposes
    rw [split_nil, scanFrom]
    exact .finished decomposes follows held
  | lexeme c rest ih =>
    intro p before follows held decomposes
    rw [split_cons]
    cases sensed : sense ⟨c, (munch c rest).1⟩ with
    | none =>
      rw [scanFrom, read_of_senseless sensed]
      exact .failed decomposes follows held (.inl rfl) (.unmatched (unmatched_of_sense sensed))
    | some token =>
      have fits : Pattern (text ⟨c, (munch c rest).1⟩) token := pattern_of_sense sensed
      have here : Decomposes source before (c :: (munch c rest).1 ++ (munch c rest).2) := by
        rwa [List.cons_append, munch_append]
      rcases scanFrom_cons counting follows fits (split (munch c rest).2) with
        ⟨nested, nests, stepped, within⟩ | ⟨q, fault, stayed, failed, exceeds⟩
      · rw [stepped]
        exact ih (follows.push nests counting _) (kept _ _ _ _ _ follows held nests)
          (here.step (longest_munch fits) within)
      · rw [failed]
        exact .failed here follows held (stayed.imp_right fun nests => ⟨token, nests⟩)
          (.exceeding (longest_munch fits) exceeds)

theorem ends_scan {counting : Counting} {holds : Progress → List Piece → Prop}
    (kept : Kept counting holds) (start : holds .start []) (source : List Char) :
    Ends counting source holds (scan counting source) :=
  ends_scanFrom kept Progress.follows_start start .start

end Scanning

/-- A scan that ends well has placed all pieces of the source and the end of the input behind them.
One that fails has come to a boundary of the decomposition and refuses what follows there. -/
def Explains (source : List Char) : Except LexicalError (List (Located Token)) → Prop
  | .ok tokens => ∃ pieces, Decomposes source pieces [] ∧
    tokens = placed .start pieces ++
      [⟨.endOfInput, .point (Position.start.advanceOver source)⟩]
  | .error e => ∃ pieces left, Decomposes source pieces left ∧
    e.position = Position.start.advanceOver (covered pieces) ∧ Refuses pieces left e.fault

theorem Progress.tokens_finished {source : List Char} {p : Progress} {pieces : List Piece}
    (counting : Counting) (follows : p.Follows pieces) (decomposes : Decomposes source pieces []) :
    (p.push counting .endOfInput []).tokens.reverse = placed .start pieces ++
      [⟨.endOfInput, .point (Position.start.advanceOver source)⟩] := by
  have whole : covered pieces = source := by
    rw [← decomposes.covers, List.append_nil]
  rw [← follows.tokens, ← whole, ← follows.position]
  exact List.reverse_cons

theorem Progress.position_stayed {p q : Progress} {pieces : List Piece} (follows : p.Follows pieces)
    (stayed : q = p ∨ ∃ token, p.nest token = .ok q) :
    q.position = Position.start.advanceOver (covered pieces) := by
  rcases stayed with rfl | ⟨token, nests⟩
  · exact follows.position
  · exact (nest_eq_ok nests).1.trans follows.position

theorem explains_scan (counting : Counting) (source : List Char) :
    Explains source (scan counting source).outcome := by
  have always : Kept counting fun _ _ => True := fun _ _ _ _ _ _ _ _ => trivial
  have ended := ends_scan always trivial source
  generalize scan counting source = found at ended ⊢
  cases ended with
  | finished decomposes follows _ =>
    exact ⟨_, decomposes, Progress.tokens_finished counting follows decomposes⟩
  | failed decomposes follows _ stayed refuses =>
    exact ⟨_, _, decomposes, Progress.position_stayed follows stayed, refuses⟩

theorem ofName_ne_end (text : List Char) : Token.ofName text ≠ .endOfInput := by
  unfold Token.ofName
  dsimp only
  repeat' split
  all_goals exact Token.noConfusion

/-- Only the end of the input is no lexeme. -/
theorem Pattern.ne_end {text : List Char} {token : Token} (fits : Pattern text token) :
    token ≠ .endOfInput := by
  cases fits with
  | name => exact ofName_ne_end _
  | symbol listed =>
    rintro rfl
    exact absurd listed (by simp [symbols])
  | _ => exact Token.noConfusion

theorem Decomposes.ne_end {source left : List Char} {pieces : List Piece}
    (decomposes : Decomposes source pieces left) :
    ∀ piece ∈ pieces, piece.token ≠ .endOfInput :=
  fun piece member => (decomposes.pattern piece member).ne_end

theorem placed_value {pieces : List Piece} :
    ∀ {p : Position}, ∀ t ∈ placed p pieces, ∃ piece ∈ pieces, t.value = piece.token := by
  induction pieces with
  | nil => exact fun _ absent => by cases absent
  | cons piece rest ih =>
    intro p t member
    rcases List.mem_cons.mp member with rfl | later
    · exact ⟨piece, List.mem_cons_self .., rfl⟩
    · obtain ⟨other, inside, same⟩ := ih t later
      exact ⟨other, List.mem_cons_of_mem _ inside, same⟩

/-- Placed pieces with the end of the input behind them are a stream. -/
theorem Decomposes.exists_stream {content left : List Char} {pieces : List Piece}
    (decomposes : Decomposes content pieces left) (finish : Span) (source : Option SourceText) :
    ∃ s, TokenStream.ofTokens (placed .start pieces ++ [⟨.endOfInput, finish⟩]) source = .ok s := by
  have ended : significantTokens (placed .start pieces ++ [⟨.endOfInput, finish⟩]) =
      significantTokens (placed .start pieces) ++ [⟨.endOfInput, finish⟩] := by
    rw [significantTokens, List.filter_append]
    rfl
  refine TokenStream.exists_ofTokens ended (fun t member => ?_) source
  obtain ⟨piece, inside, same⟩ := placed_value t (List.mem_filter.mp member).1
  rw [same]
  exact decomposes.ne_end piece inside

end Lexeme

open Lexeme

section Tokenizing

variable {counting : Counting} {source : SourceText}

/-- A stream has the tokens of its scan. -/
theorem scan_of_ok {stream : TokenStream} (ended : (tokenize counting source).outcome = .ok stream) :
    (scan counting source.content).outcome = .ok stream.tokens ∧ stream.source = some source := by
  rw [tokenize] at ended
  cases ran : (scan counting source.content).outcome with
  | error e => simp only [ran, Except.bind, reduceCtorEq] at ended
  | ok tokens =>
    cases made : TokenStream.ofTokens tokens (some source) with
    | error e =>
      simp only [ran, Except.bind, made] at ended
      cases ended
    | ok other =>
      simp only [ran, Except.bind, made] at ended
      cases ended
      obtain ⟨same, held⟩ := TokenStream.of_ofTokens made
      exact ⟨congrArg Except.ok same.symm, held⟩

/-- The tokens of a scan are always a stream, so every error is one of the scan. -/
theorem scan_of_error {e : LexicalError} (failed : (tokenize counting source).outcome = .error e) :
    (scan counting source.content).outcome = .error e := by
  have explained := explains_scan counting source.content
  rw [tokenize] at failed
  cases ran : (scan counting source.content).outcome with
  | error e =>
    simp only [ran, Except.bind, Except.error.injEq] at failed
    rw [failed]
  | ok tokens =>
    rw [ran] at explained
    obtain ⟨pieces, decomposes, rfl⟩ := explained
    obtain ⟨other, accepted⟩ := decomposes.exists_stream
      (.point (Position.start.advanceOver source.content)) (some source)
    simp only [ran, Except.bind, accepted] at failed
    cases failed

theorem exists_pieces_of_ok {stream : TokenStream}
    (ended : (tokenize counting source).outcome = .ok stream) :
    ∃ pieces, Decomposes source.content pieces [] ∧
      stream.tokens = placed .start pieces ++
        [⟨.endOfInput, .point (Position.start.advanceOver source.content)⟩] ∧
      stream.source = some source := by
  obtain ⟨ran, held⟩ := scan_of_ok ended
  have explained := explains_scan counting source.content
  rw [ran] at explained
  obtain ⟨pieces, decomposes, tokens⟩ := explained
  exact ⟨pieces, decomposes, tokens, held⟩

theorem exists_pieces_of_error {e : LexicalError}
    (failed : (tokenize counting source).outcome = .error e) :
    ∃ pieces left, Decomposes source.content pieces left ∧
      e.position = Position.start.advanceOver (covered pieces) ∧ Refuses pieces left e.fault := by
  have explained := explains_scan counting source.content
  rwa [scan_of_error failed] at explained

/-- A source that decomposes within all limits is tokenized. -/
theorem exists_stream_of_decomposes (counting : Counting) {pieces : List Piece}
    (decomposes : Decomposes source.content pieces []) :
    ∃ stream, (tokenize counting source).outcome = .ok stream ∧
      stream.tokens = placed .start pieces ++
        [⟨.endOfInput, .point (Position.start.advanceOver source.content)⟩] := by
  cases ran : (tokenize counting source).outcome with
  | error e =>
    obtain ⟨pieces', left, part, _, refuses⟩ := exists_pieces_of_error ran
    exact absurd refuses ((decomposes.end_unique part).2 e.fault)
  | ok stream =>
    obtain ⟨pieces', whole, tokens, _⟩ := exists_pieces_of_ok ran
    obtain rfl := (decomposes.end_unique whole).1 rfl
    exact ⟨stream, rfl, tokens⟩

end Tokenizing

/-- A tokenization that ends well decomposes the whole source into its longest lexemes, each within
all limits, and places their tokens over them with the end of the input behind. One that fails has
decomposed the source up to the place of its error, and refuses what stands there. -/
theorem tokenize_maximal_munch (counting : Counting) (source : SourceText) :
    match (tokenize counting source).outcome with
    | .ok stream => ∃ pieces, Decomposes source.content pieces [] ∧
        stream.tokens = placed .start pieces ++
          [⟨.endOfInput, .point (Position.start.advanceOver source.content)⟩]
    | .error e => ∃ pieces left, Decomposes source.content pieces left ∧
        e.position = Position.start.advanceOver (covered pieces) ∧
        Refuses pieces left e.fault := by
  split
  · rename_i stream ended
    obtain ⟨pieces, decomposes, tokens, _⟩ := exists_pieces_of_ok ended
    exact ⟨pieces, decomposes, tokens⟩
  · rename_i e failed
    exact exists_pieces_of_error failed

end EventQuery
