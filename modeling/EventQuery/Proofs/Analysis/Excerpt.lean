import EventQuery.Proofs.Analysis.Outcome
import EventQuery.Proofs.Binding.Spelling
import EventQuery.Proofs.Binding.Summary
import EventQuery.Proofs.Grammar.Concurrence
import EventQuery.Proofs.Lexeme.Respelling
import EventQuery.Proofs.Lexeme.Tiling
import EventQuery.Proofs.Source.Line

/- Excerpts of a source show what an error is about. Every error of an analysis has a range
without line ends, which is that of a significant token or the place of a character that was
refused, so its line is shown and the carets stand under it. -/

set_option autoImplicit false

namespace EventQuery

open Lexeme

namespace Lexeme

theorem isSignificant_ofName (text : List Char) : (Token.ofName text).isSignificant = true := by
  unfold Token.ofName
  dsimp only
  repeat' split
  all_goals rfl

/-- A text that begins with a character within a line. -/
def BeginsWithinLine (text : List Char) : Prop :=
  ∃ c more, text = c :: more ∧ c ≠ '\r' ∧ c ≠ '\n'

theorem Pattern.beginsWithinLine {text : List Char} {token : Token} (fits : Pattern text token)
    (significant : token.isSignificant = true) : BeginsWithinLine text := by
  obtain ⟨c, more, rfl⟩ := List.exists_cons_of_ne_nil fits.ne_nil
  have inside := fits.endsLine_eq_false significant c List.mem_cons_self
  exact ⟨c, more, rfl, (endsLine_eq_false_iff c).mp inside⟩

theorem Oversized.beginsWithinLine {text : List Char} {fault : LexicalFault}
    (large : Oversized text fault) : BeginsWithinLine text := by
  cases large with
  | number numeral => exact (Pattern.number numeral).beginsWithinLine rfl
  | name named => exact (Pattern.name named).beginsWithinLine (isSignificant_ofName text)
  | comment => exact ⟨'#', _, rfl, by decide, by decide⟩

/-- Line ends are never refused. -/
theorem Refuses.beginsWithinLine {before : List Piece} {left : List Char} {fault : LexicalFault}
    (refuses : Refuses before left fault) : BeginsWithinLine left := by
  cases refuses with
  | @unmatched c rest none =>
    refine ⟨c, rest, rfl, ?_, ?_⟩
    · rintro rfl
      exact none ['\r'] rest .newline rfl (.newline (.inr (.inl rfl)))
    · rintro rfl
      exact none ['\n'] rest .newline rfl (.newline (.inl rfl))
  | @exceeding text rest token fault longest exceeds =>
    have begins : BeginsWithinLine text := by
      cases exceeds with
      | size large => exact large.beginsWithinLine
      | nesting opens =>
        subst opens
        exact longest.fits.beginsWithinLine rfl
      | count _ _ counts => exact longest.fits.beginsWithinLine counts
    obtain ⟨c, more, rfl, inside⟩ := begins
    exact ⟨c, more ++ rest, rfl, inside⟩

end Lexeme

section Ranges

variable {counting : Counting} {source : SourceText} {stream : TokenStream}

/-- A lexical error is found at a character within a line of the source. -/
theorem exists_char_of_error {e : LexicalError}
    (refused : (tokenize counting source).outcome = .error e) :
    ∃ front c back, source.content = front ++ c :: back ∧ (c ≠ '\r' ∧ c ≠ '\n') ∧
      e.position = Position.start.advanceOver front := by
  obtain ⟨pieces, left, decomposes, place, refuses⟩ := exists_pieces_of_error refused
  obtain ⟨c, back, rfl, inside⟩ := refuses.beginsWithinLine
  exact ⟨covered pieces, c, back, decomposes.covers.symm, inside, place⟩

/-- Significant tokens lie within lines. -/
theorem unbroken_of_mem_significant (ended : (tokenize counting source).outcome = .ok stream)
    {t : Located Token} (member : t ∈ stream.significant) : source.Unbroken t.span := by
  obtain ⟨pieces, decomposes, tokens, _⟩ := exists_pieces_of_ok ended
  rw [TokenStream.significant, ← stream.significant_eq] at member
  obtain ⟨listed, significant⟩ := List.mem_filter.mp member
  rcases cases_of_mem_tokens tokens listed with ⟨front, piece, back, rfl, rfl⟩ | rfl
  · have content := covered_of_decomposes decomposes
    rw [covered_append, covered_cons] at content
    have fits := decomposes.pattern piece (by simp)
    exact .mk content.symm fun c here =>
      (endsLine_eq_false_iff c).mp (fits.endsLine_eq_false significant c here)
  · exact SourceText.unbroken_point (List.append_nil _).symm

theorem found_mem_significant {name : String} {e : SyntaxError}
    (failed : parseQuery name stream = .error e) : e.found ∈ stream.significant := by
  have on : { Session.start name stream with depth := 0 }.cursor.On stream :=
    Cursor.on_ofStream stream
  have proceeds := Session.run_proceeds on Grammar.wholeQuery_advances
  rw [Session.run_found Grammar.wholeQuery _ e failed]
  exact List.mem_of_getElem? proceeds.within.significant_getElem?

theorem mem_of_mem_triples {α : Type} {a b c : α} {row : List α} :
    (a, b, c) ∈ triples row → a ∈ row := by
  induction row with
  | nil => exact fun absent => by cases absent
  | cons first rest ih =>
    intro member
    match rest with
    | [] => cases member
    | [_] => cases member
    | second :: third :: later =>
      rcases List.mem_cons.mp member with same | behind
      · cases same
        exact List.mem_cons_self
      · exact List.mem_cons_of_mem _ (ih behind)

/-- A reference that is spelled has the place of the token of its variable. -/
theorem exists_of_mem_references {r : Binding.Reference} (member : r ∈ stream.references) :
    ∃ t ∈ stream.significant, r.span = t.span := by
  obtain ⟨⟨name, dot, property⟩, listed, read⟩ := List.mem_filterMap.mp member
  refine ⟨name, ?_, ?_⟩
  · rw [TokenStream.significant, ← stream.significant_eq]
    exact mem_of_mem_triples listed
  · simp only [Binding.spelledReference?] at read
    split at read
    · cases read
      rfl
    · cases read

theorem mem_references_of_error {name : String} {tree : Query} {e : Binding.ResolutionError}
    (parsed : parseQuery name stream = .ok tree) (unresolved : Binding.resolve tree = .error e) :
    e.reference ∈ stream.references := by
  have found := (Binding.resolve_eq_error_iff tree e).mp unresolved
  rw [(TokenStream.spells_tree parsed).2] at found
  exact List.mem_of_find?_eq_some found

/-- Every error of an analysis has a range in the source, and none has a line end. -/
theorem Analysis.Stops.exists_unbroken {e : AnalysisError} (stops : Stops counting source e) :
    ∃ span, e.span? = some span ∧ source.Unbroken span := by
  cases stops with
  | @lexical fault refused =>
    obtain ⟨front, c, back, content, _, place⟩ := exists_char_of_error refused
    refine ⟨.point fault.position, rfl, ?_⟩
    rw [place]
    exact SourceText.unbroken_point content
  | @grammatical stream fault ended failed =>
    exact ⟨fault.found.span, rfl, unbroken_of_mem_significant ended (found_mem_significant failed)⟩
  | @resolution stream tree fault ended parsed unresolved =>
    obtain ⟨t, listed, same⟩ := exists_of_mem_references (mem_references_of_error parsed unresolved)
    refine ⟨fault.reference.span, rfl, ?_⟩
    rw [same]
    exact unbroken_of_mem_significant ended listed

end Ranges

/-- A difference, unless it is below zero. -/
def minus? (a b : Nat) : Option Nat := if b ≤ a then some (a - b) else none

namespace SourceText

/-- The number of carets, unless a difference below zero is needed for it. -/
def caretCount? (span : Span) (line : List Char) : Option Nat :=
  (if span.start.line = span.stop.line then
      minus? span.stop.column.toNat span.start.column.toNat
    else minus? (line.length + 1) span.start.column.toNat).map (max 1)

/-- What is shown above and below a line. -/
def margin (span : Span) : String :=
  String.ofList (List.replicate (toString span.start.line).length ' ')

variable {source : SourceText} {span : Span} {text : List Char}

theorem Shows.caretCount_eq (shows : source.Shows span text) :
    caretCount span text = max 1 (span.stop.column.toNat - span.start.column.toNat) := by
  rw [caretCount, if_pos shows.level]

theorem Shows.caretCount?_eq (shows : source.Shows span text) :
    caretCount? span text = some (caretCount span text) := by
  rw [caretCount?, if_pos shows.level, minus?, if_pos shows.columns.2, shows.caretCount_eq]
  rfl

/-- What is shown of a range with its line: the place, the line, and under it the carets behind as
many spaces as there are characters before the range. -/
theorem Shows.excerpt_eq (shows : source.Shows span text) (message : String) :
    source.excerpt span message =
      "error: " ++ message ++ "\n  --> " ++ source.name ++ ":" ++ span.render ++ "\n" ++
        margin span ++ " |\n" ++ row (toString span.start.line) text ++
        row (margin span) (List.replicate (span.start.column.toNat - 1) ' ' ++
          List.replicate (max 1 (span.stop.column.toNat - span.start.column.toNat)) '^') := by
  unfold excerpt
  simp only [shows.line, shows.caretCount_eq]
  rfl

end SourceText

/-- `text` is the line of an error. Its range begins and ends on one line, the line is there, also
where it is looked up by the offsets of the line feeds, and between the two columns it has just the
text that the range covers. The carets stand under it, at least one, and no difference below zero is
needed to count them. At a lexical error the line has the character that the error is found at. -/
structure Analysis.Shown (source : SourceText) (e : AnalysisError) (span : Span)
    (text : List Char) : Prop where
  placed : e.span? = some span
  shows : source.Shows span text
  byOffset : source.lineByOffset span.start.line.toNat = some text
  carets : SourceText.caretCount? span text = some (SourceText.caretCount span text)
  excerpt : ∀ message, source.excerpt span message =
    "error: " ++ message ++ "\n  --> " ++ source.name ++ ":" ++ span.render ++ "\n" ++
      SourceText.margin span ++ " |\n" ++ SourceText.row (toString span.start.line) text ++
      SourceText.row (SourceText.margin span)
        (List.replicate (span.start.column.toNat - 1) ' ' ++
          List.replicate (max 1 (span.stop.column.toNat - span.start.column.toNat)) '^')
  character : ∀ fault, e = .lexical fault → ∃ front c back, source.content = front ++ c :: back ∧
    byteCount front = span.start.offset ∧ text[span.start.column.toNat - 1]? = some c

/-- Excerpts show what an error of an analysis is about. -/
theorem Analysis.error_shown (counting : Counting) (elapsed : Nat) (source : SourceText)
    (j : Journal) (e : AnalysisError) (short : source.content.length < 2 ^ 32 - 1)
    (failed : (Analysis.ofText counting elapsed source j).1 = .error e) :
    ∃ span text, Shown source e span text := by
  have stops : Stops counting source e := stops_of_error failed
  obtain ⟨span, placed, unbroken⟩ := stops.exists_unbroken
  obtain ⟨text, shows⟩ := unbroken.exists_shows short
  have found : source.lineByOffset span.start.line.toNat = some text :=
    (congrFun source.lineByOffset_eq _).trans shows.line
  refine ⟨span, text, placed, shows, found, shows.caretCount?_eq, shows.excerpt_eq, ?_⟩
  rintro fault rfl
  cases placed
  cases stops with
  | lexical refused =>
    obtain ⟨front, c, back, content, inside, place⟩ := exists_char_of_error refused
    have line := shows.line
    rw [LexicalError.span, Span.point, place] at line ⊢
    have offset := (Position.behind_advanceOver front).offset
    have here := SourceText.getElem?_column short content inside line
    exact ⟨front, c, back, content, offset.symm, here⟩

/-- A comment with a character of two bytes, and below it one that begins no token. -/
def strayDollar : SourceText := .ofString "q" "# \u00fc\r\n: $"

theorem strayDollar_shown :
    strayDollar.content.length < 2 ^ 32 - 1 ∧
      (Analysis.ofText ⟨true, true⟩ 0 strayDollar (.empty .debug false)).1 =
        .error (.lexical ⟨.invalidCharacter '$', ⟨8, 2, 3⟩⟩) ∧
      ∃ text, strayDollar.Shows (.point ⟨8, 2, 3⟩) text ∧ text[2]? = some '$' := by
  have short : strayDollar.content.length < 2 ^ 32 - 1 := by decide
  have failed : (Analysis.ofText ⟨true, true⟩ 0 strayDollar (.empty .debug false)).1 =
      .error (.lexical ⟨.invalidCharacter '$', ⟨8, 2, 3⟩⟩) := by
    cbv
  obtain ⟨span, text, shown⟩ :=
    Analysis.error_shown ⟨true, true⟩ 0 strayDollar (.empty .debug false) _ short failed
  obtain rfl : Span.point ⟨8, 2, 3⟩ = span := Option.some.inj shown.placed
  obtain ⟨front, c, back, content, offset, here⟩ := shown.character _ rfl
  have size : byteCount front = 8 := offset
  have cut := cutAt_append front (c :: back)
  rw [← content, size] at cut
  have known : cutAt 8 strayDollar.content = some ("# \u00fc\r\n: ".toList, ['$']) := by decide
  rw [known] at cut
  cases cut
  exact ⟨short, failed, text, shown.shows, here⟩

section LongLine

-- A variable width keeps the comments from being computed.
variable (width : Nat)

def wideComment : List Char := '#' :: List.replicate width 'a'

/-- Comments, each with the carriage return that ends it. -/
def commentRow : Nat → List Piece
  | 0 => []
  | n + 1 =>
    ⟨wideComment width, .comment (String.ofList (List.replicate width 'a'))⟩ ::
      ⟨['\r'], .newline⟩ :: commentRow n

/-- A line of `n` comments and, behind them, a character that begins no token. -/
def longLine (n : Nat) : SourceText := ⟨"q", covered (commentRow width n) ++ ['$']⟩

theorem mem_wideComment {c : Char} (member : c ∈ wideComment width) : c = '#' ∨ c = 'a' :=
  (List.mem_cons.mp member).imp_right List.eq_of_mem_replicate

theorem mem_commentRow (n : Nat) :
    ∀ c ∈ covered (commentRow width n), c = '#' ∨ c = 'a' ∨ c = '\r' := by
  induction n with
  | zero => exact fun _ absent => by cases absent
  | succ n ih =>
    rw [commentRow, covered_cons, covered_cons, List.forall_mem_append, List.forall_mem_append,
      List.forall_mem_singleton]
    exact ⟨fun c member => (mem_wideComment width member).imp_right .inl, .inr (.inr rfl), ih⟩

theorem length_commentRow (n : Nat) :
    (covered (commentRow width n)).length = (width + 2) * n := by
  induction n with
  | zero => rfl
  | succ n ih =>
    rw [commentRow, covered_cons, covered_cons, List.length_append, List.length_append, ih,
      wideComment, List.length_cons, List.length_replicate, List.length_singleton, Nat.mul_succ]
    omega

theorem byteCount_commentRow (n : Nat) :
    byteCount (covered (commentRow width n)) = (width + 2) * n := by
  have single : ∀ c ∈ covered (commentRow width n), c.utf8Size = 1 := by
    intro c member
    rcases mem_commentRow width n c member with rfl | rfl | rfl <;> rfl
  rw [byteCount_eq_length single, length_commentRow]

theorem ne_feed_of_mem_commentRow (n : Nat) :
    ∀ c ∈ covered (commentRow width n), c ≠ '\n' := by
  intro c member
  rcases mem_commentRow width n c member with rfl | rfl | rfl <;> decide

theorem longest_wideComment (rest : List Char) :
    Longest (wideComment width) ('\r' :: rest)
      (.comment (String.ofList (List.replicate width 'a'))) := by
  have line : ∀ c ∈ List.replicate width 'a', c ≠ '\r' ∧ c ≠ '\n' := by
    intro c member
    rw [List.eq_of_mem_replicate member]
    decide
  have inside : ∀ c ∈ List.replicate width 'a', (!endsLine c) = true := fun c member => by
    simp [(endsLine_eq_false_iff c).mpr (line c member)]
  apply longest_of_munch (.comment line)
  rw [munch_comment, takeRun_of_stop [] inside (by simp [endsLine]), List.nil_append]

variable {width}

/-- By induction on the comments that are left. -/
theorem decomposes_commentRow {source : List Char} (fits : width ≤ 10000) (n : Nat) :
    ∀ {before : List Piece}, Decomposes source before (covered (commentRow width n) ++ ['$']) →
      Decomposes source (before ++ commentRow width n) ['$'] := by
  induction n with
  | zero =>
    intro before reached
    rwa [commentRow, List.append_nil]
  | succ n ih =>
    intro before reached
    have sized : ∀ fault, ¬ Oversized (wideComment width) fault := by
      intro fault large
      have above := Oversized.comment_above large
      rw [byteCount_eq_length fun c member => by rw [List.eq_of_mem_replicate member]; rfl,
        List.length_replicate] at above
      omega
    have feedless : ∀ c ∈ (covered (commentRow width n) ++ ['$']).head?, c ≠ '\n' := by
      cases n <;> simp [commentRow, wideComment]
    rw [commentRow, covered_cons, covered_cons, List.append_assoc, List.append_assoc] at reached
    have comment := reached.step (longest_wideComment width _)
      fun fault exceeds => sized fault (exceeds.oversized rfl)
    have ended := comment.step
      (longest_of_munch (.newline (.inr (.inl rfl))) (takeChar_of_stop feedless))
      fun fault exceeds => not_oversized rfl rfl (by decide) fault (exceeds.oversized rfl)
    have whole := ih ended
    rwa [List.append_assoc, List.append_assoc] at whole

theorem unmatched_dollar : Unmatched ['$'] := unmatched_of_sense rfl

/-- A long line is refused at its end. -/
theorem tokenize_longLine (counting : Counting) (fits : width ≤ 10000) (n : Nat) :
    (tokenize counting (longLine width n)).outcome = .error
      ⟨.invalidCharacter '$', Position.start.advanceOver (covered (commentRow width n))⟩ := by
  have reached : Decomposes (longLine width n).content (commentRow width n) ['$'] :=
    decomposes_commentRow fits n .start
  have refuses : Refuses (commentRow width n) ['$'] (.invalidCharacter '$') :=
    .unmatched unmatched_dollar
  cases ended : (tokenize counting (longLine width n)).outcome with
  | ok stream =>
    obtain ⟨pieces, whole, _⟩ := exists_pieces_of_ok ended
    exact absurd refuses ((whole.end_unique reached).2 _)
  | error e =>
    obtain ⟨pieces, left, reached', place, refuses'⟩ := exists_pieces_of_error ended
    obtain ⟨rfl, rfl⟩ := refuses.unique refuses' reached reached'
    obtain ⟨fault, position⟩ := e
    obtain rfl : position = _ := place
    generalize behind : ['$'] = left at refuses'
    cases refuses' with
    | unmatched =>
      cases behind
      rfl
    | exceeding longest => exact absurd longest.fits (unmatched_dollar _ _ _ behind.symm)

/-- The line behind a row of comments is the first one, since carriage returns end comments but no
lines. -/
theorem advanceOver_commentRow (n : Nat) :
    Position.start.advanceOver (covered (commentRow width n)) =
      ⟨(width + 2) * n, 1, .ofNat ((width + 2) * n + 1)⟩ := by
  have feedless := ne_feed_of_mem_commentRow width n
  have wholly : (covered (commentRow width n)).reverse.takeWhile (· ≠ '\n') =
      (covered (commentRow width n)).reverse :=
    List.takeWhile_eq_self_iff.mpr fun c member => by
      simpa using feedless c (List.mem_reverse.mp member)
  obtain ⟨offset, line, column⟩ := Position.behind_advanceOver (covered (commentRow width n))
  rw [byteCount_commentRow] at offset
  rw [List.count_eq_zero.mpr fun member => feedless _ member rfl] at line
  rw [wholly, List.length_reverse, length_commentRow] at column
  generalize Position.start.advanceOver (covered (commentRow width n)) = p at offset line column
  obtain ⟨_, _, _⟩ := p
  cases offset
  cases line
  cases column
  rfl

/-- The first line is the whole source, which begins with a comment. -/
theorem head_of_line_longLine {n : Nat} (some_comment : 0 < n) {text : List Char}
    (line : (longLine width n).line 1 = some text) : text[0]? = some '#' := by
  have whole : '\n' ∉ covered (commentRow width n) ++ ['$'] := by
    rw [List.mem_append, not_or]
    exact ⟨fun member => ne_feed_of_mem_commentRow width n _ member rfl, by decide⟩
  rw [SourceText.line, longLine, splitLines_line whole, List.getElem?_cons_zero, Option.map_some,
    trimReturns_append_cons (by decide), Option.some.injEq] at line
  rw [← line]
  cases n with
  | zero => cases some_comment
  | succ n => rfl

/-- Behind `2 ^ 32` characters of the first line the column is 1 again, where the line has the mark
of its first comment. -/
theorem longLine_not_shown :
    (Analysis.ofText ⟨true, true⟩ 0 (longLine 8190 (2 ^ 19)) (.empty .debug false)).1 =
        .error (.lexical ⟨.invalidCharacter '$', ⟨2 ^ 32, 1, 1⟩⟩) ∧
      ¬ ∃ span text, Analysis.Shown (longLine 8190 (2 ^ 19))
        (.lexical ⟨.invalidCharacter '$', ⟨2 ^ 32, 1, 1⟩⟩) span text := by
  have place : (⟨(8190 + 2) * 2 ^ 19, 1, .ofNat ((8190 + 2) * 2 ^ 19 + 1)⟩ : Position) =
      ⟨2 ^ 32, 1, 1⟩ := by
    decide
  have refused := tokenize_longLine ⟨true, true⟩ (by decide : 8190 ≤ 10000) (2 ^ 19)
  rw [advanceOver_commentRow, place] at refused
  refine ⟨Analysis.ofText_eq_of_refused refused _, ?_⟩
  rintro ⟨span, text, shown⟩
  obtain rfl : Span.point ⟨2 ^ 32, 1, 1⟩ = span := Option.some.inj shown.placed
  have first := head_of_line_longLine (by decide) shown.shows.line
  obtain ⟨front, c, back, content, offset, here⟩ := shown.character _ rfl
  obtain rfl : c = '#' := Option.some.inj (here.symm.trans first)
  have size : byteCount front = byteCount (covered (commentRow 8190 (2 ^ 19))) := by
    rw [byteCount_commentRow]
    exact offset
  have cut := cutAt_append front ('#' :: back)
  have known : cutAt (byteCount (covered (commentRow 8190 (2 ^ 19))))
      (longLine 8190 (2 ^ 19)).content = some (covered (commentRow 8190 (2 ^ 19)), ['$']) :=
    cutAt_append _ _
  rw [← content, size, known] at cut
  cases cut

end LongLine

end EventQuery
