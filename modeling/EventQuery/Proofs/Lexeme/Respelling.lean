import EventQuery.Proofs.Grammar.Concurrence
import EventQuery.Proofs.Lexeme.Cutting
import EventQuery.Proofs.Lexeme.Writing

/- Writing a tokenization anew. The texts of its tokens, with nothing between them, are tokenized
to the same tokens again. Only keywords and line ends are written otherwise than they were read,
and neither changes how far the lexeme before it reaches. -/

set_option autoImplicit false

namespace EventQuery

namespace Lexeme

/-- The piece with the text that its token is written with. -/
def Piece.respelled (piece : Piece) : Piece := .ofToken piece.token

/-- The tokens of names that are written in lower case, whatever case they were read in. -/
def keywordTokens : List Token :=
  [.asKeyword, .filterKeyword, .notKeyword, .connective "and", .connective "or"]

theorem text_ofName (text : List Char) :
    (Token.ofName text).text.toList = text ∨ Token.ofName text ∈ keywordTokens := by
  unfold Token.ofName
  dsimp only
  split
  · exact .inr (by decide)
  split
  · exact .inr (by decide)
  split
  · exact .inr (by decide)
  split
  · rename_i connective
    rcases connective with lowered | lowered <;> rw [lowered] <;> exact .inr (by decide)
  split <;> exact .inl String.toList_ofList

/-- A text and the text that its token is written with: the same, two line ends, or a name and a
keyword. -/
inductive Respells : List Char → Token → Prop where
  | same {text : List Char} {token : Token} (same : token.text.toList = text) : Respells text token
  | newline {text : List Char} (ends : text = ['\n'] ∨ text = ['\r'] ∨ text = ['\r', '\n']) :
      Respells text .newline
  | keyword {text : List Char} {token : Token} (named : NameText text)
      (keyword : token ∈ keywordTokens) : Respells text token

/-- Every symbol is written as the character that it is read from. -/
theorem text_of_symbol {c : Char} {token : Token} (listed : (c, token) ∈ symbols) :
    token.text.toList = [c] := by
  have all : ∀ symbol ∈ symbols, symbol.2.text.toList = [symbol.1] := by decide
  exact all _ listed

theorem text_comment (content : List Char) :
    (Token.comment (String.ofList content)).text.toList = '#' :: content := by
  simp [Token.text]

theorem Pattern.respells {text : List Char} {token : Token} (fits : Pattern text token) :
    Respells text token := by
  cases fits with
  | newline ends => exact .newline ends
  | name named =>
    rcases text_ofName text with same | keyword
    · exact .same same
    · exact .keyword named keyword
  | comment line => exact .same (text_comment _)
  | symbol listed => exact .same (text_of_symbol listed)
  | number numeral => exact .same String.toList_ofList
  | _ => exact .same rfl

theorem ofName_of_keyword {token : Token} (keyword : token ∈ keywordTokens) :
    NameText token.text.toList ∧ Token.ofName token.text.toList = token := by
  simp only [keywordTokens, List.mem_cons, List.not_mem_nil, or_false] at keyword
  rcases keyword with rfl | rfl | rfl | rfl | rfl <;>
    exact ⟨nameText_of_letters rfl rfl, by decide⟩

theorem Pattern.respelled {text : List Char} {token : Token} (fits : Pattern text token) :
    Pattern token.text.toList token := by
  cases fits.respells with
  | same same => rwa [same]
  | newline => exact .newline (.inl rfl)
  | keyword _ keyword =>
    obtain ⟨named, known⟩ := ofName_of_keyword keyword
    exact pattern_of_ofName named known

/-- The written text of a token within its limits is within them too. -/
theorem Pattern.not_oversized_respelled {text : List Char} {token : Token}
    (fits : Pattern text token) (sized : ∀ fault, ¬ Oversized text fault) :
    ∀ fault, ¬ Oversized token.text.toList fault := by
  intro fault
  cases fits.respells with
  | same same =>
    rw [same]
    exact sized fault
  | newline => exact not_oversized rfl rfl (by decide) fault
  | keyword _ keyword =>
    intro large
    have short : ∀ t ∈ keywordTokens, byteCount t.text.toList ≤ 255 := by decide
    have long := large.name_above (ofName_of_keyword keyword).1
    exact absurd long (Nat.not_lt.mpr (short token keyword))

/-- What begins two rows, one behind the other, ends in the first or goes on in the second. -/
theorem prefix_append_cases {α : Type} {front back part : List α} (begins : part <+: front ++ back) :
    part <+: front ∨ ∃ more, part = front ++ more ∧ more <+: back := by
  have first := List.prefix_append front back
  rcases List.prefix_or_prefix_of_prefix begins first with short | ⟨more, rfl⟩
  · exact .inl short
  · exact .inr ⟨more, rfl, (List.prefix_append_right_inj front).mp begins⟩

/-- Two characters of which lexemes other than numbers are both continued or neither. -/
structure Alike (c c' : Char) : Prop where
  name : continuesName c' = continuesName c
  line : endsLine c' = endsLine c
  equals : c' = '=' ↔ c = '='

theorem Alike.refl (c : Char) : Alike c c := ⟨rfl, rfl, Iff.rfl⟩

theorem alike_of_nameStart {c c' : Char} (start : NameStart c) (start' : NameStart c') :
    Alike c c' := by
  have continues {d : Char} (start : NameStart d) : continuesName d = true :=
    (continuesName_iff d).mpr (.inl start)
  have onLine {d : Char} (start : NameStart d) : endsLine d = false := by
    rw [endsLine_eq_false_iff]
    constructor
    · rintro rfl
      exact absurd ((beginsName_iff _).mpr start) (by decide)
    · rintro rfl
      exact absurd ((beginsName_iff _).mpr start) (by decide)
  have other {d : Char} (start : NameStart d) : d ≠ '=' := by
    rintro rfl
    exact absurd ((beginsName_iff _).mpr start) (by decide)
  refine ⟨?_, ?_, ?_⟩
  · rw [continues start, continues start']
  · rw [onLine start, onLine start']
  · exact iff_of_false (other start') (other start)

theorem Pattern.alike_heads {c c' : Char} {more more' : List Char} {token : Token}
    (fits : Pattern (c :: more) token) (spelled : token.text.toList = c' :: more') :
    Alike c c' := by
  generalize whole : c :: more = text at fits
  cases fits.respells with
  | same same =>
    rw [same, ← whole] at spelled
    cases spelled
    exact .refl c
  | newline ends =>
    have feed : ['\n'] = c' :: more' := spelled
    cases feed
    rcases ends with rfl | rfl | rfl <;> cases whole <;> exact ⟨rfl, rfl, by decide⟩
  | keyword named keyword =>
    have named' := (ofName_of_keyword keyword).1
    rw [spelled] at named'
    rw [← whole] at named
    cases named with
    | mk start _ =>
      cases named' with
      | mk start' _ => exact alike_of_nameStart start start'

/-- What is written otherwise than it was read begins with no character of a number. -/
theorem Respells.eq_or_not_inNumber {text : List Char} {token : Token}
    (respells : Respells text token) :
    token.text.toList = text ∨ ∀ c more, token.text.toList = c :: more → inNumber c = false := by
  cases respells with
  | same same => exact .inl same
  | newline =>
    right
    rintro _ _ ⟨⟩
    rfl
  | keyword _ keyword =>
    right
    simp only [keywordTokens, List.mem_cons, List.not_mem_nil, or_false] at keyword
    rcases keyword with rfl | rfl | rfl | rfl | rfl <;> rintro _ _ ⟨⟩ <;> rfl

section Following

variable {pieces : List Piece} (fits : ∀ piece ∈ pieces, Pattern piece.text piece.token)

include fits

/-- The text behind a lexeme begins alike when it is written anew. -/
theorem alike_of_head_respelled {c' : Char}
    (first : c' ∈ (covered (pieces.map Piece.respelled)).head?) :
    ∃ c ∈ (covered pieces).head?, Alike c c' := by
  cases pieces with
  | nil => cases first
  | cons piece rest =>
    have pattern := fits piece (List.mem_cons_self ..)
    obtain ⟨text, token⟩ := piece
    cases text with
    | nil => exact absurd rfl pattern.ne_nil
    | cons c more =>
      cases spelled : token.text.toList with
      | nil => exact absurd spelled pattern.respelled.ne_nil
      | cons d more' =>
        have here : (covered ((Piece.mk (c :: more) token :: rest).map Piece.respelled)).head? =
            some d := by
          rw [List.map_cons, covered_cons, Piece.respelled, Piece.ofToken, spelled]
          rfl
        rw [here] at first
        cases first
        exact ⟨c, rfl, pattern.alike_heads spelled⟩

/-- Where a number might go on, it might have gone on before. By induction on the pieces that follow,
up to the first that is written otherwise. -/
theorem prefix_of_prefix_respelled {extra : List Char}
    (begins : extra <+: covered (pieces.map Piece.respelled))
    (inside : ∀ c ∈ extra, inNumber c = true) : extra <+: covered pieces := by
  induction pieces generalizing extra with
  | nil => exact begins
  | cons piece rest ih =>
    have pattern := fits piece (List.mem_cons_self ..)
    rw [List.map_cons, covered_cons] at begins
    rw [covered_cons]
    rcases pattern.respells.eq_or_not_inNumber with same | other
    · rw [Piece.respelled, Piece.ofToken, same] at begins
      rcases prefix_append_cases begins with short | ⟨later, rfl, further⟩
      · exact List.prefix_append_of_prefix short
      · rw [List.prefix_append_right_inj]
        exact ih (fun p member => fits p (List.mem_cons_of_mem _ member)) further
          fun c member => inside c (List.mem_append_right _ member)
    · cases extra with
      | nil => exact List.nil_prefix
      | cons c more =>
        -- the number would go on over a line end or into a keyword
        cases spelled : piece.token.text.toList with
        | nil => exact absurd spelled pattern.respelled.ne_nil
        | cons d others =>
          rw [Piece.respelled, Piece.ofToken, spelled, List.cons_append,
            List.cons_prefix_cons] at begins
          have digit := inside c (List.mem_cons_self ..)
          have letter := other d others spelled
          rw [begins.1, letter] at digit
          cases digit

end Following

section Longest

variable {text rest : List Char} {token : Token}

/-- Nothing that follows a longest lexeme continues it. -/
theorem Longest.not_pattern_append (longest : Longest text rest token) {extra : List Char}
    (begins : extra <+: rest) (present : extra ≠ []) (other : Token) :
    ¬ Pattern (text ++ extra) other := by
  intro fits
  obtain ⟨back, rfl⟩ := begins
  have long := longest.greatest (text ++ extra) back other (List.append_assoc ..) fits
  have size := List.length_pos_iff.mpr present
  rw [List.length_append] at long
  omega

theorem Longest.not_pattern_concat (longest : Longest text rest token) {c : Char}
    (next : c ∈ rest.head?) (other : Token) : ¬ Pattern (text ++ [c]) other := by
  apply longest.not_pattern_append _ (List.cons_ne_nil c [])
  cases rest with
  | nil => cases next
  | cons d more =>
    cases next
    exact List.cons_prefix_cons.mpr ⟨rfl, List.nil_prefix⟩

theorem longest_of_munch {first : Char} {more : List Char} (fits : Pattern (first :: more) token)
    (taken : (munch first (more ++ rest)).1 = more) : Longest (first :: more) rest token := by
  have whole := munch_append first (more ++ rest)
  rw [taken] at whole
  have left : (munch first (more ++ rest)).2 = rest := List.append_cancel_left whole
  have fits' : Pattern (first :: (munch first (more ++ rest)).1) token := by rwa [taken]
  have longest := longest_munch fits'
  rwa [taken, left] at longest

end Longest

theorem takeChar_of_stop {second : Char} {rest : List Char}
    (stop : ∀ c ∈ rest.head?, c ≠ second) : (takeChar second rest).1 = [] := by
  cases rest with
  | nil => rfl
  | cons c more =>
    have other : c ≠ second := stop c rfl
    rw [takeChar, if_neg other]

/-- What begins with a digit and matches a pattern is a number. -/
theorem Pattern.numberText_of_digit {first : Char} {more : List Char} {token : Token}
    (fits : Pattern (first :: more) token) (digit : isDigit first = true) :
    NumberText (first :: more) := by
  generalize whole : first :: more = text at fits
  cases fits with
  | number numeral => exact numeral
  | space | tab | comment =>
    cases whole
    exact absurd digit (by decide)
  | newline ends => rcases ends with rfl | rfl | rfl <;> cases whole <;> exact absurd digit (by decide)
  | symbol listed =>
    cases whole
    rw [(punctuation?_of_symbol listed).1] at digit
    cases digit
  | comparison op => cases op <;> cases whole <;> exact absurd digit (by decide)
  | name named =>
    cases named
    rename_i start _
    cases whole
    rw [not_isDigit_of_nameStart start] at digit
    cases digit

section Before

variable {rest rest' : List Char} {token : Token}

section Heads

variable (heads : ∀ c' ∈ rest'.head?, ∃ c ∈ rest.head?, Alike c c')

include heads

theorem Longest.comment_before {content : List Char}
    (line : ∀ c ∈ content, c ≠ '\r' ∧ c ≠ '\n') (longest : Longest ('#' :: content) rest token) :
    Longest ('#' :: content) rest' token := by
  have inside : ∀ c ∈ content, (!endsLine c) = true := fun c member => by
    simp [(endsLine_eq_false_iff c).mpr (line c member)]
  have stop : ∀ c' ∈ rest'.head?, (!endsLine c') = false := by
    intro c' first
    obtain ⟨c, next, alike⟩ := heads c' first
    rw [alike.line, Bool.not_eq_false']
    apply Bool.of_not_eq_false
    intro onLine
    have longer : ∀ d ∈ content ++ [c], d ≠ '\r' ∧ d ≠ '\n' := by
      rw [List.forall_mem_append, List.forall_mem_singleton]
      exact ⟨line, (endsLine_eq_false_iff c).mp onLine⟩
    exact longest.not_pattern_concat next _ (.comment longer)
  apply longest_of_munch longest.fits
  rw [munch_comment, takeRun_of_stop [] inside stop, List.nil_append]

theorem Longest.name_before {text text' : List Char} (named : NameText text)
    (named' : NameText text') (fits' : Pattern text' token) (longest : Longest text rest token) :
    Longest text' rest' token := by
  have stop : ∀ c' ∈ rest'.head?, continuesName c' = false := by
    intro c' first
    obtain ⟨c, next, alike⟩ := heads c' first
    rw [alike.name, Bool.eq_false_iff]
    intro continues
    obtain ⟨start, inside⟩ := named
    rename_i d more
    have longer : ∀ e ∈ more ++ [c], NameStart e ∨ ('0' ≤ e ∧ e ≤ '9') := by
      rw [List.forall_mem_append, List.forall_mem_singleton]
      exact ⟨inside, (continuesName_iff c).mp continues⟩
    exact longest.not_pattern_concat next _ (.name (.mk start longer))
  obtain ⟨start, inside⟩ := named'
  rename_i d more
  have letters : ∀ e ∈ more, continuesName e = true := fun e member =>
    (continuesName_iff e).mpr (inside e member)
  apply longest_of_munch fits'
  rw [munch_name start, takeRun_of_stop [] letters stop, List.nil_append]

theorem Longest.comparison_before {op : Comparison}
    (longest : Longest op.symbol.toList rest token) (fits : Pattern op.symbol.toList token) :
    Longest op.symbol.toList rest' token := by
  have stop (long : Comparison) (longer : long.symbol.toList = op.symbol.toList ++ ['=']) :
      ∀ c' ∈ rest'.head?, c' ≠ '=' := by
    rintro _ first rfl
    obtain ⟨c, next, alike⟩ := heads _ first
    have same : c = '=' := alike.equals.mp rfl
    rw [same] at next
    have pattern := Pattern.comparison long
    rw [longer] at pattern
    exact longest.not_pattern_concat next _ pattern
  cases op with
  | less => exact longest_of_munch fits (takeChar_of_stop (stop .lessOrEqual rfl))
  | greater => exact longest_of_munch fits (takeChar_of_stop (stop .greaterOrEqual rfl))
  | lessOrEqual => exact longest_of_munch fits rfl
  | greaterOrEqual => exact longest_of_munch fits rfl
  | equal => exact longest_of_munch fits rfl
  | notEqual => exact longest_of_munch fits rfl

end Heads

/-- Numbers look further ahead than to the next character. -/
theorem Longest.number_before {text : List Char} (numeral : NumberText text)
    (prefixes : ∀ extra, extra <+: rest' → (∀ c ∈ extra, inNumber c = true) → extra <+: rest)
    (longest : Longest text rest token) : Longest text rest' token where
  fits := longest.fits
  greatest := by
    intro front back other here others
    rcases List.append_eq_append_iff.mp here with ⟨missing, rfl, _⟩ | ⟨extra, rfl, behind⟩
    · rw [List.length_append]
      omega
    · by_cases more : extra = []
      · simp [more]
      · cases text with
        | nil => exact absurd rfl longest.fits.ne_nil
        | cons first digits =>
          have longer : NumberText (first :: (digits ++ extra)) :=
            others.numberText_of_digit numeral.first_digit
          have begins : extra <+: rest := by
            apply prefixes extra ⟨back, behind.symm⟩
            exact fun c member => longer.inNumber c (by simp [member])
          exact absurd others (longest.not_pattern_append begins more other)

end Before

theorem munch_symbol {c : Char} {token : Token} (listed : (c, token) ∈ symbols) (rest : List Char) :
    (munch c rest).1 = [] := by
  simp only [symbols, List.mem_cons, Prod.mk.injEq, List.not_mem_nil, or_false] at listed
  rcases listed with ⟨rfl, rfl⟩ | ⟨rfl, rfl⟩ | ⟨rfl, rfl⟩ | ⟨rfl, rfl⟩ | ⟨rfl, rfl⟩ |
    ⟨rfl, rfl⟩ | ⟨rfl, rfl⟩ | ⟨rfl, rfl⟩ | ⟨rfl, rfl⟩ <;> rfl

/-- A longest lexeme, written anew in front of pieces that are written anew, is the longest again. -/
theorem Longest.respelled {text : List Char} {token : Token} {pieces : List Piece}
    (longest : Longest text (covered pieces) token)
    (fits : ∀ piece ∈ pieces, Pattern piece.text piece.token) :
    Longest token.text.toList (covered (pieces.map Piece.respelled)) token := by
  have heads : ∀ c' ∈ (covered (pieces.map Piece.respelled)).head?,
      ∃ c ∈ (covered pieces).head?, Alike c c' := fun c' first => alike_of_head_respelled fits first
  have pattern := longest.fits
  have pattern' := pattern.respelled
  cases pattern with
  | space => exact longest_of_munch .space rfl
  | tab => exact longest_of_munch .tab rfl
  | newline => exact longest_of_munch (.newline (.inl rfl)) rfl
  | comment line =>
    rw [text_comment]
    exact longest.comment_before heads line
  | symbol listed =>
    rw [text_of_symbol listed]
    exact longest_of_munch (.symbol listed) (munch_symbol listed _)
  | comparison op => exact longest.comparison_before heads (.comparison op)
  | number numeral =>
    have before : Longest text _ (.number (String.ofList text)) :=
      longest.number_before numeral fun extra => prefix_of_prefix_respelled fits
    rwa [Token.text, String.toList_ofList]
  | name named =>
    rcases text_ofName text with same | keyword
    · rw [same] at pattern' ⊢
      exact longest.name_before heads named named pattern'
    · exact longest.name_before heads named (ofName_of_keyword keyword).1 pattern'

section Decomposing

variable {source : List Char} {pieces : List Piece}

/-- What is open and what was counted are matters of the tokens alone. -/
theorem openDepth_respelled (pieces : List Piece) :
    openDepth (pieces.map Piece.respelled) = openDepth pieces := by
  rw [openDepth, List.foldl_map]
  rfl

theorem significantCount_respelled (pieces : List Piece) :
    significantCount (pieces.map Piece.respelled) = significantCount pieces := by
  rw [significantCount, List.countP_map]
  rfl

theorem Decomposes.respelled (decomposes : Decomposes source pieces []) :
    Decomposes (covered (pieces.map Piece.respelled)) (pieces.map Piece.respelled) [] := by
  have whole : Decomposes (covered (pieces.map Piece.respelled) ++ [])
      (pieces.map Piece.respelled) [] := by
    apply decomposes_of_fits
    intro front piece back same
    obtain ⟨before, others, rfl, rfl, behind⟩ := List.map_eq_append_iff.mp same
    obtain ⟨read, after, rfl, rfl, rfl⟩ := List.map_eq_cons_iff.mp behind
    have fits := decomposes.fits before read after rfl
    have patterns : ∀ p ∈ after, Pattern p.text p.token := fun p member =>
      decomposes.pattern p (by simp [member])
    have sized := fits.longest.fits.not_oversized_respelled fits.not_oversized
    have longest := fits.longest
    rw [List.append_nil] at longest ⊢
    exact ⟨longest.respelled patterns, within_of_le fits.within sized
      (Nat.le_of_eq (openDepth_respelled before)) (Nat.le_of_eq (significantCount_respelled before))⟩
  rwa [List.append_nil] at whole

end Decomposing

end Lexeme

open Lexeme

/-- The texts of all tokens, one behind the other and nothing between them. -/
def TokenStream.written (s : TokenStream) : String := String.join ((values s.tokens).map Token.text)

/-- The end of the input is written with nothing. -/
theorem toList_written {stream : TokenStream} {pieces : List Piece}
    (tokens : values stream.tokens = pieces.map (·.token) ++ [.endOfInput]) :
    stream.written.toList = covered (pieces.map Piece.respelled) := by
  have last : Token.endOfInput.text.toList = [] := rfl
  rw [TokenStream.written, String.toList_join, tokens, List.map_append, List.flatMap_append]
  simp only [covered, List.flatMap_map, List.map_map, List.map_cons, List.map_nil, List.flatMap_cons,
    List.flatMap_nil, last, List.append_nil]
  rfl

theorem spelling_eq_filter (s : TokenStream) :
    s.spelling = (values s.tokens).filter Token.isSignificant := by
  rw [TokenStream.spelling, values, values, significantTokens, List.filter_map]
  rfl

/-- The tokens of a tokenized source, written down, are tokenized to tokens of the same values. So the
text that they make is parsed like the source: both to the same query apart from places, or both to
faults that match. -/
theorem tokenize_written (counting : Counting) (source : SourceText) (name : String)
    (stream : TokenStream) (ended : (tokenize counting source).outcome = .ok stream) :
    ∃ again, (tokenize counting (.ofString name stream.written)).outcome = .ok again ∧
      values again.tokens = values stream.tokens ∧
      stream.ParsesLike again (parseQuery source.name stream) (parseQuery name again) := by
  obtain ⟨pieces, decomposes, tokens, _⟩ := exists_pieces_of_ok ended
  have row : values stream.tokens = pieces.map (·.token) ++ [.endOfInput] := by
    rw [tokens, values_append, values_placed]
    rfl
  have content : (SourceText.ofString name stream.written).content =
      covered (pieces.map Piece.respelled) := toList_written row
  have written : Decomposes (SourceText.ofString name stream.written).content
      (pieces.map Piece.respelled) [] := by
    rw [content]
    exact decomposes.respelled
  obtain ⟨again, accepted, tokens'⟩ := exists_stream_of_decomposes counting written
  have same : values again.tokens = values stream.tokens := by
    rw [row, tokens', values_append, values_placed, List.map_map]
    rfl
  have spelled : stream.spelling = again.spelling := by
    rw [spelling_eq_filter, spelling_eq_filter, same]
  exact ⟨again, accepted, same, TokenStream.parsesLike_of_spelling source.name name spelled⟩

/-- A binding with its keyword in capitals and a comment up to a line end of two characters. -/
def shoutedBinding : SourceText := .ofString "p" "A AS b#c\r\n"

theorem shoutedBinding_written :
    ∃ stream again, (tokenize ⟨true, true⟩ shoutedBinding).outcome = .ok stream ∧
      (tokenize ⟨true, true⟩ (.ofString "q" "A as b#c\n")).outcome = .ok again ∧
      values again.tokens = values stream.tokens ∧
      stream.ParsesLike again (parseQuery "p" stream) (parseQuery "q" again) := by
  have written : (tokenize ⟨true, true⟩ shoutedBinding).outcome.toOption.map TokenStream.written =
      some "A as b#c\n" := by decide +kernel
  cases ended : (tokenize ⟨true, true⟩ shoutedBinding).outcome with
  | error e =>
    rw [ended] at written
    cases written
  | ok stream =>
    rw [ended] at written
    have text : stream.written = "A as b#c\n" := Option.some.inj written
    obtain ⟨again, accepted, same, alike⟩ :=
      tokenize_written ⟨true, true⟩ shoutedBinding "q" stream ended
    rw [text] at accepted
    exact ⟨stream, again, rfl, accepted, same, alike⟩

end EventQuery
