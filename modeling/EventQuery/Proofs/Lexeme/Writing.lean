import EventQuery.Proofs.Lexeme.Tokenization

/- Writing tokens down. Tokens with single spaces between them are a text that tokenizes to these
tokens again, since no lexeme but a space and a comment reaches over a space. -/

set_option autoImplicit false

namespace EventQuery

namespace Lexeme

/-- The words that are no names, in whatever case they stand. -/
def keywords : List String := ["as", "filter", "not", "and", "or"]

/-- `[start][A-Za-z0-9_]*` of no more than 255 bytes, and no keyword. -/
structure PlainName (start : Char → Prop) (name : String) : Prop where
  shape : ∃ first more, name.toList = first :: more ∧ start first ∧
    ∀ c ∈ more, NameStart c ∨ ('0' ≤ c ∧ c ≤ '9')
  short : byteCount name.toList ≤ 255
  free : String.ofList (name.toList.map Char.toLower) ∉ keywords

/-- Tokens whose text is theirs alone: the significant ones before the end of the input, with names
and numbers in their patterns and limits. -/
def Writable : Token → Prop
  | .relation name => PlainName (fun c => 'A' ≤ c ∧ c ≤ 'Z') name
  | .word name => PlainName (fun c => ('a' ≤ c ∧ c ≤ 'z') ∨ c = '_') name
  | .connective text => text = "and" ∨ text = "or"
  | .number lexeme => NumberText lexeme.toList ∧ byteCount lexeme.toList ≤ 64 ∧
    ∃ x, Decimal.readFloat? lexeme.toList = some x ∧ x.isFinite = true
  | .space | .tab | .newline | .comment _ | .endOfInput => False
  | _ => True

theorem Writable.isSignificant {t : Token} (writable : Writable t) : t.isSignificant = true := by
  cases t with
  | space | tab | newline | comment | endOfInput => exact writable.elim
  | _ => rfl

section Names

variable {name : String} {start : Char → Prop}

theorem PlainName.nameText (plain : PlainName start name) (begins : ∀ c, start c → NameStart c) :
    NameText name.toList := by
  obtain ⟨first, more, spelled, first_start, inside⟩ := plain.shape
  rw [spelled]
  exact .mk (begins first first_start) inside

theorem plainName_of_all {first : Char} {more : List Char} (spelled : name.toList = first :: more)
    (begins : start first) (rest : more.all continuesName = true)
    (short : byteCount name.toList ≤ 255)
    (free : String.ofList (name.toList.map Char.toLower) ∉ keywords) : PlainName start name where
  shape := ⟨first, more, spelled, begins, fun c member =>
    (continuesName_iff c).mp (List.all_eq_true.mp rest c member)⟩
  short := short
  free := free

/-- A name that is no keyword is told apart by its first character. -/
theorem PlainName.ofName (plain : PlainName start name) :
    Token.ofName name.toList =
      if Token.startsUpper name.toList then .relation name else .word name := by
  have free := plain.free
  simp only [keywords, List.mem_cons, List.not_mem_nil, or_false, not_or] at free
  obtain ⟨noAs, noFilter, noNot, noAnd, noOr⟩ := free
  simp only [Token.ofName, noAs, noFilter, noNot, noAnd, noOr, or_self, if_false,
    String.ofList_toList]

theorem startsUpper_cons {c : Char} (more : List Char) :
    Token.startsUpper (c :: more) = true ↔ 'A' ≤ c ∧ c ≤ 'Z' := by
  exact isUpper_iff c

theorem not_upper {c : Char} (lower : ('a' ≤ c ∧ c ≤ 'z') ∨ c = '_') : ¬ ('A' ≤ c ∧ c ≤ 'Z') := by
  rintro ⟨_, high⟩
  rcases lower with ⟨above, _⟩ | rfl
  · exact absurd (UInt32.le_trans (Char.le_def.mp above) (Char.le_def.mp high)) (by decide)
  · exact absurd high (by decide)

theorem PlainName.ofName_relation (plain : PlainName (fun c => 'A' ≤ c ∧ c ≤ 'Z') name) :
    Token.ofName name.toList = .relation name := by
  obtain ⟨first, more, spelled, upper, _⟩ := plain.shape
  rw [plain.ofName, spelled, if_pos ((startsUpper_cons more).mpr upper)]

theorem PlainName.ofName_word (plain : PlainName (fun c => ('a' ≤ c ∧ c ≤ 'z') ∨ c = '_') name) :
    Token.ofName name.toList = .word name := by
  obtain ⟨first, more, spelled, lower, _⟩ := plain.shape
  have small : ¬ Token.startsUpper (first :: more) = true := by
    rw [startsUpper_cons]
    exact not_upper lower
  rw [plain.ofName, spelled, if_neg small]

end Names

theorem pattern_of_ofName {text : String} {t : Token} (named : NameText text.toList)
    (same : Token.ofName text.toList = t) : Pattern text.toList t := same ▸ .name named

theorem nameText_of_letters {first : Char} {more : List Char} (start : beginsName first = true)
    (rest : more.all continuesName = true) : NameText (first :: more) :=
  .mk ((beginsName_iff first).mp start)
    fun c member => (continuesName_iff c).mp (List.all_eq_true.mp rest c member)

/-- The text of a token that can be written matches the pattern of that token. -/
theorem Writable.pattern {t : Token} (writable : Writable t) : Pattern t.text.toList t := by
  cases t with
  | relation name =>
    exact pattern_of_ofName (writable.nameText fun c upper => .inl upper) writable.ofName_relation
  | word name =>
    exact pattern_of_ofName (writable.nameText fun c lower => .inr lower) writable.ofName_word
  | asKeyword => exact pattern_of_ofName (nameText_of_letters rfl rfl) (by decide)
  | filterKeyword => exact pattern_of_ofName (nameText_of_letters rfl rfl) (by decide)
  | notKeyword => exact pattern_of_ofName (nameText_of_letters rfl rfl) (by decide)
  | connective text =>
    rcases writable with rfl | rfl
    · exact pattern_of_ofName (nameText_of_letters rfl rfl) (by decide)
    · exact pattern_of_ofName (nameText_of_letters rfl rfl) (by decide)
  | number lexeme =>
    have fits := Pattern.number writable.1
    rwa [String.ofList_toList] at fits
  | comparison op => exact .comparison op
  | space | tab | newline | comment | endOfInput => exact writable.elim
  | _ => exact .symbol (by decide)

theorem NumberText.not_blank {text : List Char} (numeral : NumberText text) : ' ' ∉ text :=
  fun blank => absurd (numeral.inNumber ' ' blank) (by decide)

theorem NameText.not_blank {text : List Char} (named : NameText text) : ' ' ∉ text :=
  fun blank => absurd (named.continuesName ' ' blank) (by decide)

/-- Only a space and a comment have spaces in them. -/
theorem Pattern.head_of_blank {first : Char} {more : List Char} {token : Token}
    (fits : Pattern (first :: more) token) (blank : ' ' ∈ first :: more) :
    first = ' ' ∨ first = '#' := by
  generalize whole : first :: more = text at fits blank
  cases fits with
  | space => cases whole; exact .inl rfl
  | comment => cases whole; exact .inr rfl
  | tab => exact absurd blank (by decide)
  | newline ends => rcases ends with rfl | rfl | rfl <;> exact absurd blank (by decide)
  | symbol listed =>
    cases whole
    obtain rfl := List.mem_singleton.mp blank
    exact .inl rfl
  | comparison op => cases op <;> exact absurd blank (by decide)
  | number numeral => exact absurd blank numeral.not_blank
  | name named => exact absurd blank named.not_blank

/-- What begins with a space or with the mark of comments is trivia. -/
theorem Pattern.isSignificant_eq_false {first : Char} {more : List Char} {token : Token}
    (fits : Pattern (first :: more) token) (mark : first = ' ' ∨ first = '#') :
    token.isSignificant = false := by
  have sensed := fits.sense
  rcases mark with rfl | rfl
  · obtain rfl : Token.space = token := Option.some.inj sensed
    rfl
  · obtain rfl : Token.comment (String.ofList more) = token := Option.some.inj sensed
    rfl

/-- No lexeme goes on from a significant one over the space behind it. -/
theorem Pattern.longest_before_space {text rest : List Char} {token : Token}
    (fits : Pattern text token) (significant : token.isSignificant = true)
    (stop : ∀ c ∈ rest.head?, c = ' ') : Longest text rest token where
  fits := fits
  greatest := by
    intro front back other here others
    rcases List.append_eq_append_iff.mp here with ⟨missing, rfl, _⟩ | ⟨extra, rfl, behind⟩
    · rw [List.length_append]
      omega
    · cases extra with
      | nil => exact Nat.le_of_eq (by rw [List.append_nil])
      | cons c more =>
        -- the longer text holds the space, so it is no significant lexeme, and neither is `text`
        have space : c = ' ' := stop c (by rw [behind]; rfl)
        cases text with
        | nil => exact absurd rfl fits.ne_nil
        | cons first letters =>
          have blank : ' ' ∈ first :: (letters ++ c :: more) := by simp [space]
          have trivia := fits.isSignificant_eq_false (others.head_of_blank blank)
          rw [significant] at trivia
          cases trivia

theorem longest_space (rest : List Char) : Longest [' '] rest .space :=
  longest_munch (c := ' ') .space

theorem Writable.byteCount_le {t : Token} (writable : Writable t) :
    byteCount t.text.toList ≤ 255 := by
  cases t with
  | relation name => exact writable.short
  | word name => exact writable.short
  | connective text => rcases writable with rfl | rfl <;> decide
  | number lexeme => exact Nat.le_trans writable.2.1 (by decide)
  | comparison op => cases op <;> decide
  | space | tab | newline | comment | endOfInput => exact writable.elim
  | _ => decide

/-- A token that can be written has no text beyond its limits. -/
theorem Writable.not_oversized {t : Token} (writable : Writable t) (fault : LexicalFault) :
    ¬ Oversized t.text.toList fault := by
  intro large
  have fits := writable.pattern
  generalize spelled : t.text.toList = text at fits large
  cases large with
  | number numeral above =>
    obtain rfl := fits.unique (.number numeral)
    obtain ⟨_, short, x, value, finite⟩ := writable
    rw [String.toList_ofList] at short value
    rcases above with long | ⟨y, value', infinite⟩
    · omega
    · rw [value] at value'
      cases value'
      rw [finite] at infinite
      cases infinite
  | name named long =>
    have short := writable.byteCount_le
    rw [spelled] at short
    omega
  | comment =>
    have trivia := fits.isSignificant_eq_false (.inr rfl)
    rw [writable.isSignificant] at trivia
    cases trivia

theorem Writable.not_exceeds {t : Token} {before : List Piece} (writable : Writable t)
    (shallow : depthBehind (openDepth before) t ≤ 128) (room : significantCount before < 10000)
    (fault : LexicalFault) : ¬ Exceeds before t.text.toList t fault := by
  intro exceeds
  cases exceeds with
  | size large => exact writable.not_oversized fault large
  | nesting opens deep =>
    rw [opens, depthBehind] at shallow
    omega
  | count _ _ _ many => omega

theorem not_exceeds_space (before : List Piece) (fault : LexicalFault) :
    ¬ Exceeds before [' '] .space fault :=
  fun exceeds => not_oversized rfl rfl (by decide) fault (exceeds.oversized rfl)

def Piece.ofToken (t : Token) : Piece := ⟨t.text.toList, t⟩

def Piece.blank : Piece := ⟨[' '], .space⟩

/-- The tokens, each with its own text, and single spaces between them. -/
def spaced (tokens : List Token) : List Piece := (tokens.map Piece.ofToken).intersperse .blank

@[simp] theorem spaced_nil : spaced [] = [] := rfl

@[simp] theorem spaced_singleton (t : Token) : spaced [t] = [.ofToken t] := rfl

@[simp] theorem spaced_cons_cons (t u : Token) (rest : List Token) :
    spaced (t :: u :: rest) = .ofToken t :: .blank :: spaced (u :: rest) := rfl

theorem covered_spaced (tokens : List Token) :
    covered (spaced tokens) = (" ".intercalate (tokens.map Token.text)).toList := by
  rw [String.toList_intercalate, List.map_map, List.intercalate]
  induction tokens with
  | nil => rfl
  | cons t rest ih =>
    cases rest with
    | nil => rfl
    | cons u more =>
      rw [spaced_cons_cons, covered_cons, covered_cons, ih]
      rfl

/-- The spaces are the only trivia. -/
theorem filter_significant_spaced {tokens : List Token} (writable : ∀ t ∈ tokens, Writable t) :
    ((spaced tokens).map (·.token)).filter Token.isSignificant = tokens := by
  induction tokens with
  | nil => rfl
  | cons t rest ih =>
    have significant : (Piece.ofToken t).token.isSignificant = true :=
      (writable t (List.mem_cons_self ..)).isSignificant
    have later := ih fun u member => writable u (List.mem_cons_of_mem t member)
    cases rest with
    | nil => rw [spaced_singleton, List.map_singleton, List.filter_cons_of_pos significant]; rfl
    | cons u more =>
      rw [spaced_cons_cons, List.map_cons, List.map_cons, List.filter_cons_of_pos significant,
        List.filter_cons_of_neg Bool.false_ne_true, later]
      rfl

section Decomposing

variable {source rest : List Char} {before : List Piece}

/-- A token that can be written is one piece more, where a space or nothing follows it. -/
theorem Decomposes.write {t : Token} (reached : Decomposes source before (t.text.toList ++ rest))
    (writable : Writable t) (stop : ∀ c ∈ rest.head?, c = ' ')
    (shallow : depthBehind (openDepth before) t ≤ 128) (room : significantCount before < 10000) :
    Decomposes source (before ++ [.ofToken t]) rest :=
  reached.step (writable.pattern.longest_before_space writable.isSignificant stop)
    (writable.not_exceeds shallow room)

theorem Decomposes.space (reached : Decomposes source before (' ' :: rest)) :
    Decomposes source (before ++ [.blank]) rest :=
  reached.step (longest_space rest) (not_exceeds_space before)

/-- From every boundary, by induction on the tokens that are left. The depth and the number of tokens
so far are those of the pieces before the boundary. -/
theorem decomposes_spaced {tokens : List Token} :
    ∀ {before : List Piece}, Decomposes source before (covered (spaced tokens)) →
      (∀ t ∈ tokens, Writable t) → significantCount before + tokens.length ≤ 10000 →
      (∀ front, front <+: tokens → front.foldl depthBehind (openDepth before) ≤ 128) →
      Decomposes source (before ++ spaced tokens) [] := by
  induction tokens with
  | nil =>
    intro before reached _ _ _
    simpa using reached
  | cons t rest ih =>
    intro before reached writable few shallow
    rw [List.length_cons] at few
    have first : Writable t := writable t (List.mem_cons_self ..)
    have depth : depthBehind (openDepth before) t ≤ 128 :=
      shallow [t] (List.cons_prefix_cons.mpr ⟨rfl, List.nil_prefix⟩)
    cases rest with
    | nil =>
      rw [spaced_singleton, covered_cons, covered_nil] at reached
      exact reached.write first (fun c absent => by cases absent) depth (by omega)
    | cons u more =>
      have behind : Decomposes source (before ++ [.ofToken t] ++ [.blank])
          (covered (spaced (u :: more))) := by
        rw [spaced_cons_cons, covered_cons, covered_cons] at reached
        refine (reached.write first ?_ depth (by omega)).space
        intro c here
        cases here
        rfl
      have count : significantCount (before ++ [.ofToken t] ++ [.blank]) =
          significantCount before + 1 := by
        have blank : Piece.blank.token.isSignificant = false := rfl
        have token : (Piece.ofToken t).token.isSignificant = true := first.isSignificant
        simp only [significantCount_concat, blank, token, if_true, Bool.false_eq_true, if_false,
          Nat.add_zero]
      have depth' : openDepth (before ++ [.ofToken t] ++ [.blank]) =
          depthBehind (openDepth before) t := by
        rw [openDepth_concat, openDepth_concat]
        rfl
      have later := ih behind (fun v member => writable v (List.mem_cons_of_mem t member))
        (by rw [count]; omega) (by
          intro front begins
          rw [depth']
          exact shallow (t :: front) (List.cons_prefix_cons.mpr ⟨rfl, begins⟩))
      simpa using later

end Decomposing

theorem map_value_placed (p : Position) (pieces : List Piece) :
    (placed p pieces).map (·.value) = pieces.map (·.token) := by
  induction pieces generalizing p with
  | nil => rfl
  | cons piece rest ih => rw [placed, List.map_cons, ih, List.map_cons]

end Lexeme

open Lexeme

/-- Tokens that can be written, 10000 at most and with at most 128 parentheses open at a time, are
the significant tokens of the text that they make with single spaces between them. -/
theorem tokenize_spaced (counting : Counting) (name : String) (tokens : List Token)
    (writable : ∀ t ∈ tokens, Writable t) (few : tokens.length ≤ 10000)
    (shallow : ∀ front, front <+: tokens → front.foldl depthBehind 0 ≤ 128) :
    ∃ stream,
      (tokenize counting (.ofString name (" ".intercalate (tokens.map Token.text)))).outcome =
        .ok stream ∧
      (significantTokens stream.tokens).map (·.value) = tokens ++ [.endOfInput] := by
  have content : (SourceText.ofString name (" ".intercalate (tokens.map Token.text))).content =
      covered (spaced tokens) := (covered_spaced tokens).symm
  have decomposes : Decomposes (covered (spaced tokens)) (spaced tokens) [] :=
    decomposes_spaced .start writable (by rw [significantCount]; simpa using few) shallow
  rw [← content] at decomposes
  obtain ⟨stream, ended, placed⟩ := exists_stream_of_decomposes counting decomposes
  refine ⟨stream, ended, ?_⟩
  calc (significantTokens stream.tokens).map (·.value)
    _ = (stream.tokens.map (·.value)).filter Token.isSignificant := by
      rw [significantTokens, List.filter_map]
      rfl
    _ = ((spaced tokens).map (·.token)).filter Token.isSignificant ++ [.endOfInput] := by
      rw [placed, List.map_append, map_value_placed, List.filter_append]
      rfl
    _ = tokens ++ [.endOfInput] := by rw [filter_significant_spaced writable]

/-- A query with tokens of every kind that carries a text. -/
def filteredPurchase : List Token :=
  [.leftParen, .relation "Buy", .asKeyword, .word "_b2", .rightParen, .plus, .filterKeyword,
    .notKeyword, .word "_b2", .dot, .word "asPrice", .comparison .greaterOrEqual, .minus,
    .number "1.5e-3", .connective "or", .number "20", .comparison .notEqual, .word "_b2", .dot,
    .word "not_x"]

theorem tokenize_filteredPurchase :
    ∃ stream,
      (tokenize ⟨true, true⟩ (.ofString "q"
          "( Buy as _b2 ) + filter not _b2 . asPrice >= - 1.5e-3 or 20 != _b2 . not_x")).outcome =
        .ok stream ∧
      (significantTokens stream.tokens).map (·.value) = filteredPurchase ++ [.endOfInput] := by
  have writable : ∀ t ∈ filteredPurchase, Writable t := by
    simp only [filteredPurchase, List.forall_mem_cons, Writable, true_and]
    refine ⟨?relation, ?name, ?subject, ?property, ?small, .inr trivial, ?great, ?other, ?last,
      fun _ absent => by cases absent⟩
    case relation => exact plainName_of_all rfl (by decide) rfl (by decide) (by decide)
    case name | subject | other => exact plainName_of_all rfl (by decide) rfl (by decide) (by decide)
    case property => exact plainName_of_all rfl (by decide) rfl (by decide) (by decide)
    case last => exact plainName_of_all rfl (by decide) rfl (by decide) (by decide)
    case small =>
      have digits : NumberText "1.5e-3".toList := numberText_munch (c := '1') rfl ".5e-3".toList
      exact ⟨digits, by decide, _, rfl, by decide +kernel⟩
    case great =>
      have digits : NumberText "20".toList := numberText_munch (c := '2') rfl ['0']
      exact ⟨digits, by decide, _, rfl, by decide +kernel⟩
  have shallow : ∀ front, front <+: filteredPurchase → front.foldl depthBehind 0 ≤ 128 := by
    intro front begins
    have all : ∀ n < 21, (filteredPurchase.take n).foldl depthBehind 0 ≤ 128 := by decide
    have length : front.length ≤ 20 := begins.length_le
    rw [List.prefix_iff_eq_take.mp begins]
    exact all front.length (by omega)
  exact tokenize_spaced ⟨true, true⟩ "q" filteredPurchase writable (by decide) shallow

end EventQuery
