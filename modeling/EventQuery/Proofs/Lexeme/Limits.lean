import EventQuery.Proofs.Lexeme.NumberText
import EventQuery.Proofs.Source.Place

set_option autoImplicit false

namespace EventQuery.Lexeme

/-- `length` is the size of the shortest part of `text` that is above the limit. -/
def FirstAbove (limit : Nat) (text : List Char) (length : Nat) : Prop :=
  ∃ front c back, text = front ++ c :: back ∧ byteCount front ≤ limit ∧ limit < length ∧
    length = byteCount (front ++ [c])

/-- The number that the text writes is too great for binary64. -/
def Overflows (text : List Char) : Prop :=
  ∃ x, Decimal.readFloat? text = some x ∧ x.isFinite = false

/-- A lexeme beyond the limits for its own text. -/
inductive Oversized : List Char → LexicalFault → Prop where
  | number {text : List Char} (numeral : NumberText text)
      (above : 64 < byteCount text ∨ Overflows text) :
      Oversized text (.invalidNumber (String.ofList text))
  | name {text : List Char} (named : NameText text) (long : 255 < byteCount text) :
      Oversized text (.identifierTooLong (byteCount text))
  | comment {content : List Char} {length : Nat} (long : FirstAbove 10000 content length) :
      Oversized ('#' :: content) (.commentTooLong length)

theorem overrun?_eq_some {limit length : Nat} {text : List Char} :
    ∀ {size : Nat}, size ≤ limit → overrun? limit size text = some length →
      ∃ front c back, text = front ++ c :: back ∧ size + byteCount front ≤ limit ∧
        limit < length ∧ length = size + byteCount (front ++ [c]) := by
  induction text with
  | nil =>
    intro size _ found
    cases found
  | cons c rest ih =>
    intro size fits found
    rw [overrun?] at found
    split at found
    · rename_i above
      cases found
      exact ⟨[], c, rest, rfl, fits, above, rfl⟩
    · rename_i within
      obtain ⟨front, d, back, rfl, below, above, same⟩ := ih (by omega) found
      refine ⟨c :: front, d, back, rfl, ?_, above, ?_⟩
      · rw [byteCount_cons]
        omega
      · rw [same, List.cons_append, byteCount_cons]
        omega

theorem overrun?_eq_none {limit : Nat} {text : List Char} :
    ∀ {size : Nat}, size ≤ limit → overrun? limit size text = none →
      size + byteCount text ≤ limit := by
  induction text with
  | nil => exact fun fits _ => fits
  | cons c rest ih =>
    intro size fits found
    rw [overrun?] at found
    split at found
    · cases found
    · rename_i within
      have later := ih (by omega) found
      rw [byteCount_cons]
      omega

/-- A text that has a shortest part above the limit is above it as a whole. -/
theorem FirstAbove.lt {limit length : Nat} {text : List Char} (first : FirstAbove limit text length) :
    limit < byteCount text := by
  obtain ⟨front, c, back, rfl, _, above, rfl⟩ := first
  rw [byteCount_append, byteCount_cons, byteCount_nil] at above
  rw [byteCount_append, byteCount_cons]
  omega

/-- Only numbers, names and comments have limits of their own. -/
theorem not_oversized {first : Char} {more : List Char} (noDigit : isDigit first = false)
    (noName : beginsName first = false) (noMark : first ≠ '#') (fault : LexicalFault) :
    ¬ Oversized (first :: more) fault := by
  intro large
  cases large with
  | number numeral =>
    rw [numeral.first_digit] at noDigit
    cases noDigit
  | name named =>
    obtain ⟨start, _⟩ := named
    rw [(beginsName_iff first).mpr start] at noName
    cases noName
  | comment => exact noMark rfl

theorem not_nameText_of_numberText {text : List Char} (numeral : NumberText text) :
    ¬ NameText text := by
  intro named
  rcases named with ⟨start, _⟩
  have digit := numeral.first_digit
  rw [not_isDigit_of_nameStart start] at digit
  cases digit

theorem Oversized.number_above {text : List Char} {fault : LexicalFault}
    (large : Oversized text fault) (numeral : NumberText text) :
    64 < byteCount text ∨ Overflows text := by
  cases large with
  | number _ above => exact above
  | name named => exact absurd named (not_nameText_of_numberText numeral)
  | comment => exact absurd numeral.first_digit (by decide)

theorem Oversized.name_above {text : List Char} {fault : LexicalFault}
    (large : Oversized text fault) (named : NameText text) : 255 < byteCount text := by
  cases large with
  | number numeral => exact absurd named (not_nameText_of_numberText numeral)
  | name _ long => exact long
  | comment =>
    obtain ⟨start, _⟩ := named
    exact absurd ((beginsName_iff '#').mpr start) (by decide)

theorem Oversized.comment_above {content : List Char} {fault : LexicalFault}
    (large : Oversized ('#' :: content) fault) : 10000 < byteCount content := by
  cases large with
  | number numeral => exact absurd numeral.first_digit (by decide)
  | name named =>
    obtain ⟨start, _⟩ := named
    exact absurd ((beginsName_iff '#').mpr start) (by decide)
  | comment long => exact long.lt

/-- A lexeme is read to its token, or it is refused for a limit that its text breaks. -/
def ReadsTo (l : Lexeme) (token : Token) : Prop :=
  (read l = .ok token ∧ ∀ fault, ¬ Oversized l.text fault) ∨
    ∃ fault, read l = .error fault ∧ Oversized l.text fault

theorem reads_number {l : Lexeme} (numeral : NumberText l.text) :
    l.ReadsTo (.number (String.ofList l.text)) := by
  have digit : isDigit l.first = true := numeral.first_digit
  obtain ⟨x, value⟩ := readFloat?_of_numberText numeral
  rw [ReadsTo, read, if_pos digit, readNumber]
  by_cases short : byteCount l.text ≤ 64
  · by_cases finite : x.isFinite = true
    · left
      have held : isFinite l.text = true := by rw [isFinite, value]; exact finite
      refine ⟨if_pos (by simp [maxNumberBytes, short, held]), fun fault large => ?_⟩
      rcases large.number_above numeral with long | ⟨y, value', infinite⟩
      · omega
      · rw [value] at value'
        cases value'
        rw [finite] at infinite
        cases infinite
    · right
      have infinite : x.isFinite = false := by simpa using finite
      have lost : isFinite l.text = false := by rw [isFinite, value]; exact infinite
      exact ⟨_, if_neg (by simp [lost]), .number numeral (.inr ⟨x, value, infinite⟩)⟩
  · right
    exact ⟨_, if_neg (by simp [maxNumberBytes, short]), .number numeral (.inl (by omega))⟩

theorem reads_name {l : Lexeme} (named : NameText l.text) : l.ReadsTo (.ofName l.text) := by
  have start : NameStart l.first := by
    generalize whole : l.text = text at named
    obtain ⟨start, _⟩ := named
    cases whole
    exact start
  have noDigit : ¬ isDigit l.first = true := by simp [not_isDigit_of_nameStart start]
  rw [ReadsTo, read, if_neg noDigit, if_pos ((beginsName_iff l.first).mpr start), readName]
  by_cases long : 255 < byteCount l.text
  · right
    exact ⟨_, if_pos long, .name named long⟩
  · left
    exact ⟨if_neg long, fun fault large => long (large.name_above named)⟩

theorem reads_comment (content : List Char) :
    (Lexeme.mk '#' content).ReadsTo (.comment (String.ofList content)) := by
  have read : read ⟨'#', content⟩ = readComment content := rfl
  rw [ReadsTo, read, readComment]
  cases found : overrun? maxCommentBytes 0 content with
  | some length =>
    right
    obtain ⟨front, c, back, same, below, above, total⟩ := overrun?_eq_some (Nat.zero_le _) found
    rw [Nat.zero_add] at below total
    exact ⟨_, rfl, .comment ⟨front, c, back, same, below, above, total⟩⟩
  | none =>
    left
    have within := overrun?_eq_none (Nat.zero_le _) found
    rw [Nat.zero_add] at within
    exact ⟨rfl, fun fault large => absurd large.comment_above (Nat.not_lt.mpr within)⟩

/-- What matches a pattern is read to the token of the pattern. -/
theorem reads_pattern {l : Lexeme} {token : Token} (fits : Pattern l.text token) :
    l.ReadsTo token := by
  obtain ⟨first, more⟩ := l
  generalize whole : text ⟨first, more⟩ = row at fits
  cases fits with
  | number numeral => cases whole; exact reads_number numeral
  | name named => cases whole; exact reads_name named
  | comment line => cases whole; exact reads_comment more
  | space => cases whole; exact .inl ⟨rfl, not_oversized rfl rfl (by decide)⟩
  | tab => cases whole; exact .inl ⟨rfl, not_oversized rfl rfl (by decide)⟩
  | newline ends =>
    rcases ends with rfl | rfl | rfl <;> cases whole <;>
      exact .inl ⟨rfl, not_oversized rfl rfl (by decide)⟩
  | symbol listed =>
    cases whole
    obtain ⟨noDigit, noName, noMark, known⟩ := punctuation?_of_symbol listed
    left
    refine ⟨?_, not_oversized noDigit noName noMark⟩
    simp [read, noDigit, noName, noMark, known]
  | comparison op =>
    cases op <;> cases whole <;> exact .inl ⟨rfl, not_oversized rfl rfl (by decide)⟩

theorem read_of_senseless {l : Lexeme} (senseless : sense l = none) :
    read l = .error (.invalidCharacter l.first) := by
  unfold sense at senseless
  unfold read
  split at senseless
  · cases senseless
  · split at senseless
    · cases senseless
    · split at senseless
      · cases senseless
      · rename_i noDigit noName noMark
        rw [if_neg noDigit, if_neg noName, if_neg noMark]
        cases known : punctuation? l.first with
        | some token =>
          rw [known] at senseless
          cases senseless
        | none =>
          simp only [known, Option.map_eq_none_iff] at senseless
          simp only [senseless]

end EventQuery.Lexeme
