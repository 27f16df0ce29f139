import EventQuery.Lexeme.Reading

set_option autoImplicit false

namespace EventQuery.Lexeme

structure Digits (text : List Char) : Prop where
  present : text ≠ []
  only : ∀ c ∈ text, '0' ≤ c ∧ c ≤ '9'

/-- `('.' digits)?` -/
inductive Fraction : List Char → Prop where
  | absent : Fraction []
  | point {digits : List Char} (written : Digits digits) : Fraction ('.' :: digits)

/-- `[+-]?` -/
def Sign (text : List Char) : Prop := text = [] ∨ text = ['+'] ∨ text = ['-']

/-- `([eE] [+-]? digits)?` -/
inductive Exponent : List Char → Prop where
  | absent : Exponent []
  | power {mark : Char} {sign digits : List Char} (marked : mark = 'e' ∨ mark = 'E')
      (signed : Sign sign) (written : Digits digits) : Exponent (mark :: (sign ++ digits))

/-- `digits ('.' digits)? ([eE] [+-]? digits)?` -/
inductive NumberText : List Char → Prop where
  | mk {whole fraction exponent : List Char} (digits : Digits whole) (point : Fraction fraction)
      (power : Exponent exponent) : NumberText (whole ++ (fraction ++ exponent))

/-- `[A-Za-z_]` -/
def NameStart (c : Char) : Prop := ('A' ≤ c ∧ c ≤ 'Z') ∨ ('a' ≤ c ∧ c ≤ 'z') ∨ c = '_'

/-- `[A-Za-z_][A-Za-z0-9_]*` -/
inductive NameText : List Char → Prop where
  | mk {first : Char} {more : List Char} (start : NameStart first)
      (rest : ∀ c ∈ more, NameStart c ∨ ('0' ≤ c ∧ c ≤ '9')) : NameText (first :: more)

/-- The symbols that are one character each. -/
def symbols : List (Char × Token) :=
  [('(', .leftParen), (')', .rightParen), ('+', .plus), ('-', .minus), ('*', .times),
    ('/', .divide), (':', .colon), ('|', .pipe), ('.', .dot)]

/-- The texts that match a pattern, each with its token. -/
inductive Pattern : List Char → Token → Prop where
  | space : Pattern [' '] .space
  | tab : Pattern ['\t'] .tab
  | newline {text : List Char} (ends : text = ['\n'] ∨ text = ['\r'] ∨ text = ['\r', '\n']) :
      Pattern text .newline
  | comment {content : List Char} (line : ∀ c ∈ content, c ≠ '\r' ∧ c ≠ '\n') :
      Pattern ('#' :: content) (.comment (String.ofList content))
  | symbol {c : Char} {token : Token} (listed : (c, token) ∈ symbols) : Pattern [c] token
  | comparison (op : Comparison) : Pattern op.symbol.toList (.comparison op)
  | number {text : List Char} (numeral : NumberText text) :
      Pattern text (.number (String.ofList text))
  | name {text : List Char} (named : NameText text) : Pattern text (.ofName text)

/-- `text` is the longest of the texts at the front of `text ++ rest` that match a pattern. -/
structure Longest (text rest : List Char) (token : Token) : Prop where
  fits : Pattern text token
  greatest : ∀ front back other, front ++ back = text ++ rest → Pattern front other →
    front.length ≤ text.length

/-- No text at the front of `left` matches a pattern. -/
def Unmatched (left : List Char) : Prop :=
  ∀ front back token, front ++ back = left → ¬ Pattern front token

theorem isDigit_iff (c : Char) : isDigit c = true ↔ '0' ≤ c ∧ c ≤ '9' := by
  simp only [isDigit, Bool.and_eq_true, decide_eq_true_eq]

theorem isUpper_iff (c : Char) : c.isUpper = true ↔ 'A' ≤ c ∧ c ≤ 'Z' := decide_eq_true_iff

theorem isLower_iff (c : Char) : c.isLower = true ↔ 'a' ≤ c ∧ c ≤ 'z' := by
  have bounds : c.isLower = (decide ('a' ≤ c) && decide (c ≤ 'z')) := rfl
  rw [bounds, Bool.and_eq_true, decide_eq_true_iff, decide_eq_true_iff]

theorem beginsName_iff (c : Char) : beginsName c = true ↔ NameStart c := by
  have letters : c.isAlpha = (c.isUpper || c.isLower) := rfl
  simp only [beginsName, NameStart, letters, isUpper_iff, isLower_iff, Bool.or_eq_true,
    decide_eq_true_eq, or_assoc]

theorem continuesName_iff (c : Char) :
    continuesName c = true ↔ NameStart c ∨ ('0' ≤ c ∧ c ≤ '9') := by
  rw [← beginsName_iff, continuesName, beginsName, Char.isAlphanum, Char.isDigit]
  simp only [Bool.or_eq_true, Bool.and_eq_true, decide_eq_true_eq, Char.le_def, ge_iff_le]
  constructor
  · rintro ((letter | digit) | underscore)
    · exact .inl (.inl letter)
    · exact .inr digit
    · exact .inl (.inr underscore)
  · rintro ((letter | underscore) | digit)
    · exact .inl (.inl letter)
    · exact .inr underscore
    · exact .inl (.inr digit)

theorem endsLine_eq_false_iff (c : Char) : endsLine c = false ↔ c ≠ '\r' ∧ c ≠ '\n' := by
  simp only [endsLine, Bool.or_eq_false_iff, decide_eq_false_iff_not, And.comm, ne_eq]

/-- A digit begins no name. -/
theorem not_isDigit_of_nameStart {c : Char} (start : NameStart c) : isDigit c = false := by
  rw [Bool.eq_false_iff, ne_eq, isDigit_iff]
  intro digit
  rcases digit with ⟨low, high⟩
  simp only [NameStart, Char.le_def, Char.reduceVal] at start low high
  rcases start with ⟨above, -⟩ | ⟨above, -⟩ | rfl
  · exact absurd (UInt32.le_trans above high) (by decide)
  · exact absurd (UInt32.le_trans above high) (by decide)
  · exact absurd high (by decide)

theorem Digits.isDigit {digits : List Char} (written : Digits digits) :
    ∀ c ∈ digits, isDigit c = true := fun c member => (isDigit_iff c).mpr (written.only c member)

/-- The characters of numbers. -/
def inNumber (c : Char) : Bool :=
  isDigit c || c = '.' || c = 'e' || c = 'E' || c = '+' || c = '-'

theorem Digits.inNumber {digits : List Char} (written : Digits digits) :
    ∀ c ∈ digits, inNumber c = true := by
  intro c member
  simp [Lexeme.inNumber, written.isDigit c member]

theorem NumberText.inNumber {text : List Char} (numeral : NumberText text) :
    ∀ c ∈ text, inNumber c = true := by
  obtain ⟨digits, point, power⟩ := numeral
  simp only [List.forall_mem_append]
  refine ⟨digits.inNumber, ?_, ?_⟩
  · cases point with
    | absent => exact fun _ absent => by cases absent
    | point written => exact List.forall_mem_cons.mpr ⟨rfl, written.inNumber⟩
  · cases power with
    | absent => exact fun _ absent => by cases absent
    | power marked signed written =>
      simp only [List.forall_mem_cons, List.forall_mem_append]
      refine ⟨?_, ?_, written.inNumber⟩
      · rcases marked with rfl | rfl <;> rfl
      · rcases signed with rfl | rfl | rfl <;> simp [Lexeme.inNumber]

theorem NameText.continuesName {text : List Char} (named : NameText text) :
    ∀ c ∈ text, continuesName c = true := by
  obtain ⟨start, rest⟩ := named
  refine List.forall_mem_cons.mpr ⟨?_, ?_⟩
  · exact (continuesName_iff _).mpr (.inl start)
  · exact fun c member => (continuesName_iff c).mpr (rest c member)

/-- No line ends within a significant lexeme. -/
theorem Pattern.endsLine_eq_false {text : List Char} {token : Token} (fits : Pattern text token)
    (significant : token.isSignificant = true) : ∀ c ∈ text, endsLine c = false := by
  -- the characters that end a line belong to no number and to no name
  have apart {inside : Char → Bool} (feed : inside '\n' = false) (carriage : inside '\r' = false)
      (c : Char) (within : inside c = true) : endsLine c = false := by
    rw [endsLine_eq_false_iff]
    constructor
    · rintro rfl
      rw [carriage] at within
      cases within
    · rintro rfl
      rw [feed] at within
      cases within
  cases fits with
  | space | tab | newline | comment => cases significant
  | symbol listed =>
    have plain : ∀ entry ∈ symbols, endsLine entry.1 = false := by decide
    exact List.forall_mem_singleton.mpr (plain _ listed)
  | comparison op =>
    have plain : (op.symbol.toList.all fun c => !endsLine c) = true := by cases op <;> rfl
    exact fun c member => by simpa using List.all_eq_true.mp plain c member
  | number numeral => exact fun c member => apart rfl rfl c (numeral.inNumber c member)
  | name named => exact fun c member => apart rfl rfl c (named.continuesName c member)

theorem NumberText.first_digit {first : Char} {more : List Char}
    (numeral : NumberText (first :: more)) : isDigit first = true := by
  generalize whole : first :: more = text at numeral
  obtain @⟨row, _, _, digits, _, _⟩ := numeral
  cases row with
  | nil => exact absurd rfl digits.present
  | cons d rest =>
    obtain ⟨rfl, _⟩ := List.cons.inj whole
    exact (isDigit_iff _).mpr (digits.only _ (List.mem_cons_self ..))

/-- The token that the text of a lexeme stands for, whatever its size. -/
def sense (l : Lexeme) : Option Token :=
  if isDigit l.first then some (.number (String.ofList l.text))
  else if beginsName l.first then some (.ofName l.text)
  else if l.first = '#' then some (.comment (String.ofList l.more))
  else match punctuation? l.first with
    | some token => some token
    | none => (Comparison.ofSymbol? (String.ofList l.text)).map .comparison

/-- A symbol begins no number, no name and no comment. -/
theorem punctuation?_of_symbol {c : Char} {token : Token} (listed : (c, token) ∈ symbols) :
    isDigit c = false ∧ beginsName c = false ∧ c ≠ '#' ∧ punctuation? c = some token := by
  simp only [symbols, List.mem_cons, Prod.mk.injEq, List.not_mem_nil, or_false] at listed
  rcases listed with ⟨rfl, rfl⟩ | ⟨rfl, rfl⟩ | ⟨rfl, rfl⟩ | ⟨rfl, rfl⟩ | ⟨rfl, rfl⟩ |
    ⟨rfl, rfl⟩ | ⟨rfl, rfl⟩ | ⟨rfl, rfl⟩ | ⟨rfl, rfl⟩ <;> exact ⟨rfl, rfl, by decide, rfl⟩

theorem Pattern.sense {first : Char} {more : List Char} {token : Token}
    (fits : Pattern (first :: more) token) : Lexeme.sense ⟨first, more⟩ = some token := by
  generalize whole : first :: more = text at fits
  cases fits with
  | space => cases whole; rfl
  | tab => cases whole; rfl
  | newline ends => rcases ends with rfl | rfl | rfl <;> cases whole <;> rfl
  | comment line => cases whole; rfl
  | symbol listed =>
    cases whole
    obtain ⟨noDigit, noName, noMark, known⟩ := punctuation?_of_symbol listed
    simp [Lexeme.sense, noDigit, noName, noMark, known]
  | comparison op => cases op <;> cases whole <;> rfl
  | number numeral =>
    cases whole
    simp only [Lexeme.sense, numeral.first_digit, if_true, text]
  | name named =>
    cases whole
    obtain ⟨start, _⟩ := named
    have letter : beginsName first = true := (beginsName_iff first).mpr start
    simp only [Lexeme.sense, not_isDigit_of_nameStart start, letter, if_true, text]
    rfl

theorem Pattern.ne_nil {text : List Char} {token : Token} (fits : Pattern text token) :
    text ≠ [] := by
  cases fits with
  | newline ends => rcases ends with rfl | rfl | rfl <;> exact List.cons_ne_nil _ _
  | comparison op => cases op <;> decide
  | number numeral =>
    obtain ⟨digits, _, _⟩ := numeral
    intro empty
    exact digits.present (List.append_eq_nil_iff.mp empty).1
  | name named =>
    obtain ⟨_, _⟩ := named
    exact List.cons_ne_nil _ _
  | _ => exact List.cons_ne_nil _ _

/-- A text has one token at most. -/
theorem Pattern.unique {text : List Char} {token token' : Token} (fits : Pattern text token)
    (fits' : Pattern text token') : token = token' := by
  cases text with
  | nil => exact absurd rfl fits.ne_nil
  | cons first more => exact Option.some.inj (fits.sense.symm.trans fits'.sense)

/-- The longest lexeme at the front of a text is one text with one token. -/
theorem Longest.unique {text text' rest rest' : List Char} {token token' : Token}
    (longest : Longest text rest token) (longest' : Longest text' rest' token')
    (same : text ++ rest = text' ++ rest') : text = text' ∧ rest = rest' ∧ token = token' := by
  have upper := longest'.greatest text rest token same longest.fits
  have lower := longest.greatest text' rest' token' same.symm longest'.fits
  obtain ⟨rfl, rfl⟩ := List.append_inj same (Nat.le_antisymm upper lower)
  exact ⟨rfl, rfl, longest.fits.unique longest'.fits⟩

end EventQuery.Lexeme
