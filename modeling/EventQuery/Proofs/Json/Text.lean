import EventQuery.Json.Reader

set_option autoImplicit false

namespace EventQuery.Json

/-- `[0-9a-fA-F]` -/
def HexDigit (c : Char) : Prop :=
  ('0' ≤ c ∧ c ≤ '9') ∨ ('a' ≤ c ∧ c ≤ 'f') ∨ ('A' ≤ c ∧ c ≤ 'F')

/-- The letters that may follow a backslash alone. -/
def escapeLetters : List Char := ['"', '\\', '/', 'b', 'f', 'n', 'r', 't']

/-- What may stand between the quotes of a string: characters that are no controls, and escapes. -/
inductive StringText : List Char → Prop where
  | nil : StringText []
  | plain {c : Char} {rest : List Char} (quote : c ≠ '"') (slash : c ≠ '\\') (visible : ¬ c < ' ')
      (more : StringText rest) : StringText (c :: rest)
  | letter {c : Char} {rest : List Char} (known : c ∈ escapeLetters) (more : StringText rest) :
      StringText ('\\' :: c :: rest)
  | code {p q r s : Char} {rest : List Char} (digits : ∀ c ∈ [p, q, r, s], HexDigit c)
      (more : StringText rest) : StringText ('\\' :: 'u' :: p :: q :: r :: s :: rest)

theorem isSome_simpleEscape?_iff (c : Char) :
    (simpleEscape? c).isSome = true ↔ c ∈ escapeLetters := by
  unfold simpleEscape? escapeLetters
  split <;> simp_all

theorem isSome_hexValue?_iff (c : Char) : (hexValue? c).isSome = true ↔ HexDigit c := by
  unfold hexValue? HexDigit
  split
  · simp_all
  · split
    · simp_all
    · split <;> simp_all

theorem isSome_hexUnit?_iff (p q r s : Char) :
    (hexUnit? p q r s).isSome = true ↔ ∀ c ∈ [p, q, r, s], HexDigit c := by
  simp only [List.forall_mem_cons, ← isSome_hexValue?_iff]
  unfold hexUnit?
  cases hexValue? p <;> cases hexValue? q <;> cases hexValue? r <;> cases hexValue? s <;> simp

/-- The four digits of a control character, and what they are worth. -/
theorem hexDigits_of_control : ∀ n < 32, ∃ a b c d,
    hexDigits 4 n = [a, b, c, d] ∧ hexUnit? a b c d = some n := by
  have each : ∀ n < 32, (hexDigits 4 n).length = 4 ∧
      hexUnit? (hexDigits 4 n)[0]! (hexDigits 4 n)[1]! (hexDigits 4 n)[2]! (hexDigits 4 n)[3]! =
        some n := by decide +kernel
  intro n below
  obtain ⟨four, worth⟩ := each n below
  match written : hexDigits 4 n, four with
  | [a, b, c, d], _ =>
    rw [written] at worth
    exact ⟨a, b, c, d, rfl, worth⟩

theorem toNat_lt_of_control {c : Char} (control : c < ' ') : c.toNat < 32 := by
  simpa [Char.lt_def, UInt32.lt_iff_toNat_lt] using control

/-- How a character is escaped: by a letter, by its code, or not at all. -/
theorem escapeChar_cases (c : Char) :
    (∃ letter, escapeChar c = ['\\', letter] ∧ letter ≠ 'u' ∧ simpleEscape? letter = some c) ∨
      (∃ p q r s, escapeChar c = ['\\', 'u', p, q, r, s] ∧ hexUnit? p q r s = some c.toNat) ∨
      (escapeChar c = [c] ∧ c ≠ '"' ∧ c ≠ '\\' ∧ ¬ c < ' ') := by
  unfold escapeChar
  split
  case h_8 quote slash _ _ _ _ _ =>
    split
    · rename_i control
      obtain ⟨p, q, r, s, written, worth⟩ := hexDigits_of_control _ (toNat_lt_of_control control)
      rw [written]
      exact .inr (.inl ⟨p, q, r, s, rfl, worth⟩)
    · rename_i plain
      exact .inr (.inr ⟨rfl, quote, slash, plain⟩)
  all_goals exact .inl ⟨_, rfl, by decide, rfl⟩

/-- An escape stands for its characters in front of any text of a string. -/
theorem stringText_escapeChar (c : Char) {rest : List Char} (more : StringText rest) :
    StringText (escapeChar c ++ rest) := by
  rcases escapeChar_cases c with ⟨letter, same, _, stands⟩ | ⟨p, q, r, s, same, worth⟩ |
    ⟨same, quote, slash, plain⟩
  · rw [same]
    exact .letter ((isSome_simpleEscape?_iff letter).mp (stands ▸ rfl)) more
  · rw [same]
    exact .code ((isSome_hexUnit?_iff p q r s).mp (worth ▸ rfl)) more
  · rw [same]
    exact .plain quote slash plain more

theorem stringText_escape (text : List Char) : StringText (escape text) := by
  induction text with
  | nil => exact .nil
  | cons c text ih =>
    rw [escape, List.flatMap_cons, ← escape]
    exact stringText_escapeChar c ih

/-- The text of a string is taken up to the quote behind it. -/
theorem takeString_stringText {written : List Char} (string : StringText written)
    (rest : List Char) : ∀ taken,
      takeString taken (written ++ '"' :: rest) = some (taken.reverse ++ written, rest) := by
  induction string with
  | nil =>
    intro taken
    simp [takeString]
  | plain quote slash visible _ ih =>
    intro taken
    simp [takeString, slash, visible, ih]
  | letter known _ ih =>
    intro taken
    have simple := (isSome_simpleEscape?_iff _).mpr known
    have noCode := ne_of_mem_of_not_mem known (by decide : 'u' ∉ escapeLetters)
    simp [takeString, noCode, simple, ih]
  | code digits _ ih =>
    intro taken
    have unit := (isSome_hexUnit?_iff _ _ _ _).mpr digits
    simp [takeString, unit, ih]

theorem codes?_escapeChar (c : Char) (rest : List Char) :
    codes? (escapeChar c ++ rest) = (codes? rest).map (c.toNat :: ·) := by
  rcases escapeChar_cases c with ⟨letter, same, noCode, stands⟩ | ⟨p, q, r, s, same, worth⟩ |
    ⟨same, quote, slash, plain⟩
  · rw [same]
    cases h : codes? rest <;> simp [codes?, noCode, stands, h]
  · rw [same]
    cases h : codes? rest <;> simp [codes?, worth, h]
  · rw [same]
    simp [codes?, slash]

theorem codes?_escape (text : List Char) : codes? (escape text) = some (text.map Char.toNat) := by
  induction text with
  | nil => simp [escape, codes?]
  | cons c text ih =>
    rw [escape, List.flatMap_cons, ← escape, codes?_escapeChar, ih]
    rfl

/-- No character has the code of a surrogate. -/
theorem not_surrogate (c : Char) : isLeading c.toNat = false ∧ isTrailing c.toNat = false := by
  have valid : c.toNat < 0xD800 ∨ 0xDFFF < c.toNat ∧ c.toNat < 0x110000 := c.valid
  simp only [isLeading, isTrailing, Bool.and_eq_false_iff, decide_eq_false_iff_not]
  omega

theorem ofCodes?_map_toNat (text : List Char) : ofCodes? (text.map Char.toNat) = some text := by
  induction text with
  | nil => rfl
  | cons c text ih =>
    obtain ⟨leading, trailing⟩ := not_surrogate c
    cases text with
    | nil => simp [ofCodes?, leading, trailing]
    | cons d text =>
      rw [List.map_cons] at ih
      simp [ofCodes?, leading, trailing, ih]

/-- What is escaped can be read back. -/
theorem unescape?_escape (text : List Char) : unescape? (escape text) = some text := by
  rw [unescape?, codes?_escape, Option.bind_some, ofCodes?_map_toNat]

end EventQuery.Json
