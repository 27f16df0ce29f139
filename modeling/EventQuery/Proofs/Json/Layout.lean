import EventQuery.Proofs.Json.Number
import EventQuery.Proofs.Json.Text

/- Which texts write a document: the same parts in the same order, with blanks between them. Both
printers write such texts, and whatever the blanks are, the document is read back. -/

set_option autoImplicit false

namespace EventQuery.Json

/-- White space between the parts of a document. -/
def Blanks (text : List Char) : Prop := ∀ c ∈ text, isBlank c = true

mutual

/-- The text writes the document, without blanks on either side. -/
inductive Writes : Json → List Char → Prop where
  | null : Writes .null "null".toList
  | bool (value : Bool) : Writes (.bool value) (literal value)
  | number {written : List Char} (numeral : NumberText written) : Writes (.number written) written
  | string {written : List Char} (text : StringText written) :
      Writes (.string written) (quote written)
  | emptyArray : Writes (.array []) ['[', ']']
  | array {entries : List Json} {body : List Char} (inside : WritesEntries entries body) :
      Writes (.array entries) ('[' :: (body ++ [']']))
  | emptyObject : Writes (.object []) ['{', '}']
  | object {entries : List (List Char × Json)} {body : List Char}
      (inside : WritesFields entries body) : Writes (.object entries) ('{' :: (body ++ ['}']))

/-- The text writes the entries with commas between them, at least one. -/
inductive WritesEntries : List Json → List Char → Prop where
  | last {entry : Json} {before text after : List Char} (front : Blanks before)
      (only : Writes entry text) (back : Blanks after) :
      WritesEntries [entry] (before ++ (text ++ after))
  | more {entry : Json} {rest : List Json} {before text body : List Char} (front : Blanks before)
      (first : Writes entry text) (others : WritesEntries rest body) :
      WritesEntries (entry :: rest) (before ++ (text ++ ',' :: body))

/-- The text writes the entries with their keys, at least one. -/
inductive WritesFields : List (List Char × Json) → List Char → Prop where
  | last {key : List Char} {entry : Json} {before between text after : List Char}
      (named : StringText key) (front : Blanks before) (middle : Blanks between)
      (only : Writes entry text) (back : Blanks after) :
      WritesFields [(key, entry)] (before ++ (quote key ++ ':' :: (between ++ (text ++ after))))
  | more {key : List Char} {entry : Json} {rest : List (List Char × Json)}
      {before between text body : List Char} (named : StringText key) (front : Blanks before)
      (middle : Blanks between) (first : Writes entry text) (others : WritesFields rest body) :
      WritesFields ((key, entry) :: rest)
        (before ++ (quote key ++ ':' :: (between ++ (text ++ ',' :: body))))

end

section Blanks

variable {before rest : List Char} {c : Char}

theorem skipBlanks_append (front : Blanks before) (first : isBlank c = false) :
    skipBlanks (before ++ c :: rest) = c :: rest := by
  rw [skipBlanks, List.dropWhile_append_of_pos front, List.dropWhile_cons_of_neg (by simp [first])]

theorem skipBlanks_cons (first : isBlank c = false) : skipBlanks (c :: rest) = c :: rest := by
  rw [skipBlanks, List.dropWhile_cons_of_neg (by simp [first])]

theorem isBlank_cases (blank : isBlank c = true) : c = ' ' ∨ c = '\n' ∨ c = '\t' ∨ c = '\r' := by
  simpa [isBlank, or_assoc] using blank

theorem isBlank_eq_false_of_isDigit (digit : isDigit c = true) : isBlank c = false := by
  rw [Bool.eq_false_iff]
  intro blank
  rcases isBlank_cases blank with rfl | rfl | rfl | rfl <;> exact absurd digit (by decide)

/-- A number ends at blanks as well as at what ends it behind them. -/
theorem endsNumber_append (front : Blanks before) (ends : EndsNumber rest) :
    EndsNumber (before ++ rest) := by
  cases before with
  | nil => exact ends
  | cons b more =>
    refine endsNumber_cons ?_ _
    rcases isBlank_cases (front b List.mem_cons_self) with rfl | rfl | rfl | rfl <;> rfl

end Blanks

/-- A document begins with a character that is no blank and closes nothing. -/
theorem Writes.head {j : Json} {text : List Char} (writes : Writes j text) :
    ∃ c more, text = c :: more ∧ isBlank c = false ∧ c ≠ ']' ∧ c ≠ '}' := by
  cases writes with
  | null => exact ⟨'n', _, rfl, by decide⟩
  | bool value => cases value with
    | false => exact ⟨'f', _, rfl, by decide⟩
    | true => exact ⟨'t', _, rfl, by decide⟩
  | number numeral =>
    obtain ⟨c, more, same, minus | digit⟩ := numeral.head
    · exact ⟨c, more, same, by rw [minus]; decide⟩
    · refine ⟨c, more, same, isBlank_eq_false_of_isDigit digit, ?_, ?_⟩
      · rintro rfl
        exact absurd digit (by decide)
      · rintro rfl
        exact absurd digit (by decide)
  | string text => exact ⟨'"', _, rfl, by decide⟩
  | emptyArray => exact ⟨'[', _, rfl, by decide⟩
  | array inside => exact ⟨'[', _, rfl, by decide⟩
  | emptyObject => exact ⟨'{', _, rfl, by decide⟩
  | object inside => exact ⟨'{', _, rfl, by decide⟩

section Reading

variable {fuel : Nat} {before rest : List Char}

theorem readValue_number {written : List Char} (numeral : NumberText written)
    (front : Blanks before) (ends : EndsNumber rest) :
    readValue (fuel + 1) (before ++ (written ++ rest)) = some (.number written, rest) := by
  obtain ⟨c, more, same, first⟩ := numeral.head
  have taken := takeNumber_of_numberText numeral ends
  have solid : isBlank c = false := by
    rcases first with rfl | digit
    · decide
    · exact isBlank_eq_false_of_isDigit digit
  subst same
  rw [List.cons_append] at taken ⊢
  rw [readValue, skipBlanks_append front solid]
  split
  case h_7 => rw [taken]; rfl
  all_goals
    rename_i heq
    cases heq
    rcases first with dash | digit
    · exact absurd dash (by decide)
    · exact absurd digit (by decide)

theorem readValue_string {written : List Char} (text : StringText written)
    (front : Blanks before) :
    readValue (fuel + 1) (before ++ (quote written ++ rest)) = some (.string written, rest) := by
  have taken := takeString_stringText text rest []
  rw [quote, List.append_assoc, List.cons_append, readValue, skipBlanks_append front (by decide)]
  simp [taken]

/-- What is left to the entries of an array when its bracket and that of their end are read. -/
theorem readValue_array {entries : List Json} {body : List Char} {read : Option (Json × List Char)}
    (front : Blanks before) (inside : WritesEntries entries body)
    (found : readEntries fuel [] (body ++ ']' :: rest) = read) :
    readValue (fuel + 1) (before ++ ('[' :: (body ++ ']' :: rest))) = read := by
  have opens : ∀ more, skipBlanks (body ++ ']' :: rest) ≠ ']' :: more := by
    intro more closed
    cases inside with
    | last blanks only _ | more blanks only _ =>
      obtain ⟨c, others, rfl, solid, other, _⟩ := only.head
      rw [List.append_assoc, List.cons_append, List.cons_append, skipBlanks_append blanks solid]
        at closed
      exact other (List.cons.inj closed).1
  rw [readValue, skipBlanks_append front (by decide)]
  simp [found]

theorem readValue_object {entries : List (List Char × Json)} {body : List Char}
    {read : Option (Json × List Char)} (front : Blanks before) (inside : WritesFields entries body)
    (found : readFields fuel [] (body ++ '}' :: rest) = read) :
    readValue (fuel + 1) (before ++ ('{' :: (body ++ '}' :: rest))) = read := by
  have opens : ∀ more, skipBlanks (body ++ '}' :: rest) ≠ '}' :: more := by
    intro more closed
    cases inside with
    | last _ blanks _ _ _ | more _ blanks _ _ _ =>
      rw [List.append_assoc, List.append_assoc, quote, List.cons_append, List.cons_append,
        skipBlanks_append blanks (by decide)] at closed
      exact absurd (List.cons.inj closed).1 (by decide)
  rw [readValue, skipBlanks_append front (by decide)]
  simp [found]

section Entries

variable {entry : Json} {text after key between : List Char}

theorem readEntries_comma (read : List Json) (back : Blanks after)
    (found : readValue fuel text = some (entry, after ++ ',' :: rest)) :
    readEntries (fuel + 1) read text = readEntries fuel (entry :: read) rest := by
  rw [readEntries, found]
  dsimp only
  rw [skipBlanks_append back (by decide)]
  rfl

theorem readEntries_end (read : List Json) (back : Blanks after)
    (found : readValue fuel text = some (entry, after ++ ']' :: rest)) :
    readEntries (fuel + 1) read text = some (.array (entry :: read).reverse, rest) := by
  rw [readEntries, found]
  dsimp only
  rw [skipBlanks_append back (by decide)]
  rfl

theorem readFields_comma (read : List (List Char × Json)) (named : StringText key)
    (front : Blanks before) (back : Blanks after)
    (found : readValue fuel text = some (entry, after ++ ',' :: rest)) :
    readFields (fuel + 1) read (before ++ (quote key ++ ':' :: text)) =
      readFields fuel ((key, entry) :: read) rest := by
  have taken := takeString_stringText named (':' :: text) []
  have behind : skipBlanks (after ++ ',' :: rest) = ',' :: rest :=
    skipBlanks_append back (by decide)
  rw [quote, List.append_assoc, List.cons_append, readFields, skipBlanks_append front (by decide),
    List.singleton_append]
  simp only [taken, skipBlanks_cons (c := ':') (by decide), found, behind, List.reverse_nil,
    List.nil_append]

theorem readFields_end (read : List (List Char × Json)) (named : StringText key)
    (front : Blanks before) (back : Blanks after)
    (found : readValue fuel text = some (entry, after ++ '}' :: rest)) :
    readFields (fuel + 1) read (before ++ (quote key ++ ':' :: text)) =
      some (.object ((key, entry) :: read).reverse, rest) := by
  have taken := takeString_stringText named (':' :: text) []
  have behind : skipBlanks (after ++ '}' :: rest) = '}' :: rest :=
    skipBlanks_append back (by decide)
  rw [quote, List.append_assoc, List.cons_append, readFields, skipBlanks_append front (by decide),
    List.singleton_append]
  simp only [taken, skipBlanks_cons (c := ':') (by decide), found, behind, List.reverse_nil,
    List.nil_append]

end Entries

end Reading

theorem blanks_nil : Blanks [] := fun _ absent => by cases absent

mutual

/-- Every character of a text pays for one step of the reader, which is more than it takes. -/
theorem Writes.read : ∀ {j : Json} {text : List Char}, Writes j text →
    ∀ (fuel : Nat) {before rest : List Char}, text.length ≤ fuel → Blanks before →
      EndsNumber rest → readValue fuel (before ++ (text ++ rest)) = some (j, rest)
  | _, _, writes, 0, _, _, enough, _, _ => by
    obtain ⟨c, more, rfl, _⟩ := writes.head
    cases enough
  | _, _, .null, fuel + 1, _, _, _, front, _ => by
    simp [readValue, skipBlanks_append front (c := 'n'), afterWord, isBlank]
  | _, _, .bool value, fuel + 1, _, _, _, front, _ => by
    cases value with
    | false => simp [literal, readValue, skipBlanks_append front (c := 'f'), afterWord, isBlank]
    | true => simp [literal, readValue, skipBlanks_append front (c := 't'), afterWord, isBlank]
  | _, _, .number numeral, fuel + 1, _, _, _, front, ends => readValue_number numeral front ends
  | _, _, .string text, fuel + 1, _, _, _, front, _ => readValue_string text front
  | _, _, .emptyArray, fuel + 1, _, _, _, front, _ => by
    simp [readValue, skipBlanks_append front (c := '['), skipBlanks_cons (c := ']'), isBlank]
  | _, _, .array inside, fuel + 1, _, rest, enough, front, _ => by
    have read := inside.read fuel [] rest (by simpa using enough)
    have found := readValue_array front inside read
    simpa using found
  | _, _, .emptyObject, fuel + 1, _, _, _, front, _ => by
    simp [readValue, skipBlanks_append front (c := '{'), skipBlanks_cons (c := '}'), isBlank]
  | _, _, .object inside, fuel + 1, _, rest, enough, front, _ => by
    have read := inside.read fuel [] rest (by simpa using enough)
    have found := readValue_object front inside read
    simpa using found

theorem WritesEntries.read : ∀ {entries : List Json} {body : List Char},
    WritesEntries entries body → ∀ (fuel : Nat) (read : List Json) (rest : List Char),
      body.length < fuel →
      readEntries fuel read (body ++ ']' :: rest) = some (.array (read.reverse ++ entries), rest)
  | _, _, .last front only back, fuel + 1, read, rest, enough => by
    simp only [List.length_append] at enough
    have ends : EndsNumber (']' :: rest) := endsNumber_cons (by decide) rest
    have found := only.read fuel (by omega) front (endsNumber_append back ends)
    have ended := readEntries_end read back found
    simpa using ended
  | _, _, @WritesEntries.more entry _ _ _ body front first others, fuel + 1, read, rest,
      enough => by
    simp only [List.length_append, List.length_cons] at enough
    have ends : EndsNumber (',' :: (body ++ ']' :: rest)) := endsNumber_cons (by decide) _
    have found := first.read fuel (by omega) front ends
    have ended := readEntries_comma read blanks_nil found
    have onward := others.read fuel (entry :: read) rest (by omega)
    simpa using ended.trans onward

theorem WritesFields.read : ∀ {entries : List (List Char × Json)} {body : List Char},
    WritesFields entries body → ∀ (fuel : Nat) (read : List (List Char × Json)) (rest : List Char),
      body.length < fuel →
      readFields fuel read (body ++ '}' :: rest) = some (.object (read.reverse ++ entries), rest)
  | _, _, .last named front middle only back, fuel + 1, read, rest, enough => by
    simp only [List.length_append, List.length_cons] at enough
    have ends : EndsNumber ('}' :: rest) := endsNumber_cons (by decide) rest
    have found := only.read fuel (by omega) middle (endsNumber_append back ends)
    have ended := readFields_end read named front back found
    simpa using ended
  | _, _, @WritesFields.more key entry _ _ _ _ body named front middle first others, fuel + 1,
      read, rest, enough => by
    simp only [List.length_append, List.length_cons] at enough
    have ends : EndsNumber (',' :: (body ++ '}' :: rest)) := endsNumber_cons (by decide) _
    have found := first.read fuel (by omega) middle ends
    have ended := readFields_comma read named front blanks_nil found
    have onward := others.read fuel ((key, entry) :: read) rest (by omega)
    simpa using ended.trans onward

end

/-- Whatever blanks are in a text, the document that it writes is the one that is read from it. -/
theorem read?_of_writes {j : Json} {text : List Char} (writes : Writes j text) :
    read? text = some j := by
  have ends : EndsNumber [] := fun _ absent => by cases absent
  have found := writes.read (2 * text.length + 2) (by omega) blanks_nil ends
  rw [List.nil_append, List.append_nil] at found
  rw [read?, found]
  rfl

end EventQuery.Json
