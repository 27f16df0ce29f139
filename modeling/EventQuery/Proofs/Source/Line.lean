import Mathlib.Data.List.Induction
import EventQuery.Proofs.Source.Place

set_option autoImplicit false

namespace EventQuery

/-- The characters of a text behind its last line feed. -/
def lastLine (text : List Char) : List Char := (text.reverse.takeWhile (· ≠ '\n')).reverse

theorem Position.Counts.column_eq {front : List Char} {p : Position} (counts : p.Counts front) :
    p.column.toNat = (lastLine front).length + 1 := by
  rw [counts.column, lastLine, List.length_reverse]

theorem lastLine_feed (front : List Char) : lastLine (front ++ ['\n']) = [] := by
  rw [lastLine, List.reverse_append]
  rfl

theorem lastLine_concat {c : Char} (within : c ≠ '\n') (front : List Char) :
    lastLine (front ++ [c]) = lastLine front ++ [c] := by
  rw [lastLine, List.reverse_append, List.reverse_singleton, List.singleton_append,
    List.takeWhile_cons_of_pos (by simpa using within), List.reverse_cons]
  rfl

theorem lastLine_append {middle : List Char} (within : '\n' ∉ middle) (front : List Char) :
    lastLine (front ++ middle) = lastLine front ++ middle := by
  induction middle using List.reverseRecOn with
  | nil => rw [List.append_nil, List.append_nil]
  | append_singleton before c ih =>
    rw [List.mem_append, List.mem_singleton, not_or] at within
    rw [← List.append_assoc, lastLine_concat (Ne.symm within.2), ih within.1, List.append_assoc]

theorem splitLines_feed (rest : List Char) : splitLines ('\n' :: rest) = [] :: splitLines rest := rfl

theorem splitLines_cons {c : Char} (within : c ≠ '\n') {rest line : List Char}
    {others : List (List Char)} (split : splitLines rest = line :: others) :
    splitLines (c :: rest) = (c :: line) :: others := by
  rw [splitLines] at split ⊢
  rw [List.foldr_cons, if_neg within, split]

theorem exists_splitLines (text : List Char) :
    ∃ others, splitLines text = text.takeWhile (· ≠ '\n') :: others := by
  induction text with
  | nil => exact ⟨[], rfl⟩
  | cons c rest ih =>
    obtain ⟨others, split⟩ := ih
    by_cases feed : c = '\n'
    · subst feed
      exact ⟨splitLines rest, splitLines_feed rest⟩
    · refine ⟨others, ?_⟩
      rw [splitLines_cons feed split, List.takeWhile_cons_of_pos (by simpa using feed)]

/-- The lines from the one of a place on. By induction on the text before the place from its end,
where a character belongs to the line of the place or, as a line feed, begins it. -/
theorem drop_splitLines (front : List Char) :
    ∀ {rest line : List Char} {others : List (List Char)}, splitLines rest = line :: others →
      (splitLines (front ++ rest)).drop (front.count '\n') = (lastLine front ++ line) :: others := by
  induction front using List.reverseRecOn with
  | nil => exact fun split => split
  | append_singleton before c ih =>
    intro rest line others split
    rw [List.append_assoc, List.singleton_append, List.count_append, List.count_singleton]
    by_cases feed : c = '\n'
    · subst feed
      rw [if_pos (beq_self_eq_true _), ← List.drop_drop, ih (splitLines_feed rest), lastLine_feed, split]
      rfl
    · rw [if_neg (by simpa using feed), Nat.add_zero, ih (splitLines_cons feed split),
        lastLine_concat feed, List.append_assoc, List.singleton_append]

theorem getElem?_splitLines (front rest : List Char) :
    (splitLines (front ++ rest))[front.count '\n']? =
      some (lastLine front ++ rest.takeWhile (· ≠ '\n')) := by
  obtain ⟨others, split⟩ := exists_splitLines rest
  rw [← List.head?_drop, drop_splitLines front split]
  rfl

/-- The offsets behind the line feeds of a text that begins at an offset. -/
def startsFrom (offset : Nat) : List Char → List Nat
  | [] => []
  | c :: rest =>
    if c = '\n' then (offset + 1) :: startsFrom (offset + 1) rest
    else startsFrom (offset + c.utf8Size) rest

/-- The characters from the start in a place up to the line feed before the next start, or up to the
end of the text. -/
def between (content : List Char) (starts : List Nat) (i : Nat) : Option (List Char) :=
  starts[i]?.bind fun start =>
    sliceBytes content start ((starts[i + 1]?.map (· - 1)).getD (byteCount content))

theorem startsFrom_append {line : List Char} (within : '\n' ∉ line) (offset : Nat)
    (rest : List Char) :
    startsFrom offset (line ++ rest) = startsFrom (offset + byteCount line) rest := by
  induction line generalizing offset with
  | nil => rfl
  | cons c more ih =>
    rw [List.mem_cons, not_or] at within
    rw [List.cons_append, startsFrom, if_neg (Ne.symm within.1), ih within.2, byteCount_cons,
      Nat.add_assoc]

theorem startsFrom_line {line : List Char} (within : '\n' ∉ line) (offset : Nat) :
    startsFrom offset line = [] := by
  simpa only [List.append_nil, startsFrom] using startsFrom_append within offset []

theorem startsFrom_line_feed {line : List Char} (within : '\n' ∉ line) (front rest : List Char) :
    startsFrom (byteCount front) (line ++ '\n' :: rest) =
      byteCount (front ++ (line ++ ['\n'])) ::
        startsFrom (byteCount (front ++ (line ++ ['\n']))) rest := by
  have ends : byteCount (front ++ (line ++ ['\n'])) = byteCount front + byteCount line + 1 := by
    rw [← List.append_assoc, byteCount_append, byteCount_append]
    rfl
  rw [startsFrom_append within, startsFrom, if_pos rfl, ends]

theorem splitLines_append {line : List Char} (within : '\n' ∉ line) {rest first : List Char}
    {others : List (List Char)} (split : splitLines rest = first :: others) :
    splitLines (line ++ rest) = (line ++ first) :: others := by
  induction line with
  | nil => exact split
  | cons c more ih =>
    rw [List.mem_cons, not_or] at within
    exact splitLines_cons (Ne.symm within.1) (ih within.2)

theorem splitLines_line {line : List Char} (within : '\n' ∉ line) : splitLines line = [line] := by
  have empty : splitLines [] = [[]] := rfl
  simpa only [List.append_nil] using splitLines_append within empty

theorem splitLines_line_feed {line : List Char} (within : '\n' ∉ line) (rest : List Char) :
    splitLines (line ++ '\n' :: rest) = line :: splitLines rest := by
  simpa only [List.append_nil] using splitLines_append within (splitLines_feed rest)

/-- A text is a line, or a line with a line feed and more behind it. -/
theorem cases_line (text : List Char) :
    '\n' ∉ text ∨ ∃ line rest, '\n' ∉ line ∧ text = line ++ '\n' :: rest := by
  by_cases feed : '\n' ∈ text
  · obtain ⟨line, rest, rfl, within⟩ := List.eq_append_cons_of_mem feed
    exact .inr ⟨line, rest, within, rfl⟩
  · exact .inl feed

/-- Lines are found by their offsets. By induction on the length of the text that is left behind the
lines in `front`. -/
theorem between_starts (left : Nat) :
    ∀ (front rest : List Char), rest.length < left → ∀ i,
      between (front ++ rest) (byteCount front :: startsFrom (byteCount front) rest) i =
        (splitLines rest)[i]? := by
  induction left with
  | zero => exact fun _ _ short => absurd short (Nat.not_lt_zero _)
  | succ left ih =>
    intro front rest short i
    obtain last | ⟨line, more, within, rfl⟩ := cases_line rest
    · rw [startsFrom_line last, splitLines_line last]
      cases i with
      | zero =>
        have slice := sliceBytes_append front rest []
        rw [List.append_nil] at slice
        exact slice
      | succ i => rfl
    · rw [startsFrom_line_feed within, splitLines_line_feed within]
      cases i with
      | zero =>
        have stop : byteCount (front ++ (line ++ ['\n'])) - 1 = byteCount (front ++ line) := by
          rw [← List.append_assoc, byteCount_append]
          rfl
        rw [between, List.getElem?_cons_zero, List.getElem?_cons_succ, List.getElem?_cons_zero,
          Option.bind_some, Option.map_some, stop]
        exact sliceBytes_append front line ('\n' :: more)
      | succ i =>
        have behind : more.length < left := by
          rw [List.length_append, List.length_cons] at short
          omega
        have content : front ++ (line ++ '\n' :: more) = front ++ (line ++ ['\n']) ++ more := by simp
        rw [content]
        exact ih (front ++ (line ++ ['\n'])) more behind i

/-- Nothing before another character is trimmed. -/
theorem trimReturns_append_cons {c : Char} (kept : c ≠ '\r') (front back : List Char) :
    trimReturns (front ++ c :: back) = front ++ c :: trimReturns back := by
  rw [trimReturns, List.reverse_append, List.reverse_cons, List.append_assoc, List.dropWhile_append]
  split
  · rename_i nothing
    rw [trimReturns, List.isEmpty_iff.mp nothing, List.singleton_append,
      List.dropWhile_cons_of_neg (by simpa using kept)]
    simp
  · rw [trimReturns]
    simp

/-- What stands before a text without carriage returns is not trimmed, and neither is the text. -/
theorem trimReturns_append {middle : List Char} (present : middle ≠ [])
    (kept : ∀ c ∈ middle, c ≠ '\r') (front back : List Char) :
    trimReturns (front ++ (middle ++ back)) = front ++ (middle ++ trimReturns back) := by
  obtain rfl | ⟨before, c, rfl⟩ := List.eq_nil_or_concat middle
  · exact absurd rfl present
  · have last : c ≠ '\r' := kept c (by simp)
    have trimmed := trimReturns_append_cons last (front ++ before) back
    simpa only [List.append_assoc, List.concat_eq_append, List.singleton_append] using trimmed

namespace SourceText

variable {source : SourceText} {front rest : List Char} {span : Span}

/-- A line that is found by the offsets of the lines. -/
def lineByOffset (source : SourceText) : Nat → Option (List Char)
  | 0 => none
  | n + 1 => (between source.content (0 :: startsFrom 0 source.content) n).map trimReturns

theorem lineByOffset_eq (source : SourceText) : source.lineByOffset = source.line := by
  funext number
  cases number with
  | zero => rfl
  | succ n =>
    have found := between_starts _ [] source.content (Nat.lt_succ_self _) n
    exact congrArg (Option.map trimReturns) found

section Short

variable (short : source.content.length < 2 ^ 32 - 1)

include short

/-- A place in a short source has the line and the column that a reader would count. -/
theorem counts_of_content (content : source.content = front ++ rest) :
    (Position.start.advanceOver front).Counts front := by
  rw [content, List.length_append] at short
  exact (Position.behind_advanceOver front).counts (by omega)

/-- The line of a place in the source. -/
theorem line_of_content (content : source.content = front ++ rest) :
    source.line (Position.start.advanceOver front).line.toNat =
      some (trimReturns (lastLine front ++ rest.takeWhile (· ≠ '\n'))) := by
  rw [(counts_of_content short content).line, line, content, getElem?_splitLines]
  rfl

/-- The line of a place has the character there, unless the line ends there. -/
theorem line_of_char {c : Char} {back : List Char} (content : source.content = front ++ c :: back)
    (inside : c ≠ '\r' ∧ c ≠ '\n') :
    source.line (Position.start.advanceOver front).line.toNat =
      some (lastLine front ++ c :: trimReturns (back.takeWhile (· ≠ '\n'))) := by
  rw [line_of_content short content, List.takeWhile_cons_of_pos (by simpa using inside.2),
    trimReturns_append_cons inside.1]

/-- A character within a line stands in the line at its column. -/
theorem getElem?_column {c : Char} {back text : List Char}
    (content : source.content = front ++ c :: back) (inside : c ≠ '\r' ∧ c ≠ '\n')
    (line : source.line (Position.start.advanceOver front).line.toNat = some text) :
    text[(Position.start.advanceOver front).column.toNat - 1]? = some c := by
  rw [line_of_char short content inside, Option.some.injEq] at line
  rw [(counts_of_content short content).column_eq, Nat.add_sub_cancel, ← line,
    List.getElem?_append_right (Nat.le_refl _), Nat.sub_self]
  rfl

end Short

/-- A range of the source that has no line end. -/
inductive Unbroken (source : SourceText) : Span → Prop
  | mk {front middle back : List Char} (content : source.content = front ++ (middle ++ back))
      (inside : ∀ c ∈ middle, c ≠ '\r' ∧ c ≠ '\n') :
      Unbroken source
        ⟨Position.start.advanceOver front, Position.start.advanceOver (front ++ middle)⟩

/-- The range of no characters is at every place of the source. -/
theorem unbroken_point (content : source.content = front ++ rest) :
    source.Unbroken (.point (Position.start.advanceOver front)) := by
  have empty : source.Unbroken ⟨Position.start.advanceOver front,
      Position.start.advanceOver (front ++ [])⟩ := .mk content fun _ absent => by cases absent
  rwa [List.append_nil] at empty

/-- `text` is the line of the span, and the span covers what stands in it between its columns. -/
structure Shows (source : SourceText) (span : Span) (text : List Char) : Prop where
  line : source.line span.start.line.toNat = some text
  level : span.start.line = span.stop.line
  columns : 1 ≤ span.start.column.toNat ∧ span.start.column.toNat ≤ span.stop.column.toNat
  covered : (text.drop (span.start.column.toNat - 1)).take
      (span.stop.column.toNat - span.start.column.toNat) = source.spanText span

theorem Unbroken.exists_shows (unbroken : source.Unbroken span)
    (short : source.content.length < 2 ^ 32 - 1) : ∃ text, source.Shows span text := by
  obtain @⟨front, middle, back, content, inside⟩ := unbroken
  have feeds : '\n' ∉ middle := fun member => (inside _ member).2 rfl
  have first := counts_of_content short content
  have last : (Position.start.advanceOver (front ++ middle)).Counts (front ++ middle) :=
    counts_of_content short (content.trans (List.append_assoc front middle back).symm)
  have begins := first.column_eq
  have ends := last.column_eq
  rw [lastLine_append feeds, List.length_append] at ends
  have level : (Position.start.advanceOver front).line =
      (Position.start.advanceOver (front ++ middle)).line := by
    rw [← UInt32.toNat_inj, first.line, last.line, List.count_append, List.count_eq_zero.mpr feeds,
      Nat.add_zero]
  have covers : source.spanText ⟨Position.start.advanceOver front,
      Position.start.advanceOver (front ++ middle)⟩ = middle := by
    rw [spanText, first.offset, last.offset, content, sliceBytes_append]
    rfl
  have width : (lastLine front).length + middle.length + 1 - ((lastLine front).length + 1) =
      middle.length := by omega
  refine ⟨_, line_of_content short content, level, ⟨?_, ?_⟩, ?_⟩
  · rw [begins]
    omega
  · rw [begins, ends]
    omega
  · rw [covers, begins, ends, width, Nat.add_sub_cancel]
    -- A line may be trimmed before the place where a range of no characters stands.
    by_cases empty : middle = []
    · rw [empty]
      exact List.take_zero
    · have whole : (middle ++ back).takeWhile (· ≠ '\n') =
          middle ++ back.takeWhile (· ≠ '\n') :=
        List.takeWhile_append_of_pos fun c member => by simpa using (inside c member).2
      rw [whole, trimReturns_append empty fun c member => (inside c member).1, List.drop_left,
        List.take_left]

end SourceText

end EventQuery
