import EventQuery.Proofs.Json.Layout

set_option autoImplicit false

namespace EventQuery.Json

/-- Strings, keys and numbers are written as such, and no part is nested deeper than the given
number of levels. -/
inductive Proper : Nat → Json → Prop where
  | null {levels : Nat} : Proper levels .null
  | bool {levels : Nat} (value : Bool) : Proper levels (.bool value)
  | number {levels : Nat} {written : List Char} (numeral : NumberText written) :
      Proper levels (.number written)
  | string {levels : Nat} {written : List Char} (text : StringText written) :
      Proper levels (.string written)
  | array {levels : Nat} {entries : List Json} (each : ∀ entry ∈ entries, Proper levels entry) :
      Proper (levels + 1) (.array entries)
  | object {levels : Nat} {entries : List (List Char × Json)}
      (keys : ∀ entry ∈ entries, StringText entry.1)
      (each : ∀ entry ∈ entries, Proper levels entry.2) : Proper (levels + 1) (.object entries)

theorem Proper.mono {levels : Nat} {j : Json} (proper : Proper levels j) :
    ∀ {more : Nat}, levels ≤ more → Proper more j := by
  induction proper with
  | null => exact fun _ => .null
  | bool value => exact fun _ => .bool value
  | number numeral => exact fun _ => .number numeral
  | string text => exact fun _ => .string text
  | array _ ih =>
    intro more le
    obtain ⟨below, rfl⟩ : ∃ below, more = below + 1 := ⟨more - 1, by omega⟩
    exact .array fun entry member => ih entry member (by omega)
  | object keys _ ih =>
    intro more le
    obtain ⟨below, rfl⟩ : ∃ below, more = below + 1 := ⟨more - 1, by omega⟩
    exact .object keys fun entry member => ih entry member (by omega)

section Compact

theorem writesEntries_compact : ∀ (entry : Json) (rest : List Json),
    (∀ e ∈ entry :: rest, Writes e e.compact) →
      WritesEntries (entry :: rest) (compactEntries (entry :: rest))
  | entry, [], each => by
    have written := WritesEntries.last blanks_nil (each entry List.mem_cons_self) blanks_nil
    simpa [compactEntries] using written
  | entry, next :: rest, each => by
    have onward := writesEntries_compact next rest fun e member =>
      each e (List.mem_cons_of_mem _ member)
    exact WritesEntries.more blanks_nil (each entry List.mem_cons_self) onward

theorem writesFields_compact : ∀ (entry : List Char × Json) (rest : List (List Char × Json)),
    (∀ e ∈ entry :: rest, StringText e.1) →
      (∀ e ∈ entry :: rest, Writes e.2 e.2.compact) →
        WritesFields (entry :: rest) (compactFields (entry :: rest))
  | (_, entry), [], keys, each => by
    have named := keys _ List.mem_cons_self
    have only := each _ List.mem_cons_self
    have written := WritesFields.last named blanks_nil blanks_nil only blanks_nil
    simpa [compactFields] using written
  | (_, entry), next :: rest, keys, each => by
    have named := keys _ List.mem_cons_self
    have first := each _ List.mem_cons_self
    have onward := writesFields_compact next rest
      (fun e member => keys e (List.mem_cons_of_mem _ member))
      fun e member => each e (List.mem_cons_of_mem _ member)
    have written := WritesFields.more named blanks_nil blanks_nil first onward
    simpa [compactFields] using written

theorem writes_compact {levels : Nat} {j : Json} (proper : Proper levels j) :
    Writes j j.compact := by
  induction proper with
  | null => exact .null
  | bool value => exact .bool value
  | number numeral => exact .number numeral
  | string text => exact .string text
  | @array _ entries each ih =>
    cases entries with
    | nil => exact .emptyArray
    | cons entry rest => exact .array (writesEntries_compact entry rest ih)
  | @object _ entries keys each ih =>
    cases entries with
    | nil => exact .emptyObject
    | cons entry rest => exact .object (writesFields_compact entry rest keys ih)

end Compact

section Pretty

theorem blanks_newLine (level : Nat) : Blanks (newLine level) := by
  intro c member
  rcases List.mem_cons.mp member with rfl | space
  · rfl
  · rw [List.eq_of_mem_replicate space]
    rfl

theorem blanks_space : Blanks [' '] := by
  intro c member
  rw [List.mem_singleton.mp member]
  rfl

/-- The line that the closing bracket stands on belongs to the blanks behind the last entry. -/
theorem writesEntries_pretty (closing level : Nat) : ∀ (entry : Json) (rest : List Json),
    (∀ e ∈ entry :: rest, Writes e (e.pretty level)) →
      WritesEntries (entry :: rest) (prettyEntries level (entry :: rest) ++ newLine closing)
  | entry, [], each => by
    have only := each entry List.mem_cons_self
    have written := WritesEntries.last (blanks_newLine level) only (blanks_newLine closing)
    simpa [prettyEntries] using written
  | entry, next :: rest, each => by
    have first := each entry List.mem_cons_self
    have onward := writesEntries_pretty closing level next rest fun e member =>
      each e (List.mem_cons_of_mem _ member)
    have written := WritesEntries.more (blanks_newLine level) first onward
    simpa [prettyEntries] using written

theorem writesFields_pretty (closing level : Nat) :
    ∀ (entry : List Char × Json) (rest : List (List Char × Json)),
      (∀ e ∈ entry :: rest, StringText e.1) →
        (∀ e ∈ entry :: rest, Writes e.2 (e.2.pretty level)) →
          WritesFields (entry :: rest) (prettyFields level (entry :: rest) ++ newLine closing)
  | (_, entry), [], keys, each => by
    have named := keys _ List.mem_cons_self
    have only := each _ List.mem_cons_self
    have written := WritesFields.last named (blanks_newLine level) blanks_space only
      (blanks_newLine closing)
    simpa [prettyFields] using written
  | (_, entry), next :: rest, keys, each => by
    have named := keys _ List.mem_cons_self
    have first := each _ List.mem_cons_self
    have onward := writesFields_pretty closing level next rest
      (fun e member => keys e (List.mem_cons_of_mem _ member))
      fun e member => each e (List.mem_cons_of_mem _ member)
    have written := WritesFields.more named (blanks_newLine level) blanks_space first onward
    simpa [prettyFields] using written

theorem writes_pretty {levels : Nat} {j : Json} (proper : Proper levels j) :
    ∀ level, Writes j (j.pretty level) := by
  induction proper with
  | null => exact fun _ => .null
  | bool value => exact fun _ => .bool value
  | number numeral => exact fun _ => .number numeral
  | string text => exact fun _ => .string text
  | @array _ entries each ih =>
    intro level
    cases entries with
    | nil => exact .emptyArray
    | cons entry rest =>
      have inside := writesEntries_pretty level (level + 1) entry rest fun e member =>
        ih e member (level + 1)
      simpa [pretty] using Writes.array inside
  | @object _ entries keys each ih =>
    intro level
    cases entries with
    | nil => exact .emptyObject
    | cons entry rest =>
      have inside := writesFields_pretty level (level + 1) entry rest keys fun e member =>
        ih e member (level + 1)
      simpa [pretty] using Writes.object inside

end Pretty

end EventQuery.Json
