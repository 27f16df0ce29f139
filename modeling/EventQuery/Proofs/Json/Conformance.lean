import EventQuery.Json.Library
import EventQuery.Proofs.Decimal.Writing
import EventQuery.Proofs.Json.Decoding
import EventQuery.Proofs.Json.Rereading

set_option autoImplicit false

namespace EventQuery.Json

/-- What is known of a library for JSON. Each property is about one way of writing or reading, and
none about the values of a program. -/
structure Library.Conforms (lib : Library) : Prop where
  writes_compact : ∀ {levels : Nat} {j : Json}, Proper levels j → Writes j (lib.compact j)
  writes_pretty : ∀ {levels : Nat} {j : Json}, Proper levels j → Writes j (lib.pretty j)
  read?_writes : ∀ {j : Json} {text : List Char}, Proper 127 j → Writes j text →
    lib.read? text = some j
  deep : 127 ≤ lib.maxDepth
  stringText_escape : ∀ text, StringText (lib.escape text)
  unescape?_escape : ∀ text, lib.unescape? (lib.escape text) = some text
  numberText_natural : ∀ n, NumberText (lib.natural n)
  natural?_natural : ∀ {limit n : Nat}, n ≤ limit → lib.natural? limit (lib.natural n) = some n
  /-- Finite numbers are written as numbers, and what is written is read as some number. -/
  float_finite : ∀ {x : Float}, x.isFinite = true → ∃ written, lib.float x = .number written ∧
    NumberText written ∧ (lib.float? (.number written)).isSome = true
  float_other : ∀ {x : Float}, x.isFinite = false → lib.float x = .null
  record_eq : ∀ entries,
    lib.record entries = .object (entries.map fun entry => (lib.escape entry.1.toList, entry.2))
  /-- A record is read from an object that has the names of its fields for keys, however these are
  written. -/
  fields?_object : ∀ {entries : List (String × Json)} {key : String → List Char},
    (entries.map Prod.fst).Nodup →
      (∀ entry ∈ entries, lib.unescape? (key entry.1) = some entry.1.toList) →
        lib.fields? (entries.map Prod.fst)
            (.object (entries.map fun entry => (key entry.1, entry.2))) =
          some (entries.map fun entry => some entry.2)
  unitVariant_eq : ∀ name, lib.unitVariant name = .string (lib.escape name.toList)
  newtypeVariant_eq : ∀ name content,
    lib.newtypeVariant name content = .object [(lib.escape name.toList, content)]
  variant?_string : ∀ {written name : List Char}, lib.unescape? written = some name →
    lib.variant? (.string written) = some (String.ofList name, none)
  variant?_object : ∀ {key name : List Char} {content : Json}, lib.unescape? key = some name →
    lib.variant? (.object [(key, content)]) = some (String.ofList name, some content)
  row_eq : ∀ entries, lib.row entries = .array entries
  entries?_array : ∀ entries, lib.entries? (.array entries) = some entries
  present?_null : lib.present? (some .null) = none
  present?_other : ∀ {j : Json}, j ≠ .null → lib.present? (some j) = some j

theorem reference_conforms : reference.Conforms where
  writes_compact proper := writes_compact proper
  writes_pretty proper := writes_pretty proper 0
  read?_writes _ writes := read?_of_writes writes
  deep := Nat.le_refl 127
  stringText_escape := stringText_escape
  unescape?_escape := unescape?_escape
  numberText_natural := numberText_toDigits
  natural?_natural := readNat?_toDigits
  float_finite := by
    intro x finite
    rw [← Decimal.Format.write?_isSome Decimal.jsonFormat] at finite
    obtain ⟨written, found⟩ := Option.isSome_iff_exists.mp finite
    refine ⟨written, ?_, Decimal.Format.numberText_of_write? found, readFloat?_of_write? found⟩
    show ofFloat x = .number written
    rw [ofFloat, found]
  float_other := by
    intro x infinite
    rw [← Decimal.Format.write?_isSome Decimal.jsonFormat, Option.isSome_eq_false_iff,
      Option.isNone_iff_eq_none] at infinite
    show ofFloat x = .null
    rw [ofFloat, infinite]
  record_eq _ := rfl
  fields?_object := fields?_of_keys
  unitVariant_eq _ := rfl
  newtypeVariant_eq _ _ := rfl
  variant?_string := by
    intro written name read
    show variant? (.string written) = _
    rw [variant?, show unescape? written = some name from read]
    rfl
  variant?_object := by
    intro key name content read
    show variant? (.object [(key, content)]) = _
    rw [variant?, show unescape? key = some name from read]
    rfl
  row_eq _ := rfl
  entries?_array _ := rfl
  present?_null := rfl
  present?_other := by
    intro j other
    cases j with
    | null => exact absurd rfl other
    | _ => rfl

namespace Library

variable {lib : Library}

/-- What becomes of a number that is written and read. -/
def reread (lib : Library) (x : Float) : Option Float :=
  if x.isFinite then lib.float? (lib.float x) else none

namespace Conforms

variable (conforms : lib.Conforms)

include conforms

theorem string?_string (text : String) : lib.string? (lib.string text) = some text := by
  rw [string, string?, conforms.unescape?_escape, Option.map_some, String.ofList_toList]

theorem nat?_nat {limit n : Nat} (small : n ≤ limit) : lib.nat? limit (lib.nat n) = some n :=
  conforms.natural?_natural small

theorem variant?_unitVariant (name : String) :
    lib.variant? (lib.unitVariant name) = some (name, none) := by
  rw [conforms.unitVariant_eq, conforms.variant?_string (conforms.unescape?_escape _),
    String.ofList_toList]

theorem variant?_newtypeVariant (name : String) (content : Json) :
    lib.variant? (lib.newtypeVariant name content) = some (name, some content) := by
  rw [conforms.newtypeVariant_eq, conforms.variant?_object (conforms.unescape?_escape _),
    String.ofList_toList]

theorem fields?_record {entries : List (String × Json)} {names : List String}
    (listed : entries.map Prod.fst = names) (distinct : names.Nodup) :
    lib.fields? names (lib.record entries) = some (entries.map fun entry => some entry.2) := by
  subst listed
  have read := @fields?_object lib conforms entries (fun name => lib.escape name.toList) distinct
    fun _ _ => conforms.unescape?_escape _
  rwa [conforms.record_eq]

theorem isSome_reread (x : Float) : (lib.reread x).isSome = x.isFinite := by
  rw [reread]
  cases finite : x.isFinite with
  | false => rfl
  | true =>
    obtain ⟨written, same, _, read⟩ := conforms.float_finite finite
    rw [if_pos rfl, same]
    exact read

theorem proper_string {levels : Nat} (text : String) : Proper levels (lib.string text) :=
  .string (conforms.stringText_escape _)

theorem proper_nat {levels : Nat} (n : Nat) : Proper levels (lib.nat n) :=
  .number (conforms.numberText_natural n)

theorem proper_float {levels : Nat} (x : Float) : Proper levels (lib.float x) := by
  cases finite : x.isFinite with
  | false =>
    rw [conforms.float_other finite]
    exact .null
  | true =>
    obtain ⟨written, same, numeral, _⟩ := conforms.float_finite finite
    rw [same]
    exact .number numeral

theorem proper_unitVariant {levels : Nat} (name : String) :
    Proper levels (lib.unitVariant name) := by
  rw [conforms.unitVariant_eq]
  exact .string (conforms.stringText_escape _)

theorem proper_row {levels : Nat} {entries : List Json}
    (each : ∀ entry ∈ entries, Proper levels entry) : Proper (levels + 1) (lib.row entries) := by
  rw [conforms.row_eq]
  exact .array each

theorem proper_record {levels : Nat} {entries : List (String × Json)}
    (each : ∀ entry ∈ entries, Proper levels entry.2) :
    Proper (levels + 1) (lib.record entries) := by
  rw [conforms.record_eq]
  refine .object ?_ ?_
  · intro entry member
    obtain ⟨named, _, rfl⟩ := List.mem_map.mp member
    exact conforms.stringText_escape _
  · intro entry member
    obtain ⟨named, there, rfl⟩ := List.mem_map.mp member
    exact each named there

/-- A variant with a value is laid out as a record of one field. -/
theorem proper_newtypeVariant {levels : Nat} (name : String) {content : Json}
    (inside : Proper levels content) : Proper (levels + 1) (lib.newtypeVariant name content) := by
  have laidOut : lib.newtypeVariant name content = lib.record [(name, content)] :=
    (conforms.newtypeVariant_eq name content).trans (conforms.record_eq [(name, content)]).symm
  rw [laidOut]
  exact conforms.proper_record (List.forall_mem_singleton.mpr inside)

end Conforms

end Library

end EventQuery.Json
