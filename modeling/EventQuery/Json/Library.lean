import EventQuery.Decimal.Format
import EventQuery.Json.Decode
import EventQuery.Json.Reader

set_option autoImplicit false

namespace EventQuery.Json

/-- What a program uses of a library for JSON: texts of whole documents, the characters of strings
and the digits of numbers, and the records, variants, rows and optional parts of typed values. -/
structure Library where
  /-- The document on one line. -/
  compact : Json → List Char
  /-- The document with an indented line for every entry. -/
  pretty : Json → List Char
  read? : List Char → Option Json
  /-- Typed values are read from documents that are nested no deeper. -/
  maxDepth : Nat
  escape : List Char → List Char
  unescape? : List Char → Option (List Char)
  natural : Nat → List Char
  /-- The value of digits up to a limit. -/
  natural? : Nat → List Char → Option Nat
  float : Float → Json
  float? : Json → Option Float
  record : List (String × Json) → Json
  /-- The fields of a record by their names, where fields may be missing. -/
  fields? : List String → Json → Option (List (Option Json))
  /-- A variant that carries nothing. -/
  unitVariant : String → Json
  /-- A variant that carries a value. -/
  newtypeVariant : String → Json → Json
  /-- The name of a variant and, unless the name stands alone, what it is paired with. -/
  variant? : Json → Option (String × Option Json)
  row : List Json → Json
  entries? : Json → Option (List Json)
  /-- What an optional field holds. -/
  present? : Option Json → Option Json

namespace Library

variable (lib : Library)

def string (text : String) : Json := .string (lib.escape text.toList)

def string? : Json → Option String
  | .string written => (lib.unescape? written).map String.ofList
  | _ => none

def nat (n : Nat) : Json := .number (lib.natural n)

def nat? (limit : Nat) : Json → Option Nat
  | .number written => lib.natural? limit written
  | _ => none

/-- Reads a value that may be left out. -/
def optional? {α : Type} (read : Json → Option α) (field : Option Json) : Option (Option α) :=
  match lib.present? field with
  | none => some none
  | some j => (read j).map some

def render (j : Json) : String := String.ofList (lib.compact j)

def renderPretty (j : Json) : String := String.ofList (lib.pretty j)

end Library

/-- The library that the command uses. -/
def reference : Library where
  compact := compact
  pretty := pretty 0
  read? := read?
  maxDepth := 127
  escape := escape
  unescape? := unescape?
  natural := Nat.toDigits 10
  natural? := readNat?
  float := ofFloat
  float? := float?
  record := record
  fields? := fields?
  unitVariant := ofString
  newtypeVariant name content := record [(name, content)]
  variant? := variant?
  row := .array
  entries? := entries?
  present? := present?

end EventQuery.Json
