import EventQuery.Json.Text

/- JSON documents as they are written: strings keep their escapes and numbers their digits. Two
printers, one without blanks and one with an indented line for every entry. -/

set_option autoImplicit false

namespace EventQuery

/-- Strings are given by the characters between their quotes, numbers by their characters. -/
inductive Json where
  | null
  | bool (value : Bool)
  | number (written : List Char)
  | string (written : List Char)
  | array (entries : List Json)
  | object (entries : List (List Char × Json))

namespace Json

instance : Inhabited Json := ⟨.null⟩

def ofString (text : String) : Json := .string (escape text.toList)

/-- An object with its keys in the given order. -/
def record (entries : List (String × Json)) : Json :=
  .object (entries.map fun entry => (escape entry.1.toList, entry.2))

def quote (written : List Char) : List Char := '"' :: written ++ ['"']

def literal : Bool → List Char
  | true => "true".toList
  | false => "false".toList

mutual

/-- The document on one line and without blanks. -/
def compact : Json → List Char
  | null => "null".toList
  | bool value => literal value
  | number written => written
  | string written => quote written
  | array entries => '[' :: compactEntries entries ++ [']']
  | object entries => '{' :: compactFields entries ++ ['}']

def compactEntries : List Json → List Char
  | [] => []
  | [entry] => compact entry
  | entry :: next :: rest => compact entry ++ ',' :: compactEntries (next :: rest)

def compactFields : List (List Char × Json) → List Char
  | [] => []
  | [(key, entry)] => quote key ++ ':' :: compact entry
  | (key, entry) :: next :: rest =>
    quote key ++ ':' :: compact entry ++ ',' :: compactFields (next :: rest)

end

/-- A new line at the given level of indentation. -/
def newLine (level : Nat) : List Char := '\n' :: List.replicate (2 * level) ' '

mutual

/-- The document with every entry on a line of its own. Without entries it stays on its line. -/
def pretty (level : Nat) : Json → List Char
  | null => "null".toList
  | bool value => literal value
  | number written => written
  | string written => quote written
  | array [] => "[]".toList
  | array (entry :: rest) =>
    '[' :: prettyEntries (level + 1) (entry :: rest) ++ newLine level ++ [']']
  | object [] => ['{', '}']
  | object (entry :: rest) =>
    '{' :: prettyFields (level + 1) (entry :: rest) ++ newLine level ++ ['}']

def prettyEntries (level : Nat) : List Json → List Char
  | [] => []
  | [entry] => newLine level ++ pretty level entry
  | entry :: next :: rest =>
    newLine level ++ pretty level entry ++ ',' :: prettyEntries level (next :: rest)

def prettyFields (level : Nat) : List (List Char × Json) → List Char
  | [] => []
  | [(key, entry)] => newLine level ++ quote key ++ ':' :: ' ' :: pretty level entry
  | (key, entry) :: next :: rest =>
    newLine level ++ quote key ++ ':' :: ' ' :: pretty level entry ++
      ',' :: prettyFields level (next :: rest)

end

end Json

end EventQuery
