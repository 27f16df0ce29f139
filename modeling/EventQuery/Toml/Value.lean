/- TOML documents and how their tables come together. A table may be written in parts: by dotted
keys, by headers, and by headers of tables inside it. What is written once stays closed to most
others. -/

set_option autoImplicit false

namespace EventQuery

namespace Toml

/-- How a table came to be: between braces, by a header of its own, on the way to the header of
another table, or by dotted keys. -/
inductive Origin where
  | inline
  | header
  | implied
  | dotted
  deriving DecidableEq

end Toml

/-- Numbers and dates are given as they are written. `rows` are the tables of one header in double
brackets. -/
inductive Toml where
  | boolean (value : Bool)
  | string (value : String)
  | number (written : List Char)
  | date (written : List Char)
  | array (entries : List Toml)
  | rows (tables : List (List (String × Toml)))
  | table (origin : Toml.Origin) (entries : List (String × Toml))

namespace Toml

abbrev Entries := List (String × Toml)

def replace (key : String) (value : Toml) (entries : Entries) : Entries :=
  entries.map fun e => if e.1 = key then (key, value) else e

/-- Changes the last of a row of tables. -/
def changeLast (change : Entries → Option Entries) (tables : List Entries) :
    Option (List Entries) :=
  match tables.reverse with
  | [] => none
  | last :: before => (change last).map fun changed => (changed :: before).reverse

/-- Adds a value under a dotted key. The tables on its way are made by dotted keys or, but not at
the end, stand in the way of a header. -/
def insertPair (value : Toml) (key : String) : List String → Entries → Option Entries
  | [], entries => if (entries.lookup key).isSome then none else some (entries ++ [(key, value)])
  | name :: rest, entries =>
    match entries.lookup name with
    | none =>
      (insertPair value key rest []).map fun inner => entries ++ [(name, .table .dotted inner)]
    | some (.table origin inner) =>
      if origin = .dotted ∨ origin = .implied ∧ !rest.isEmpty then
        (insertPair value key rest inner).map fun changed =>
          replace name (.table origin changed) entries
      else none
    | some (.rows tables) =>
      if rest.isEmpty then none
      else (changeLast (insertPair value key rest) tables).map fun changed =>
        replace name (.rows changed) entries
    | some _ => none

/-- Changes the table that a header's names lead to, all but the last of which `change` sees. A
table that is not there yet is made on the way. -/
def descend (change : Entries → Option Entries) : List String → Entries → Option Entries
  | [], entries => change entries
  | name :: rest, entries =>
    match entries.lookup name with
    | none => (descend change rest []).map fun inner => entries ++ [(name, .table .implied inner)]
    | some (.table .inline _) => none
    | some (.table origin inner) =>
      (descend change rest inner).map fun changed => replace name (.table origin changed) entries
    | some (.rows tables) =>
      (changeLast (descend change rest) tables).map fun changed =>
        replace name (.rows changed) entries
    | some _ => none

/-- Keys with the names before the last dot, and their values. -/
abbrev Pairs := List (List String × String × Toml)

def insertAll : Pairs → Entries → Option Entries
  | [], entries => some entries
  | (path, key, value) :: rest, entries =>
    (insertPair value key path entries).bind (insertAll rest)

/-- Fills the table of a header. A table has one header, which may follow those of its parts. -/
def openTable (key : String) (pairs : Pairs) (entries : Entries) : Option Entries :=
  match entries.lookup key with
  | none => (insertAll pairs []).map fun inner => entries ++ [(key, .table .header inner)]
  | some (.table .implied inner) =>
    (insertAll pairs inner).map fun filled => replace key (.table .header filled) entries
  | some _ => none

/-- Adds a table to those of its header. -/
def addRow (key : String) (pairs : Pairs) (entries : Entries) : Option Entries :=
  match entries.lookup key with
  | none => (insertAll pairs []).map fun row => entries ++ [(key, .rows [row])]
  | some (.rows tables) =>
    (insertAll pairs []).map fun row => replace key (.rows (tables ++ [row])) entries
  | some _ => none

/-- A header, in single or double brackets, with the pairs below it. -/
structure Section where
  path : List String
  key : String
  repeated : Bool
  pairs : Pairs

def Section.add (s : Section) (entries : Entries) : Option Entries :=
  descend (if s.repeated then addRow s.key s.pairs else openTable s.key s.pairs) s.path entries

def addSections : List Section → Entries → Option Entries
  | [], entries => some entries
  | s :: rest, entries => (s.add entries).bind (addSections rest)

/-- The table of a document, from the pairs before its first header and from its sections. -/
def assemble (pairs : Pairs) (sections : List Section) : Option Entries :=
  (insertAll pairs []).bind (addSections sections)

end Toml

end EventQuery
