import EventQuery.Toml.Number
import EventQuery.Toml.Text
import EventQuery.Toml.Value

set_option autoImplicit false

namespace EventQuery.Toml

/-- Dates are tried before numbers, and numbers with a fraction before whole ones. -/
def takeNumeral (text : List Char) : Option (Toml × List Char) :=
  match afterDateTime? text with
  | some rest => some (.date (text.take (text.length - rest.length)), rest)
  | none =>
    match takeFloat text with
    | some (written, rest) => some (.number written, rest)
    | none =>
      match takeSpecial text with
      | some (written, rest) => some (.number written, rest)
      | none => (takeInteger text).map fun (written, rest) => (.number written, rest)

/-- Values without values inside. -/
def takeScalar (text : List Char) : Option (Toml × List Char) :=
  match text with
  | '"' :: rest => (takeString '"' rest).map fun (s, rest) => (.string (String.ofList s), rest)
  | '\'' :: rest => (takeString '\'' rest).map fun (s, rest) => (.string (String.ofList s), rest)
  | 't' :: 'r' :: 'u' :: 'e' :: rest => some (.boolean true, rest)
  | 'f' :: 'a' :: 'l' :: 's' :: 'e' :: rest => some (.boolean false, rest)
  | _ => takeNumeral text

/-- The entries of an array up to its end, over any number of lines. A comma may follow the last
one. The fuel bounds the number of entries. -/
def takeEntries (take : List Char → Option (Toml × List Char)) :
    Nat → List Toml → List Char → Option (Toml × List Char)
  | 0, _, _ => none
  | fuel + 1, taken, text => do
    match ← skipLines (text.length + 1) text with
    | ']' :: rest => return (.array taken.reverse, rest)
    | start =>
      let (entry, rest) ← take start
      match ← skipLines (rest.length + 1) rest with
      | ',' :: rest => takeEntries take fuel (entry :: taken) rest
      | ']' :: rest => return (.array (entry :: taken).reverse, rest)
      | _ => none

/-- A key as the names before its last name, and its last name. -/
def splitKey (names : List String) : Option (List String × String) :=
  names.getLast?.map fun last => (names.dropLast, last)

/-- A key, an equals sign, and a value. -/
def takePair (take : List Char → Option (Toml × List Char)) (text : List Char) :
    Option ((List String × String × Toml) × List Char) := do
  let (names, rest) ← takeKey maxNesting text
  let (path, key) ← splitKey names
  match rest with
  | '=' :: rest =>
    let (value, rest) ← take (skipBlanks rest)
    return ((path, key, value), rest)
  | _ => none

/-- The pairs of a table between braces, on one line and without a comma at the end. -/
def takePairs (take : List Char → Option (Toml × List Char)) :
    Nat → Pairs → List Char → Option (Pairs × List Char)
  | 0, _, _ => none
  | fuel + 1, taken, text => do
    let (pair, rest) ← takePair take text
    match skipBlanks rest with
    | ',' :: rest => takePairs take fuel (pair :: taken) rest
    | '}' :: rest => return ((pair :: taken).reverse, rest)
    | _ => none

def takeInline (take : List Char → Option (Toml × List Char)) (text : List Char) :
    Option (Toml × List Char) :=
  match skipBlanks text with
  | '}' :: rest => some (.table .inline [], rest)
  | _ => do
    let (pairs, rest) ← takePairs take (text.length + 1) [] text
    let entries ← insertAll pairs []
    return (.table .inline entries, rest)

/-- Reads a value. The first argument bounds how deep values stand in one another. -/
def takeValue : Nat → List Char → Option (Toml × List Char)
  | 0, text =>
    match text with
    | '[' :: _ | '{' :: _ => none
    | _ => takeScalar text
  | depth + 1, text =>
    match text with
    | '[' :: rest => takeEntries (takeValue depth) (rest.length + 1) [] rest
    | '{' :: rest => takeInline (takeValue depth) rest
    | _ => takeScalar text

/-- A header behind its opening brackets. -/
def takeHeader (repeated : Bool) (text : List Char) : Option (Section × List Char) := do
  let (names, rest) ← takeKey maxNesting text
  let (path, key) ← splitKey names
  let rest ← match repeated, rest with
    | false, ']' :: rest => some rest
    | true, ']' :: ']' :: rest => some rest
    | _, _ => none
  return (⟨path, key, repeated, []⟩, ← afterLine? rest)

/-- The document as far as it has been read: pairs before the first header, then sections. The
latest pair or section is the first of its list. -/
structure Draft where
  pairs : Pairs
  sections : List Section

def Draft.addPair (d : Draft) (pair : List String × String × Toml) : Draft :=
  match d.sections with
  | [] => { d with pairs := pair :: d.pairs }
  | s :: rest => { d with sections := { s with pairs := pair :: s.pairs } :: rest }

def Draft.table (d : Draft) : Option Entries :=
  assemble d.pairs.reverse
    (d.sections.reverse.map fun s => { s with pairs := s.pairs.reverse })

/-- Reads line after line. The fuel bounds the number of lines. -/
def readLines : Nat → Draft → List Char → Option Draft
  | 0, _, _ => none
  | fuel + 1, draft, text =>
    match skipBlanks text with
    | [] => some draft
    | '#' :: rest => (afterLineEnd? (rest.dropWhile isPlain)).bind (readLines fuel draft)
    | '\n' :: rest => readLines fuel draft rest
    | '\r' :: rest => (takeChar '\n' rest).bind (readLines fuel draft)
    | '[' :: '[' :: rest => do
      let (opened, rest) ← takeHeader true rest
      readLines fuel { draft with sections := opened :: draft.sections } rest
    | '[' :: rest => do
      let (opened, rest) ← takeHeader false rest
      readLines fuel { draft with sections := opened :: draft.sections } rest
    | start => do
      let (pair, rest) ← takePair (takeValue maxNesting) start
      readLines fuel (draft.addPair pair) (← afterLine? rest)

def dropMark : List Char → List Char
  | '\ufeff' :: rest => rest
  | text => text

/-- The table that a text writes. A byte order mark before it is ignored. -/
def read? (text : List Char) : Option Entries :=
  (readLines (text.length + 1) ⟨[], []⟩ (dropMark text)).bind Draft.table

end EventQuery.Toml
