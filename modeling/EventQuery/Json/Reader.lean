import EventQuery.Decimal.Numeral
import EventQuery.Json.Value

set_option autoImplicit false

namespace EventQuery.Json

def isBlank (c : Char) : Bool := c = ' ' || c = '\n' || c = '\t' || c = '\r'

def skipBlanks (text : List Char) : List Char := text.dropWhile isBlank

/-- Takes the characters up to the closing quote, the last one first, with their escapes. -/
def takeString (taken : List Char) : List Char → Option (List Char × List Char)
  | '"' :: rest => some (taken.reverse, rest)
  | '\\' :: 'u' :: a :: b :: c :: d :: rest =>
    if (hexUnit? a b c d).isSome then
      takeString (d :: c :: b :: a :: 'u' :: '\\' :: taken) rest
    else none
  | '\\' :: c :: rest =>
    if (simpleEscape? c).isSome then takeString (c :: '\\' :: taken) rest else none
  | c :: rest => if c < ' ' ∨ c = '\\' then none else takeString (c :: taken) rest
  | [] => none

/-- At least one digit. -/
def takeDigits (text : List Char) : Option (List Char × List Char) :=
  let digits := text.takeWhile isDigit
  if digits.isEmpty then none else some (digits, text.dropWhile isDigit)

/-- A leading zero stands alone. -/
def takeWholePart (text : List Char) : Option (List Char × List Char) :=
  match takeDigits text with
  | some ('0' :: _ :: _, _) => none
  | parts => parts

/-- Digits must follow a point. -/
def takeFractionPart : List Char → Option (List Char × List Char)
  | '.' :: rest => (takeDigits rest).map fun (digits, rest) => ('.' :: digits, rest)
  | rest => some ([], rest)

def takeSign : List Char → List Char × List Char
  | '+' :: rest => (['+'], rest)
  | '-' :: rest => (['-'], rest)
  | rest => ([], rest)

/-- Digits must follow the letter of an exponent and its sign. -/
def takeExponentPart : List Char → Option (List Char × List Char)
  | e :: rest =>
    if e = 'e' ∨ e = 'E' then
      let (sign, rest) := takeSign rest
      (takeDigits rest).map fun (digits, rest) => (e :: sign ++ digits, rest)
    else some ([], e :: rest)
  | [] => some ([], [])

def takeNumber (text : List Char) : Option (List Char × List Char) := do
  let (sign, text) := match text with
    | '-' :: rest => (['-'], rest)
    | _ => ([], text)
  let (whole, text) ← takeWholePart text
  let (fraction, text) ← takeFractionPart text
  let (exponent, text) ← takeExponentPart text
  return (sign ++ whole ++ fraction ++ exponent, text)

/-- The text behind a word that it begins with. -/
def afterWord (word : List Char) (text : List Char) : Option (List Char) :=
  if word.isPrefixOf text then some (text.drop word.length) else none

mutual

/-- Reads one value. The fuel bounds the number of steps. -/
def readValue : Nat → List Char → Option (Json × List Char)
  | 0, _ => none
  | fuel + 1, text =>
    match skipBlanks text with
    | '[' :: rest =>
      match skipBlanks rest with
      | ']' :: rest => some (.array [], rest)
      | _ => readEntries fuel [] rest
    | '{' :: rest =>
      match skipBlanks rest with
      | '}' :: rest => some (.object [], rest)
      | _ => readFields fuel [] rest
    | '"' :: rest => (takeString [] rest).map fun (written, rest) => (.string written, rest)
    | 'n' :: rest => (afterWord "ull".toList rest).map (.null, ·)
    | 't' :: rest => (afterWord "rue".toList rest).map (.bool true, ·)
    | 'f' :: rest => (afterWord "alse".toList rest).map (.bool false, ·)
    | text => (takeNumber text).map fun (written, rest) => (.number written, rest)

/-- Reads the entries of an array up to its end, adding them to those read before. -/
def readEntries : Nat → List Json → List Char → Option (Json × List Char)
  | 0, _, _ => none
  | fuel + 1, read, text =>
    match readValue fuel text with
    | none => none
    | some (entry, rest) =>
      match skipBlanks rest with
      | ',' :: rest => readEntries fuel (entry :: read) rest
      | ']' :: rest => some (.array (entry :: read).reverse, rest)
      | _ => none

/-- Reads the entries of an object up to its end, adding them to those read before. -/
def readFields : Nat → List (List Char × Json) → List Char → Option (Json × List Char)
  | 0, _, _ => none
  | fuel + 1, read, text =>
    match skipBlanks text with
    | '"' :: rest =>
      match takeString [] rest with
      | none => none
      | some (key, rest) =>
        match skipBlanks rest with
        | ':' :: rest =>
          match readValue fuel rest with
          | none => none
          | some (entry, rest) =>
            match skipBlanks rest with
            | ',' :: rest => readFields fuel ((key, entry) :: read) rest
            | '}' :: rest => some (.object ((key, entry) :: read).reverse, rest)
            | _ => none
        | _ => none
    | _ => none

end

/-- The document that a text writes. -/
def read? (text : List Char) : Option Json :=
  match readValue (2 * text.length + 2) text with
  | some (document, rest) => if (skipBlanks rest).isEmpty then some document else none
  | none => none

end EventQuery.Json
