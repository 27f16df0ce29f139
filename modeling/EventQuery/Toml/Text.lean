import EventQuery.Json.Text

set_option autoImplicit false

namespace EventQuery.Toml

def isBlank (c : Char) : Bool := c = ' ' || c = '\t'

def skipBlanks (text : List Char) : List Char := text.dropWhile isBlank

/-- Characters of comments and strings: no control characters other than the tab. -/
def isPlain (c : Char) : Bool := c = '\t' || (' ' ≤ c && c ≠ '\x7f')

/-- The text behind a line feed, with or without a carriage return before it. -/
def afterNewline? : List Char → Option (List Char)
  | '\n' :: rest => some rest
  | '\r' :: '\n' :: rest => some rest
  | _ => none

/-- The text behind the end of a line, which may be the end of the text. -/
def afterLineEnd? (text : List Char) : Option (List Char) :=
  if text.isEmpty then some [] else afterNewline? text

def skipComment : List Char → List Char
  | '#' :: rest => rest.dropWhile isPlain
  | text => text

/-- The next line: only blanks and a comment may stand before it. -/
def afterLine? (text : List Char) : Option (List Char) :=
  afterLineEnd? (skipComment (skipBlanks text))

/-- Skips blanks, comments and line ends. The fuel bounds the number of lines. -/
def skipLines : Nat → List Char → Option (List Char)
  | 0, _ => none
  | fuel + 1, text =>
    match skipBlanks text with
    | '#' :: rest => (afterNewline? (rest.dropWhile isPlain)).bind (skipLines fuel)
    | '\n' :: rest => skipLines fuel rest
    | '\r' :: '\n' :: rest => skipLines fuel rest
    | '\r' :: _ => none
    | rest => some rest

def simpleEscape? : Char → Option Char
  | 'b' => some '\x08'
  | 't' => some '\t'
  | 'n' => some '\n'
  | 'f' => some '\x0c'
  | 'r' => some '\r'
  | '"' => some '"'
  | '\\' => some '\\'
  | _ => none

/-- A character by its code in hexadecimal digits. Surrogates are no characters. -/
def charOfHex? (digits : List Char) : Option Char :=
  match digits.mapM Json.hexValue? with
  | none => none
  | some values =>
    let code := values.foldl (fun n v => 16 * n + v) 0
    if code.isValidChar then some (Char.ofNat code) else none

/-- The character that an escape stands for, behind its backslash. -/
def takeEscape? : List Char → Option (Char × List Char)
  | 'u' :: rest =>
    if (rest.take 4).length = 4 then (charOfHex? (rest.take 4)).map (·, rest.drop 4) else none
  | 'U' :: rest =>
    if (rest.take 8).length = 8 then (charOfHex? (rest.take 8)).map (·, rest.drop 8) else none
  | c :: rest => (simpleEscape? c).map (·, rest)
  | [] => none

/-- The rest of a string in double quotes, added to what was read before, the last character
first. The fuel bounds the number of characters. -/
def takeBasic : Nat → List Char → List Char → Option (List Char × List Char)
  | 0, _, _ => none
  | fuel + 1, taken, text =>
    match text with
    | '"' :: rest => some (taken.reverse, rest)
    | '\\' :: rest =>
      match takeEscape? rest with
      | some (c, rest) => takeBasic fuel (c :: taken) rest
      | none => none
    | c :: rest => if isPlain c then takeBasic fuel (c :: taken) rest else none
    | [] => none

/-- The rest of a string in single quotes, which has no escapes. -/
def takeLiteral (text : List Char) : Option (List Char × List Char) :=
  match text.dropWhile fun c => isPlain c && c ≠ '\'' with
  | '\'' :: rest => some (text.takeWhile fun c => isPlain c && c ≠ '\'', rest)
  | _ => none

/-- Where a string over several lines ends. Up to two further quotes before the closing ones belong
to it. -/
def closing? (quote : Char) (text : List Char) : Option (List Char × List Char) :=
  let quotes := text.takeWhile (· = quote)
  if quotes.length < 3 then none
  else
    let kept := min (quotes.length - 3) 2
    some (List.replicate kept quote, text.drop (kept + 3))

def skipBlankLines : List Char → List Char
  | ' ' :: rest | '\t' :: rest | '\n' :: rest | '\r' :: '\n' :: rest => skipBlankLines rest
  | rest => rest

/-- Skips a line end behind a backslash, with the blanks and lines after it. -/
def afterContinuation? (text : List Char) : Option (List Char) :=
  (afterNewline? (skipBlanks text)).map skipBlankLines

/-- The rest of a string over several lines. Only one in double quotes has escapes. -/
def takeLines (quote : Char) : Nat → List Char → List Char → Option (List Char × List Char)
  | 0, _, _ => none
  | fuel + 1, taken, text =>
    match closing? quote text with
    | some (kept, rest) => some (taken.reverse ++ kept, rest)
    | none =>
      match text with
      | [] => none
      | c :: rest =>
        if c = '\\' ∧ quote = '"' then
          match afterContinuation? rest with
          | some rest => takeLines quote fuel taken rest
          | none =>
            match takeEscape? rest with
            | some (d, rest) => takeLines quote fuel (d :: taken) rest
            | none => none
        else if isPlain c then takeLines quote fuel (c :: taken) rest
        else
          match afterNewline? text with
          | some rest => takeLines quote fuel ('\n' :: taken) rest
          | none => none

/-- A line end right behind the opening quotes is no part of a string. -/
def dropFirstNewline (text : List Char) : List Char := (afterNewline? text).getD text

/-- A string behind its first quote. -/
def takeString (quote : Char) (text : List Char) : Option (List Char × List Char) :=
  match text with
  | a :: b :: rest =>
    if a = quote ∧ b = quote then takeLines quote (rest.length + 1) [] (dropFirstNewline rest)
    else if quote = '"' then takeBasic (text.length + 1) [] text
    else takeLiteral text
  | _ => if quote = '"' then takeBasic (text.length + 1) [] text else takeLiteral text

def isBareKey (c : Char) : Bool := c.isAlphanum || c = '-' || c = '_'

/-- One name of a key: bare, or in quotes on one line. -/
def takeName (text : List Char) : Option (String × List Char) :=
  match text with
  | '"' :: rest =>
    (takeBasic (rest.length + 1) [] rest).map fun (s, rest) => (String.ofList s, rest)
  | '\'' :: rest => (takeLiteral rest).map fun (s, rest) => (String.ofList s, rest)
  | _ =>
    let name := text.takeWhile isBareKey
    if name.isEmpty then none else some (String.ofList name, text.dropWhile isBareKey)

/-- The number of names that a key may have, and of values that may stand in one another. -/
def maxNesting : Nat := 79

/-- Names with dots between them. Blanks may stand around each name. The fuel bounds the number of
names. -/
def takeKey : Nat → List Char → Option (List String × List Char)
  | 0, _ => none
  | fuel + 1, text =>
    match takeName (skipBlanks text) with
    | none => none
    | some (name, rest) =>
      match skipBlanks rest with
      | '.' :: rest => (takeKey fuel rest).map fun (names, rest) => (name :: names, rest)
      | rest => some ([name], rest)

end EventQuery.Toml
