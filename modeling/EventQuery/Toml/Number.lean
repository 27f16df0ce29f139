import EventQuery.Decimal.Numeral
import EventQuery.Json.Text

set_option autoImplicit false

namespace EventQuery.Toml

/-- Digits in which single underscores may stand between two digits. -/
def takeGrouped (digit : Char → Bool) (text : List Char) : Option (List Char × List Char) :=
  let run := text.takeWhile fun c => digit c || c = '_'
  let ends := match run.head?, run.getLast? with
    | some a, some b => digit a && digit b
    | _, _ => false
  let doubled := (run.zip (run.drop 1)).any fun (a, b) => a = '_' && b = '_'
  if ends && !doubled then some (run, text.drop run.length) else none

def takeSign (text : List Char) : List Char × List Char :=
  match text with
  | '+' :: rest => (['+'], rest)
  | '-' :: rest => (['-'], rest)
  | _ => ([], text)

/-- A whole number with an optional sign and without leading zeros. -/
def takeDecimal (text : List Char) : Option (List Char × List Char) :=
  let (sign, rest) := takeSign text
  match rest with
  | '0' :: rest => some (sign ++ ['0'], rest)
  | _ => (takeGrouped isDigit rest).map fun (digits, rest) => (sign ++ digits, rest)

def ungrouped (written : List Char) : List Char := written.filter (· ≠ '_')

def fitsWord (written : List Char) : Bool :=
  match ungrouped written with
  | '-' :: digits => Decimal.natOfDigits digits ≤ Nat.pow 2 63
  | '+' :: digits => Decimal.natOfDigits digits < Nat.pow 2 63
  | digits => Decimal.natOfDigits digits < Nat.pow 2 63

/-- A whole number to another base behind its mark. -/
def takeBased (base : Nat) (text : List Char) : Option (List Char × List Char) :=
  let value (c : Char) : Option Nat := (Json.hexValue? c).filter (· < base)
  match takeGrouped (fun c => (value c).isSome) text with
  | none => none
  | some (digits, rest) =>
    let n := (ungrouped digits).foldl (fun n c => base * n + (value c).getD 0) 0
    if n < Nat.pow 2 63 then some (digits, rest) else none

def takeInteger (text : List Char) : Option (List Char × List Char) :=
  match text with
  | '0' :: 'x' :: rest => takeBased 16 rest
  | '0' :: 'o' :: rest => takeBased 8 rest
  | '0' :: 'b' :: rest => takeBased 2 rest
  | _ =>
    match takeDecimal text with
    | some (written, rest) => if fitsWord written then some (written, rest) else none
    | none => none

def takeFraction : List Char → Option (List Char × List Char)
  | '.' :: rest => (takeGrouped isDigit rest).map fun (digits, rest) => ('.' :: digits, rest)
  | _ => none

def takeExponent : List Char → Option (List Char × List Char)
  | e :: rest =>
    if e = 'e' ∨ e = 'E' then
      let (sign, rest) := takeSign rest
      (takeGrouped isDigit rest).map fun (digits, rest) => (e :: sign ++ digits, rest)
    else none
  | [] => none

/-- A number with a fraction, an exponent or both. -/
def takeFloat (text : List Char) : Option (List Char × List Char) := do
  let (whole, rest) ← takeDecimal text
  let (tail, rest) ← match takeExponent rest with
    | some parts => some parts
    | none =>
      match takeFraction rest with
      | none => none
      | some (fraction, rest) =>
        match takeExponent rest with
        | some (exponent, rest) => some (fraction ++ exponent, rest)
        | none => some (fraction, rest)
  let written := whole ++ tail
  match Decimal.readFloat? (ungrouped written) with
  | some x => if x == Decimal.infinity then none else return (written, rest)
  | none => none

def takeSpecial (text : List Char) : Option (List Char × List Char) :=
  let (sign, rest) := takeSign text
  match rest with
  | 'i' :: 'n' :: 'f' :: rest => some (sign ++ "inf".toList, rest)
  | 'n' :: 'a' :: 'n' :: rest => some (sign ++ "nan".toList, rest)
  | _ => none

/-- So many digits that write a number within limits. -/
def takeField (width least greatest : Nat) (text : List Char) : Option (Nat × List Char) :=
  let digits := text.take width
  let n := Decimal.natOfDigits digits
  if digits.length = width && digits.all isDigit && least ≤ n && n ≤ greatest then
    some (n, text.drop width)
  else none

def takeChar (c : Char) : List Char → Option (List Char)
  | d :: rest => if d = c then some rest else none
  | [] => none

def isLeapYear (year : Nat) : Bool := year % 4 = 0 && (year % 100 ≠ 0 || year % 400 = 0)

def daysIn (year month : Nat) : Nat :=
  if month = 2 then if isLeapYear year then 29 else 28
  else if month = 4 ∨ month = 6 ∨ month = 9 ∨ month = 11 then 30 else 31

/-- The text behind a date of the calendar. -/
def afterDate? (text : List Char) : Option (List Char) := do
  let (year, rest) ← takeField 4 0 9999 text
  let (month, rest) ← takeField 2 1 12 (← takeChar '-' rest)
  let (_, rest) ← takeField 2 1 (daysIn year month) (← takeChar '-' rest)
  return rest

/-- The text behind a time of day with optional parts of a second. -/
def afterTime? (text : List Char) : Option (List Char) := do
  let (_, rest) ← takeField 2 0 23 text
  let (_, rest) ← takeField 2 0 59 (← takeChar ':' rest)
  let (_, rest) ← takeField 2 0 60 (← takeChar ':' rest)
  match rest with
  | '.' :: d :: more =>
    if isDigit d then return more.dropWhile isDigit else return rest
  | _ => return rest

/-- The text behind an offset from universal time. -/
def afterOffset? (text : List Char) : Option (List Char) :=
  match text with
  | c :: rest =>
    if c = 'Z' ∨ c = 'z' then some rest
    else if c = '+' ∨ c = '-' then do
      let (_, rest) ← takeField 2 0 23 rest
      let (_, rest) ← takeField 2 0 59 (← takeChar ':' rest)
      return rest
    else none
  | [] => none

/-- A date with an optional time and offset, or a time alone. -/
def afterDateTime? (text : List Char) : Option (List Char) :=
  match afterDate? text with
  | some rest =>
    match rest with
    | c :: more =>
      if c = 'T' ∨ c = 't' ∨ c = ' ' then
        match afterTime? more with
        | some behind => some ((afterOffset? behind).getD behind)
        | none => some rest
      else some rest
    | [] => some rest
  | none => afterTime? text

end EventQuery.Toml
