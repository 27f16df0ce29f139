set_option autoImplicit false

namespace EventQuery.Json

def hexDigits (digits n : Nat) : List Char :=
  let written := Nat.toDigits 16 n
  List.replicate (digits - written.length) '0' ++ written

def escapeChar (c : Char) : List Char :=
  match c with
  | '"' => ['\\', '"']
  | '\\' => ['\\', '\\']
  | '\x08' => ['\\', 'b']
  | '\x0c' => ['\\', 'f']
  | '\n' => ['\\', 'n']
  | '\r' => ['\\', 'r']
  | '\t' => ['\\', 't']
  | _ => if c < ' ' then '\\' :: 'u' :: hexDigits 4 c.toNat else [c]

def escape (text : List Char) : List Char := text.flatMap escapeChar

def hexValue? (c : Char) : Option Nat :=
  if '0' ≤ c ∧ c ≤ '9' then some (c.toNat - '0'.toNat)
  else if 'a' ≤ c ∧ c ≤ 'f' then some (c.toNat - 'a'.toNat + 10)
  else if 'A' ≤ c ∧ c ≤ 'F' then some (c.toNat - 'A'.toNat + 10)
  else none

def hexUnit? (a b c d : Char) : Option Nat :=
  match hexValue? a, hexValue? b, hexValue? c, hexValue? d with
  | some a, some b, some c, some d => some (((a * 16 + b) * 16 + c) * 16 + d)
  | _, _, _, _ => none

/-- The character that a one-letter escape stands for. -/
def simpleEscape? : Char → Option Char
  | '"' => some '"'
  | '\\' => some '\\'
  | '/' => some '/'
  | 'b' => some '\x08'
  | 'f' => some '\x0c'
  | 'n' => some '\n'
  | 'r' => some '\r'
  | 't' => some '\t'
  | _ => none

def isLeading (unit : Nat) : Bool := 0xD800 ≤ unit && unit < 0xDC00

def isTrailing (unit : Nat) : Bool := 0xDC00 ≤ unit && unit < 0xE000

/-- The code of each character or escape. -/
def codes? : List Char → Option (List Nat)
  | '\\' :: 'u' :: a :: b :: c :: d :: rest =>
    match hexUnit? a b c d, codes? rest with
    | some unit, some codes => some (unit :: codes)
    | _, _ => none
  | '\\' :: c :: rest =>
    match simpleEscape? c, codes? rest with
    | some plain, some codes => some (plain.toNat :: codes)
    | _, _ => none
  | ['\\'] => none
  | c :: rest => (codes? rest).map (c.toNat :: ·)
  | [] => some []

/-- The characters of a row of codes. Surrogates stand for a character in pairs, and alone for
none. -/
def ofCodes? : List Nat → Option (List Char)
  | [] => some []
  | [code] =>
    if isLeading code || isTrailing code then none else some [Char.ofNat code]
  | code :: next :: rest =>
    if isTrailing code then none
    else if isLeading code then
      if isTrailing next then
        (ofCodes? rest).map
          (Char.ofNat (0x10000 + (code - 0xD800) * 0x400 + (next - 0xDC00)) :: ·)
      else none
    else (ofCodes? (next :: rest)).map (Char.ofNat code :: ·)

/-- The text that is written between the quotes. -/
def unescape? (written : List Char) : Option (List Char) := (codes? written).bind ofCodes?

end EventQuery.Json
