set_option autoImplicit false

namespace EventQuery

/-- Only the ten ASCII digits count as digits. -/
def isDigit (c : Char) : Bool := decide ('0' ≤ c) && decide (c ≤ '9')

namespace Decimal

def digitValue (c : Char) : Nat := c.toNat - '0'.toNat

/-- The number that a row of digits writes, the most significant digit first. -/
def natOfDigits (digits : List Char) : Nat :=
  digits.foldl (fun total c => 10 * total + digitValue c) 0

/-- An unsigned numeral: the digits before the point, those after it, and the power of ten. -/
structure Numeral where
  whole : List Char
  fraction : List Char
  exponent : Int
  deriving DecidableEq

namespace Numeral

/-- The binary64 number nearest to the written value, the even one of two nearest. -/
def toFloat (n : Numeral) : Float :=
  let exponent := n.exponent - n.fraction.length
  Float.ofScientific (natOfDigits (n.whole ++ n.fraction)) (decide (exponent < 0)) exponent.natAbs

/-- An optional sign and at least one digit. -/
def readExponent? (text : List Char) : Option Int :=
  let (negative, digits) := match text with
    | '-' :: rest => (true, rest)
    | '+' :: rest => (false, rest)
    | _ => (false, text)
  if digits.isEmpty || !digits.all isDigit then none
  else if negative then some (-(natOfDigits digits : Int)) else some (natOfDigits digits)

/-- Digits with at most one point among them and an optional exponent. At least one digit stands
before the exponent; it may stand on either side of the point. -/
def read? (text : List Char) : Option Numeral :=
  let whole := text.takeWhile isDigit
  let rest := text.dropWhile isDigit
  let (fraction, rest) := match rest with
    | '.' :: more => (more.takeWhile isDigit, more.dropWhile isDigit)
    | _ => ([], rest)
  if whole.isEmpty && fraction.isEmpty then none
  else match rest with
    | [] => some ⟨whole, fraction, 0⟩
    | c :: more =>
      if c = 'e' ∨ c = 'E' then (readExponent? more).map (⟨whole, fraction, ·⟩) else none

end Numeral

def infinity : Float := Float.ofBits 0x7FF0000000000000

def notANumber : Float := Float.ofBits 0x7FF8000000000000

def readMagnitude? (text : List Char) : Option Float :=
  let lowered := text.map Char.toLower
  if lowered = "inf".toList ∨ lowered = "infinity".toList then some infinity
  else if lowered = "nan".toList then some notANumber
  else (Numeral.read? text).map Numeral.toFloat

/-- An optional sign before a numeral or a name of infinity or of the number that is none. The
names are matched in any case; nothing may stand around the number. -/
def readFloat? (text : List Char) : Option Float :=
  match text with
  | '-' :: rest => (readMagnitude? rest).map Neg.neg
  | '+' :: rest => readMagnitude? rest
  | _ => readMagnitude? text

end Decimal

end EventQuery
