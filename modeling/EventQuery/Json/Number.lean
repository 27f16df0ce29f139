import EventQuery.Decimal.Numeral

/- Numbers in JSON. Naturals have digits only. For other numbers 64 bits of the digits are kept,
the further ones only move the decimal point, and the result is scaled by powers of ten. -/

set_option autoImplicit false

namespace EventQuery.Json

/-- The number `significand * 10 ^ exponent`, up to its sign. -/
structure Scaled where
  significand : Nat
  exponent : Int
  deriving DecidableEq

def greatestWord : Nat := UInt64.size - 1

/-- Adds digits before the point. Those that do not fit any more are dropped. -/
def takeWhole (significand : Nat) : List Char → Scaled
  | [] => ⟨significand, 0⟩
  | d :: rest =>
    let next := 10 * significand + Decimal.digitValue d
    if next ≤ greatestWord then takeWhole next rest else ⟨significand, rest.length + 1⟩

/-- Adds digits after the point, up to the first that does not fit. -/
def takeFraction (s : Scaled) : List Char → Scaled
  | [] => s
  | d :: rest =>
    let next := 10 * s.significand + Decimal.digitValue d
    if next ≤ greatestWord then takeFraction ⟨next, s.exponent - 1⟩ rest else s

def Scaled.ofNumeral (n : Decimal.Numeral) : Scaled :=
  let s := takeFraction (takeWhole 0 n.whole) n.fraction
  ⟨s.significand, s.exponent + n.exponent⟩

def floatOfNat (n : Nat) : Float := Float.ofScientific n false 0

def powerOfTen (n : Nat) : Float := Float.ofScientific 1 false n

/-- Divides by `10 ^ n`, at most `10 ^ 308` at a time. -/
def scaleDown (x : Float) (n : Nat) : Float :=
  if n ≤ 308 ∨ x == 0 then x / powerOfTen (min n 308)
  else scaleDown (x / powerOfTen 308) (n - 308)
termination_by n
decreasing_by omega

/-- The number, unless it is too great. -/
def Scaled.toFloat? (s : Scaled) : Option Float :=
  let x := floatOfNat s.significand
  if s.exponent < 0 then some (scaleDown x s.exponent.natAbs)
  else if x == 0 then some x
  else if 308 < s.exponent then none
  else
    let scaled := x * powerOfTen s.exponent.natAbs
    if scaled.isFinite then some scaled else none

/-- The value of the characters of a number. -/
def readFloat? (written : List Char) : Option Float :=
  match written with
  | '-' :: magnitude =>
    ((Decimal.Numeral.read? magnitude).bind fun n => (Scaled.ofNumeral n).toFloat?).map Neg.neg
  | _ => (Decimal.Numeral.read? written).bind fun n => (Scaled.ofNumeral n).toFloat?

/-- The value of digits without sign, point and exponent, up to a limit. -/
def readNat? (limit : Nat) (written : List Char) : Option Nat :=
  if written.isEmpty || !written.all isDigit then none
  else
    let n := Decimal.natOfDigits written
    if n ≤ limit then some n else none

end EventQuery.Json
