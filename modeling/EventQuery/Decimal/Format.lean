import EventQuery.Decimal.Quotient

set_option autoImplicit false

namespace EventQuery.Decimal

/-- Positional from exponent `least` up to and including `greatest`, otherwise with an exponent. -/
structure Format where
  least : Int
  greatest : Int
  plusSign : Bool
  tie : Tie

namespace Format

/-- Positional digits: at least one digit stands on each side of the point. -/
def positional (digits : List Char) (leading : Int) : List Char :=
  if leading < 0 then
    "0.".toList ++ List.replicate ((-leading).toNat - 1) '0' ++ digits
  else
    let width := leading.toNat + 1
    let whole := digits.take width ++ List.replicate (width - digits.length) '0'
    let fraction := digits.drop width
    whole ++ '.' :: (if fraction.isEmpty then ['0'] else fraction)

/-- One digit before the point, no point where nothing follows it. -/
def exponential (plusSign : Bool) (digits : List Char) (leading : Int) : List Char :=
  let fraction := digits.drop 1
  let sign := if leading < 0 then ['-'] else if plusSign then ['+'] else []
  digits.take 1 ++ (if fraction.isEmpty then [] else '.' :: fraction) ++
    'e' :: sign ++ Nat.toDigits 10 leading.natAbs

def magnitude (format : Format) (significand : Nat) (exponent : Int) : List Char :=
  let decimal := shortest significand exponent format.tie
  let digits := Nat.toDigits 10 decimal.digits
  let leading := (digits.length : Int) - 1 + decimal.exponent
  if format.least ≤ leading ∧ leading ≤ format.greatest then positional digits leading
  else exponential format.plusSign digits leading

def signed (sign : Float.Model.UnpackedFloat.Sign) (text : List Char) : List Char :=
  match sign with
  | .negative => '-' :: text
  | .positive => text

/-- The text of a number, or nothing for infinities and for what is no number. -/
def write? (format : Format) (x : Float) : Option (List Char) :=
  match x.toModel.unpack with
  | .notANumber => none
  | .infinity _ => none
  | .zero sign => some (signed sign "0.0".toList)
  | .finite sign significand exponent _ =>
    some (signed sign (format.magnitude significand exponent))

end Format

/-- A number with a fixed number of decimal places. The exact value is rounded, of two nearest the
even one. Where there are no places there is no point. -/
def fixedText (places : Nat) (x : Float) : List Char :=
  match x.toModel.unpack with
  | .notANumber => "NaN".toList
  | .infinity sign => Format.signed sign "inf".toList
  | .zero sign => Format.signed sign (placed 0)
  | .finite sign significand exponent _ =>
    Format.signed sign <| placed <|
      roundDiv .toEven (significand * Nat.pow 2 exponent.toNat * Nat.pow 10 places)
        (Nat.pow 2 (-exponent).toNat)
where
  placed (units : Nat) : List Char :=
    if places = 0 then Nat.toDigits 10 units else fixedPlaces places units

/-- Values in a query tree: positional from 1e-4 up to below 1e16. -/
def valueFormat : Format := ⟨-4, 15, false, .upward⟩

/-- Numbers in JSON: positional from 1e-5 up to below 1e16, exponents with their sign. -/
def jsonFormat : Format := ⟨-5, 15, true, .toEven⟩

/-- The text of a value, which names infinities and what is no number. -/
def valueText (x : Float) : List Char :=
  match valueFormat.write? x with
  | some text => text
  | none =>
    if x.isNaN then "NaN".toList
    else if x < 0 then "-inf".toList else "inf".toList

end EventQuery.Decimal
