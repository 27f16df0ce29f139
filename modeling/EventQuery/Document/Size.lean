import EventQuery.Decimal.Quotient

set_option autoImplicit false

namespace EventQuery.Document

/-- The unit that a size is given in and its number of bytes, not below the given unit. -/
def unitFor (size scale : Nat) (unit : String) : List String → Nat × String
  | [] => (scale, unit)
  | larger :: others =>
    if size < 1024 * scale then (scale, unit) else unitFor size (1024 * scale) larger others

/-- Sizes above 2^53 bytes are rounded to 53 binary digits first. -/
def humanSize (size : Nat) : String :=
  let rounded := Decimal.roundBinary 53 size
  let (scale, unit) := unitFor rounded 1 "B" ["KB", "MB", "GB"]
  if scale = 1 then toString size ++ " " ++ unit
  else
    let hundredths := Decimal.roundDiv .toEven (100 * rounded) scale
    String.ofList (Decimal.fixedPlaces 2 hundredths) ++ " " ++ unit

end EventQuery.Document
