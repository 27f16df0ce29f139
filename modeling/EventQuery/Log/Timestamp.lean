set_option autoImplicit false

namespace EventQuery.Timestamp

/-- Days of a cycle of 400 years, after which leap years repeat. -/
def cycleDays : Int := 146097

/-- Days from the first of March of the year 0 to the first of January 1970. -/
def epochDays : Int := 719468

/-- The years since the first of March of a cycle, and the days that are left. A year ends in
February, so that a leap day is its last one. -/
def yearOfCycle (day : Nat) : Nat × Nat :=
  let year := (day - day / 1460 + day / 36524 - day / 146096) / 365
  (year, day - (365 * year + year / 4 - year / 100))

/-- Year, month and day, for a day counted from the first of January 1970. -/
def dateOfDay (day : Int) : Int × Nat × Nat :=
  let shifted := day + epochDays
  let (year, rest) := yearOfCycle (shifted.emod cycleDays).toNat
  let month := (5 * rest + 2) / 153
  let sinceMarch := shifted.ediv cycleDays * 400 + year
  let dayOfMonth := rest - (153 * month + 2) / 5 + 1
  if month < 10 then (sinceMarch, month + 3, dayOfMonth)
  else (sinceMarch + 1, month - 9, dayOfMonth)

def padded (width n : Nat) : String :=
  let digits := toString n
  String.ofList (List.replicate (width - digits.length) '0') ++ digits

/-- Seconds since 1970 and milliseconds, as a date and a time. -/
def render (seconds : Int) (milliseconds : Nat) : String :=
  let (year, month, day) := dateOfDay (seconds.ediv 86400)
  let time := (seconds.emod 86400).toNat
  padded 4 year.toNat ++ "-" ++ padded 2 month ++ "-" ++ padded 2 day ++ "T" ++
    padded 2 (time / 3600) ++ ":" ++ padded 2 (time / 60 % 60) ++ ":" ++ padded 2 (time % 60) ++
    "." ++ padded 3 milliseconds ++ "Z"

example : render 951868799 5 = "2000-02-29T23:59:59.005Z" := by decide +kernel

end EventQuery.Timestamp
