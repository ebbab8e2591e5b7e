/-!
# Dates

The written form of a moment in coordinated universal time, in the proleptic Gregorian calendar.
A moment is a 64-bit word of milliseconds since 1970, read as a signed number.
-/

namespace EndToEnd.Calendar

/-- A day. -/
structure Date where
  year : Int
  month : Nat
  day : Nat
  deriving DecidableEq, Repr

/-- The day that lies `days` days after the first of January 1970. Years are counted from March in
cycles of four hundred, so that the leap day is the last of its year. -/
def Date.ofDays (days : Int) : Date :=
  let shifted := days + 719468
  let cycle := shifted / 146097
  let dayOfCycle := (shifted % 146097).toNat
  let yearOfCycle := (dayOfCycle - dayOfCycle / 1460 + dayOfCycle / 36524 - dayOfCycle / 146096) / 365
  let dayOfYear := dayOfCycle - (365 * yearOfCycle + yearOfCycle / 4 - yearOfCycle / 100)
  let marchMonth := (5 * dayOfYear + 2) / 153
  let month := if marchMonth < 10 then marchMonth + 3 else marchMonth - 9
  let year := cycle * 400 + yearOfCycle + (if month ≤ 2 then 1 else 0)
  ⟨year, month, dayOfYear - (153 * marchMonth + 2) / 5 + 1⟩

/-- A number with zeros in front up to `width` digits. -/
def padded (width n : Nat) : String :=
  let digits := toString n
  String.ofList (List.replicate (width - digits.length) '0') ++ digits

/-- A year: four digits, or a sign and at least four digits outside that range. -/
def yearText (year : Int) : String :=
  if 0 ≤ year ∧ year ≤ 9999 then padded 4 year.toNat
  else (if year < 0 then "-" else "+") ++ padded 4 year.natAbs

/-- The years that have a written form. -/
def isWritable (date : Date) : Bool := -262143 ≤ date.year && date.year ≤ 262142

/-- A moment as text; a moment outside the writable years is written as the start of 1970. -/
def text (millis : UInt64) : String :=
  let signed := millis.toInt64.toInt
  let moment := if isWritable (Date.ofDays (signed / 86400000)) then signed else 0
  let date := Date.ofDays (moment / 86400000)
  let ofDay := (moment % 86400000).toNat
  let fraction := ofDay % 1000
  yearText date.year ++ "-" ++ padded 2 date.month ++ "-" ++ padded 2 date.day ++ "T"
    ++ padded 2 (ofDay / 3600000) ++ ":" ++ padded 2 (ofDay / 60000 % 60) ++ ":"
    ++ padded 2 (ofDay / 1000 % 60)
    ++ (if fraction = 0 then "" else "." ++ padded 3 fraction) ++ "+00:00"

end EndToEnd.Calendar
