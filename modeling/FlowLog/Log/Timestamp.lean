import FlowLog.Number

/-!
# Timestamps

An instant is a number of milliseconds since the start of 1970, in a calendar without leap seconds.
It may lie between two milliseconds; what is written is the one of them that is nearer to the start
of 1970. Years outside 0 to 9999 are written with a sign and six digits.
-/

namespace FlowLog.Log

/-- A day of the calendar. -/
structure Date where
  year : Int
  month : Nat
  day : Nat
  deriving DecidableEq, Repr

/-- The day that lies some days after the first of January 1970. The count runs in eras of 400 years
from the first of March of the year 0, so that a leap day ends its year. -/
def Date.ofDays (days : Int) : Date :=
  let shifted := days + 719468
  let era := shifted.fdiv 146097
  let dayOfEra := (shifted - era * 146097).toNat
  let yearOfEra := (dayOfEra - dayOfEra / 1460 + dayOfEra / 36524 - dayOfEra / 146096) / 365
  let dayOfYear := dayOfEra - (365 * yearOfEra + yearOfEra / 4 - yearOfEra / 100)
  let monthFromMarch := (5 * dayOfYear + 2) / 153
  let month := if monthFromMarch < 10 then monthFromMarch + 3 else monthFromMarch - 9
  { year := yearOfEra + era * 400 + (if month ≤ 2 then 1 else 0)
    month
    day := dayOfYear - (153 * monthFromMarch + 2) / 5 + 1 }

/-- The digits of a number with zeros in front up to a width. -/
def padded (width n : Nat) : String :=
  let digits := Numeral.digits n
  String.ofList (List.replicate (width - digits.length) '0' ++ digits)

/-- How a year is written. -/
def yearText (year : Int) : String :=
  if 0 ≤ year ∧ year ≤ 9999 then padded 4 year.toNat
  else (if year < 0 then "-" else "+") ++ padded 6 year.natAbs

/-- The number of milliseconds of a day. -/
def dayLength : Int := 86400000

/-- How an instant is written. -/
def timestamp (instant : Number) : String :=
  let milliseconds := instant.truncate
  let days := milliseconds.fdiv dayLength
  let time := (milliseconds - days * dayLength).toNat
  let date := Date.ofDays days
  yearText date.year ++ "-" ++ padded 2 date.month ++ "-" ++ padded 2 date.day ++ "T" ++
    padded 2 (time / 3600000) ++ ":" ++ padded 2 (time / 60000 % 60) ++ ":" ++
    padded 2 (time / 1000 % 60) ++ "." ++ padded 3 (time % 1000) ++ "Z"

end FlowLog.Log
