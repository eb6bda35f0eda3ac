import IntentPlan.Text.Search

/-! # Instants and their text -/

namespace IntentPlan

/-- Microseconds since the start of 1970, universal time. -/
structure Instant where
  micros : Int
deriving DecidableEq, Repr

/-- A day of the Gregorian calendar. -/
structure CivilDay where
  year : Int
  month : Int
  day : Int
deriving DecidableEq, Repr

/-- The day that is `days` days after the first of January 1970.  Years are counted from March, so
that a leap day ends one, and eras of 400 years have the same number of days each. -/
def CivilDay.ofDays (days : Int) : CivilDay :=
  let shifted := days + 719468
  let era := shifted / 146097
  let dayOfEra := shifted % 146097
  let yearOfEra := (dayOfEra - dayOfEra / 1460 + dayOfEra / 36524 - dayOfEra / 146096) / 365
  let dayOfYear := dayOfEra - (365 * yearOfEra + yearOfEra / 4 - yearOfEra / 100)
  let monthFromMarch := (5 * dayOfYear + 2) / 153
  let month := if monthFromMarch < 10 then monthFromMarch + 3 else monthFromMarch - 9
  { year := yearOfEra + era * 400 + (if month ≤ 2 then 1 else 0)
    month
    day := dayOfYear - (153 * monthFromMarch + 2) / 5 + 1 }

namespace Instant

private def padded (width : Nat) (n : Int) : String := Text.padZeros width (toString n)

/-- Date, time and offset; the fraction of the second only if there is one. -/
def iso (t : Instant) : String :=
  let seconds := t.micros / 1000000
  let fraction := t.micros % 1000000
  let date := CivilDay.ofDays (seconds / 86400)
  let time := seconds % 86400
  padded 4 date.year ++ "-" ++ padded 2 date.month ++ "-" ++ padded 2 date.day ++ "T" ++
    padded 2 (time / 3600) ++ ":" ++ padded 2 (time / 60 % 60) ++ ":" ++ padded 2 (time % 60) ++
    (if fraction = 0 then "" else "." ++ padded 6 fraction) ++ "+00:00"

end Instant

end IntentPlan
