/-!
# Time stamps

The text of a moment in universal time, to the microsecond, in the Gregorian calendar. Years are
counted from the first of March, so that a leap day is the last day of its year; four hundred such
years have 146097 days.
-/

namespace InkLint

/-- A day of the calendar. -/
structure CalendarDay where
  year : Nat
  month : Nat
  day : Nat
deriving DecidableEq, Repr

/-- The day that is `days` days after the first of January 1970. -/
def CalendarDay.ofEpochDays (days : Nat) : CalendarDay :=
  let sinceMarch := days + 719468
  let cycle := sinceMarch / 146097
  let inCycle := sinceMarch % 146097
  let yearInCycle := (inCycle - inCycle / 1460 + inCycle / 36524 - inCycle / 146096) / 365
  let inYear := inCycle - (365 * yearInCycle + yearInCycle / 4 - yearInCycle / 100)
  let shifted := (5 * inYear + 2) / 153
  let month := if shifted < 10 then shifted + 3 else shifted - 9
  { year := cycle * 400 + yearInCycle + if month ≤ 2 then 1 else 0
    month := month
    day := inYear - (153 * shifted + 2) / 5 + 1 }

-- a leap day in a year that is divisible by four hundred
example : CalendarDay.ofEpochDays 11016 = ⟨2000, 2, 29⟩ := by decide

/-- A number with zeros in front, up to a width. -/
def zeroPadded (width n : Nat) : String :=
  let digits := Nat.toDigits 10 n
  String.ofList (List.replicate (width - digits.length) '0' ++ digits)

/-- The text of the moment `micros` microseconds after the start of 1970. -/
def timeStamp (micros : Nat) : String :=
  let seconds := micros / 1000000
  let date := CalendarDay.ofEpochDays (seconds / 86400)
  let clock := seconds % 86400
  zeroPadded 4 date.year ++ "-" ++ zeroPadded 2 date.month ++ "-" ++ zeroPadded 2 date.day ++ "T" ++
    zeroPadded 2 (clock / 3600) ++ ":" ++ zeroPadded 2 (clock / 60 % 60) ++ ":" ++
    zeroPadded 2 (clock % 60) ++ "." ++ zeroPadded 6 (micros % 1000000) ++ "Z"

end InkLint
