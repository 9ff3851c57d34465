/-!
# Dates

A moment is a number of seconds since the start of 1970, in universal time.  It
is written as in `Sun, 18 Oct 2026 12:00:00 GMT`.  Days are counted in the
Gregorian calendar, extended to all years; a year before 0 or after 9999 carries
its sign.
-/

namespace WikiPress

/-- Seconds since the start of 1970. -/
structure Moment where
  seconds : Int
deriving DecidableEq, Repr, Inhabited

namespace Calendar

/-- A day of the Gregorian calendar. -/
structure Date where
  year : Int
  /-- From 1 to 12. -/
  month : Nat
  /-- From 1 to 31. -/
  day : Nat
deriving DecidableEq, Repr

/-- Days from the first of March of year 0 to the start of 1970. -/
def epochDay : Int := 719468

/-- Days in four hundred years. -/
def eraDays : Int := 146097

/-- The date of a day, counted from the start of 1970.  Years are taken to start
in March, so that a leap day ends one, and to come in eras of four hundred. -/
def dateOfDay (day : Int) : Date :=
  let shifted := day + epochDay
  let era := shifted.fdiv eraDays
  let dayOfEra := (shifted - era * eraDays).toNat
  let yearOfEra := (dayOfEra - dayOfEra / 1460 + dayOfEra / 36524 - dayOfEra / 146096) / 365
  let dayOfYear := dayOfEra - (365 * yearOfEra + yearOfEra / 4 - yearOfEra / 100)
  let monthFromMarch := (5 * dayOfYear + 2) / 153
  let month := if monthFromMarch < 10 then monthFromMarch + 3 else monthFromMarch - 9
  { year := era * 400 + yearOfEra + (if month ≤ 2 then 1 else 0)
    month
    day := dayOfYear - (153 * monthFromMarch + 2) / 5 + 1 }

def monthNames : List String :=
  ["Jan", "Feb", "Mar", "Apr", "May", "Jun", "Jul", "Aug", "Sep", "Oct", "Nov", "Dec"]

/-- Names of the days of the week, from the day on which 1970 started. -/
def weekdayNames : List String :=
  ["Thu", "Fri", "Sat", "Sun", "Mon", "Tue", "Wed"]

/-- A number with leading zeros up to a width. -/
def padded (width value : Nat) : String :=
  let digits := toString value
  String.ofList (List.replicate (width - digits.length) '0') ++ digits

/-- A year with at least four digits, and with its sign outside 0 to 9999. -/
def yearText (year : Int) : String :=
  if year < 0 then "-" ++ padded 4 year.natAbs
  else if year > 9999 then "+" ++ padded 4 year.natAbs
  else padded 4 year.natAbs

end Calendar

namespace Moment

open Calendar

/-- Seconds in a day. -/
def daySeconds : Int := 86400

/-- A moment as text, as in `Sun, 18 Oct 2026 12:00:00 GMT`. -/
def format (moment : Moment) : String :=
  let day := moment.seconds.fdiv daySeconds
  let second := (moment.seconds - day * daySeconds).toNat
  let date := dateOfDay day
  let weekday := weekdayNames.getD (day.fmod 7).toNat ""
  let month := monthNames.getD (date.month - 1) ""
  s!"{weekday}, {padded 2 date.day} {month} {yearText date.year} " ++
    s!"{padded 2 (second / 3600)}:{padded 2 (second / 60 % 60)}:{padded 2 (second % 60)} GMT"

end Moment

end WikiPress
