/-!
# The footer

The time of a run is given in whole seconds since the beginning of 1970 and written as a date of the
Gregorian calendar, which reaches back before its introduction, with the time of day.
-/

namespace ApiPages

/-- A point in time: seconds since the beginning of 1970, in universal time. -/
structure Instant where
  seconds : Int
deriving DecidableEq, Repr

/-- A day of the calendar. -/
structure Date where
  year : Int
  month : Nat
  day : Nat
deriving DecidableEq, Repr

namespace Date

/-- The day that is some days after the beginning of 1970. Years are counted from March, so that a
leap day ends one, and in eras of 400 years, which all have the same number of days. -/
def ofDays (days : Int) : Date :=
  let fromMarch := days + 719468
  let era := fromMarch / 146097
  let dayOfEra := (fromMarch % 146097).toNat
  let yearOfEra := (dayOfEra - dayOfEra / 1460 + dayOfEra / 36524 - dayOfEra / 146096) / 365
  let dayOfYear := dayOfEra - (365 * yearOfEra + yearOfEra / 4 - yearOfEra / 100)
  let monthFromMarch := (5 * dayOfYear + 2) / 153
  let month := if monthFromMarch < 10 then monthFromMarch + 3 else monthFromMarch - 9
  let year : Int := era * 400 + yearOfEra + (if month ≤ 2 then 1 else 0)
  ⟨year, month, dayOfYear - (153 * monthFromMarch + 2) / 5 + 1⟩

end Date

/-- A number with zeros before it, so that it has at least `width` digits. -/
def padded (width n : Nat) : String :=
  let digits := toString n
  String.ofList (List.replicate (width - digits.length) '0') ++ digits

/-- A year in at least four digits, with a sign when it is negative or has more. -/
def yearText (year : Int) : String :=
  if year < 0 then "-" ++ padded 4 year.natAbs
  else if year > 9999 then "+" ++ toString year.toNat
  else padded 4 year.toNat

namespace Instant

/-- The date and the time of day, in universal time. -/
def text (t : Instant) : String :=
  let date := Date.ofDays (t.seconds / 86400)
  let second := (t.seconds % 86400).toNat
  yearText date.year ++ "-" ++ padded 2 date.month ++ "-" ++ padded 2 date.day ++ " " ++
    padded 2 (second / 3600) ++ ":" ++ padded 2 (second / 60 % 60) ++ ":" ++
    padded 2 (second % 60) ++ "+00:00"

end Instant

/-- The footer of a document that was written at a time. -/
def footer (time : String) : String :=
  "---\n\nThis file was generated by " ++
    "[SourceDocs](https://github.com/sourcedocs/sourcedocs) on " ++ time ++ "\n"

end ApiPages
