/-!
# Civil time

A number of seconds since the beginning of 1970 as a date and a time of day in
universal time, in the Gregorian calendar without end in either direction.

* `Civil.ofSeconds?`: the civil time, for the seconds that have one here;
* `Civil.text`: its text.
-/

namespace StatusList

/-- A date and a time of day. -/
structure Civil where
  /-- The year; the year before 1 is 0. -/
  year : Int
  /-- The month, from 1 to 12. -/
  month : Nat
  /-- The day of the month, from 1 to 31. -/
  day : Nat
  /-- The second of the day. -/
  second : Nat
  deriving DecidableEq, Repr, Inhabited

namespace Civil

/-- The seconds of a day. -/
def secondsPerDay : Int := 86400

/-- The days of the four hundred years after which the calendar repeats. -/
def daysPerEra : Int := 146097

/-- The first and the last second that have a civil time. -/
def firstSecond : Int := -8334601228800

@[inherit_doc firstSecond]
def lastSecond : Int := 8210266876799

/-- Year, month and day of a number of days since the beginning of 1970. Years
    are counted from the first of March, so that a leap day ends its year. -/
def ofDays (days : Int) : Int × Nat × Nat :=
  -- From here on, days are counted from the first of March of the year 0.
  let days := days + 719468
  let era := days.fdiv daysPerEra
  let dayOfEra := (days.fmod daysPerEra).toNat
  let yearOfEra := (dayOfEra - dayOfEra / 1460 + dayOfEra / 36524 - dayOfEra / 146096) / 365
  let dayOfYear := dayOfEra - (365 * yearOfEra + yearOfEra / 4 - yearOfEra / 100)
  -- From March on, every five months take 153 days.
  let monthFromMarch := (5 * dayOfYear + 2) / 153
  let day := dayOfYear - (153 * monthFromMarch + 2) / 5 + 1
  let month := if monthFromMarch < 10 then monthFromMarch + 3 else monthFromMarch - 9
  let year := (yearOfEra : Int) + era * 400
  (if month ≤ 2 then year + 1 else year, month, day)

/-- The civil time of a number of seconds since the beginning of 1970. -/
def ofSeconds? (seconds : Int) : Option Civil :=
  if firstSecond ≤ seconds ∧ seconds ≤ lastSecond then
    let (year, month, day) := ofDays (seconds.fdiv secondsPerDay)
    some ⟨year, month, day, (seconds.fmod secondsPerDay).toNat⟩
  else
    none

/-- A number with zeros before it up to `width` digits. -/
def padded (width n : Nat) : String :=
  let digits := toString n
  .ofList (.replicate (width - digits.length) '0') ++ digits

/-- The text of a year: four digits, with a sign where they are not enough. -/
def yearText (year : Int) : String :=
  if 0 ≤ year ∧ year ≤ 9999 then padded 4 year.toNat
  else (if year < 0 then "-" else "+") ++ padded 4 year.natAbs

/-- The text of a civil time. -/
def text (t : Civil) : String :=
  let date := yearText t.year ++ "-" ++ padded 2 t.month ++ "-" ++ padded 2 t.day
  let time := padded 2 (t.second / 3600) ++ ":" ++ padded 2 (t.second / 60 % 60) ++ ":"
    ++ padded 2 (t.second % 60)
  date ++ " " ++ time ++ " UTC"

end Civil

end StatusList
