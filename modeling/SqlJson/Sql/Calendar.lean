/-!
# Dates and times

The proleptic Gregorian calendar, and times of day to the nanosecond.

* `Date.text`, `TimeOfDay.text`, `DateTime.text`: the texts of dates and times.
* `Date.dayNumber`, `Date.ofDayNumber`: days counted from 1 January 1970.
* `DateTime.ofUnix`: the date and time of a number of seconds counted from then.
-/

namespace SqlJson

/-- A day of the proleptic Gregorian calendar. The year before year one is year zero. -/
structure Date where
  year : Int
  month : Nat
  day : Nat
deriving DecidableEq, Repr

/-- A time of day. A leap second is second 59 with a billion nanoseconds or more. -/
structure TimeOfDay where
  hour : Nat
  minute : Nat
  second : Nat
  nanosecond : Nat
deriving DecidableEq, Repr

/-- A date and a time of day. -/
structure DateTime where
  date : Date
  time : TimeOfDay
deriving DecidableEq, Repr

/-- A number with zeros in front of it up to a width. -/
def padded (width n : Nat) : List Char :=
  let digits := Nat.toDigits 10 n
  List.replicate (width - digits.length) '0' ++ digits

namespace Date

def isLeapYear (year : Int) : Bool := year % 4 = 0 && (year % 100 ≠ 0 || year % 400 = 0)

def daysInMonth (year : Int) (month : Nat) : Nat :=
  if month = 2 then if isLeapYear year then 29 else 28
  else if month = 4 ∨ month = 6 ∨ month = 9 ∨ month = 11 then 30
  else 31

/-- The years that dates can have. -/
def minYear : Int := -262143

def maxYear : Int := 262142

/-- Whether a date is a day of the calendar. -/
def isValid (d : Date) : Bool :=
  minYear ≤ d.year && d.year ≤ maxYear && 1 ≤ d.month && d.month ≤ 12 && 1 ≤ d.day
    && d.day ≤ daysInMonth d.year d.month

/-- The date with given parts, if there is such a day. -/
def ofParts? (year : Int) (month day : Nat) : Option Date :=
  let d : Date := ⟨year, month, day⟩
  if d.isValid then some d else none

/-- Four digits for the years from 0 to 9999, and a sign and at least four digits else. -/
def yearText (year : Int) : List Char :=
  if 0 ≤ year ∧ year ≤ 9999 then padded 4 year.toNat
  else (if year < 0 then '-' else '+') :: padded 4 year.natAbs

def chars (d : Date) : List Char :=
  yearText d.year ++ '-' :: padded 2 d.month ++ '-' :: padded 2 d.day

/-- **The text of a date**: year, month and day. -/
def text (d : Date) : String := String.ofList d.chars

/-- The days from the first of January 1970 to a date. Years are counted from March on, so that
a leap day is the last day of its year. -/
def dayNumber (d : Date) : Int :=
  let year := if d.month ≤ 2 then d.year - 1 else d.year
  let era := Int.fdiv year 400
  let yearOfEra := year - era * 400
  let month : Int := (d.month + 9) % 12
  let dayOfYear := (153 * month + 2) / 5 + d.day - 1
  era * 146097 + yearOfEra * 365 + yearOfEra / 4 - yearOfEra / 100 + dayOfYear - 719468

/-- The date a number of days after the first of January 1970. -/
def ofDayNumber (n : Int) : Date :=
  let n := n + 719468
  let era := Int.fdiv n 146097
  let dayOfEra := n - era * 146097
  let yearOfEra := (dayOfEra - dayOfEra / 1460 + dayOfEra / 36524 - dayOfEra / 146096) / 365
  let dayOfYear := dayOfEra - (365 * yearOfEra + yearOfEra / 4 - yearOfEra / 100)
  let month := (5 * dayOfYear + 2) / 153
  let day := dayOfYear - (153 * month + 2) / 5 + 1
  let year := yearOfEra + era * 400
  if month < 10 then ⟨year, (month + 3).toNat, day.toNat⟩
  else ⟨year + 1, (month - 9).toNat, day.toNat⟩

end Date

namespace TimeOfDay

/-- A second has this many nanoseconds. -/
def billion : Nat := 1000000000

/-- A point and three, six or nine digits, as many as are needed, or nothing. -/
def fractionText (nanosecond : Nat) : List Char :=
  if nanosecond = 0 then []
  else if nanosecond % 1000000 = 0 then '.' :: padded 3 (nanosecond / 1000000)
  else if nanosecond % 1000 = 0 then '.' :: padded 6 (nanosecond / 1000)
  else '.' :: padded 9 nanosecond

def chars (t : TimeOfDay) : List Char :=
  padded 2 t.hour ++ ':' :: padded 2 t.minute
    ++ ':' :: padded 2 (t.second + t.nanosecond / billion) ++ fractionText (t.nanosecond % billion)

/-- **The text of a time**: hour, minute, second and fraction. A leap second is second 60. -/
def text (t : TimeOfDay) : String := String.ofList t.chars

end TimeOfDay

namespace DateTime

def chars (t : DateTime) : List Char := t.date.chars ++ 'T' :: t.time.chars

/-- **The text of a date and time**, with a `T` between them. -/
def text (t : DateTime) : String := String.ofList t.chars

/-- The text of a date and time in Coordinated Universal Time, which a `Z` marks. -/
def utcText (t : DateTime) : String := String.ofList (t.chars ++ ['Z'])

/-- A minute counted from the first of January 1970, and the part of it that has passed. -/
def ofMinute (minutes : Int) (second nanosecond : Nat) : DateTime :=
  let days := Int.fdiv minutes 1440
  let minute := (minutes - days * 1440).toNat
  ⟨Date.ofDayNumber days, ⟨minute / 60, minute % 60, second, nanosecond⟩⟩

/-- **The date and time** of seconds counted from the first of January 1970. -/
def ofUnix (seconds : Int) (nanosecond : Nat) : DateTime :=
  let minutes := Int.fdiv seconds 60
  ofMinute minutes (seconds - minutes * 60).toNat nanosecond

/-- A date and time some minutes later. -/
def addMinutes (t : DateTime) (minutes : Int) : DateTime :=
  ofMinute (t.date.dayNumber * 1440 + t.time.hour * 60 + t.time.minute + minutes)
    t.time.second t.time.nanosecond

end DateTime

end SqlJson
