/-! # Calendar

Dates of the Gregorian calendar and times of day.  Days are counted from the first of January 1970;
`Date.toDays` and `Date.ofDays` convert, both by eras of 400 years, which are all equally long.  The
year of the conversion starts in March, so that a leap day is the last day of its year. -/

namespace Finality.Calendar

/-- A date. -/
structure Date where
  year : Int
  month : Nat
  day : Nat
deriving DecidableEq, Repr

/-- A time of day. -/
structure Clock where
  hour : Nat
  minute : Nat
  second : Nat
deriving DecidableEq, Repr

/-- Years with a leap day. -/
def isLeap (year : Int) : Bool := year % 4 == 0 && (year % 100 != 0 || year % 400 == 0)

/-- Number of days of a month. -/
def daysInMonth (year : Int) (month : Nat) : Nat :=
  if month == 2 then if isLeap year then 29 else 28
  else if [4, 6, 9, 11].contains month then 30 else 31

/-- Days of an era of 400 years. -/
def daysInEra : Nat := 146097

/-- Days from the first of March of the year zero to the first of January 1970. -/
def epoch : Int := 719468

/-- Days of a year that starts in March before the first of a month, March being month zero. -/
def daysBeforeMonth (m : Nat) : Nat := (153 * m + 2) / 5

/-- Number of days from the first of January 1970. -/
def Date.toDays (d : Date) : Int :=
  let year := if d.month ≤ 2 then d.year - 1 else d.year
  let era := year.fdiv 400
  let ofEra := (year - era * 400).toNat
  let month := (d.month + 9) % 12
  era * daysInEra + (ofEra * 365 + ofEra / 4 - ofEra / 100 + daysBeforeMonth month + (d.day - 1) : Nat)
    - epoch

/-- Date of a number of days from the first of January 1970. -/
def Date.ofDays (days : Int) : Date :=
  let n := days + epoch
  let era := n.fdiv daysInEra
  let ofEra := (n - era * daysInEra).toNat
  let year := (ofEra - ofEra / 1460 + ofEra / 36524 - ofEra / 146096) / 365
  let ofYear := ofEra - (365 * year + year / 4 - year / 100)
  let m := (5 * ofYear + 2) / 153
  let month := if m < 10 then m + 3 else m - 9
  { year := (year : Int) + era * 400 + if month ≤ 2 then 1 else 0
    month := month
    day := ofYear - daysBeforeMonth m + 1 }

/-- Seconds of a day. -/
def secondsPerDay : Nat := 86400

/-- Seconds since midnight. -/
def Clock.toSeconds (c : Clock) : Nat := c.hour * 3600 + c.minute * 60 + c.second

/-- Time of day of seconds since midnight. -/
def Clock.ofSeconds (n : Nat) : Clock := ⟨n / 3600, n / 60 % 60, n % 60⟩

/-- Date and time of day of seconds from the start of 1970. -/
def ofUnix (seconds : Int) : Date × Clock :=
  (.ofDays (seconds.fdiv secondsPerDay), .ofSeconds (seconds.fmod secondsPerDay).toNat)

/-- Numeral with leading zeros; one that is too wide is written in full. -/
def zeroPadded (width : Nat) (n : Nat) : String :=
  let s := toString n
  String.ofList (List.replicate (width - s.length) '0') ++ s

/-- Digits of a date between hyphens, the year with at least some number of them. -/
def Date.text (yearWidth : Nat) (d : Date) : String :=
  (if d.year < 0 then "-" else "") ++ zeroPadded yearWidth d.year.natAbs ++ "-"
    ++ zeroPadded 2 d.month ++ "-" ++ zeroPadded 2 d.day

/-- Digits of a time of day between colons. -/
def Clock.text (c : Clock) : String :=
  zeroPadded 2 c.hour ++ ":" ++ zeroPadded 2 c.minute ++ ":" ++ zeroPadded 2 c.second

end Finality.Calendar
