import Finality.Calendar
import Finality.Yaml.Fault

/-! # Timestamps

A timestamp is a date, or a date with a time of day and possibly an offset from universal time.
`Timestamp.read` takes a text apart and then checks the ranges: the offset first, then the date and
the time from left to right.

A plain scalar is taken for a timestamp by its form alone (`Timestamp.isForm`), which asks for two
digits of month and day where no time follows. -/

namespace Finality.Yaml

open Calendar (Date Clock)

/-- A point in time. -/
structure Timestamp where
  date : Date
  /-- Time of day with microseconds. -/
  time : Option (Clock × Nat) := none
  /-- Minutes by which the time is ahead of universal time. -/
  offset : Option Int := none
deriving DecidableEq, Repr

namespace Timestamp

/-- Digits of a timestamp, as they are written. -/
structure Written where
  year : List Char
  month : List Char
  day : List Char
  /-- Hour, minute, second and fraction. -/
  time : Option (List Char × List Char × List Char × List Char) := none
  /-- Sign, hours and minutes of the offset. -/
  zone : Option (Bool × List Char × List Char) := none

/-- Digits at the front of a text, at least `least` and at most `most`. -/
def digits? (least most : Nat) (cs : List Char) : Option (List Char × List Char) :=
  let ds := (cs.take most).takeWhile Text.isAsciiDigit
  if ds.length < least then none else some (ds, cs.drop ds.length)

/-- Text behind a character. -/
def after? (c : Char) : List Char → Option (List Char)
  | [] => none
  | x :: rest => if x == c then some rest else none

/-- Space or tab. -/
def isSpacing (c : Char) : Bool := c == ' ' || c == '\t'

/-- Offset that makes up a text: `Z`, or a sign with hours and perhaps minutes. -/
def zone? : List Char → Option (Bool × List Char × List Char)
  | ['Z'] => some (false, [], [])
  | sign :: rest =>
    if sign != '-' && sign != '+' then none
    else do
      let (hour, rest) ← digits? 1 2 rest
      if rest.isEmpty then some (sign == '-', hour, [])
      else
        let (minute, rest) ← digits? 2 2 (← after? ':' rest)
        if rest.isEmpty then some (sign == '-', hour, minute) else none
  | [] => none

/-- Text behind what separates date and time. -/
def separated? : List Char → Option (List Char)
  | [] => none
  | c :: rest =>
    if c == 'T' || c == 't' then some rest
    else if isSpacing c then some (rest.dropWhile isSpacing)
    else none

/-- Parts of a timestamp that makes up a text. -/
def written? (cs : List Char) : Option Written := do
  let (year, cs) ← digits? 4 4 cs
  let (month, cs) ← digits? 1 2 (← after? '-' cs)
  let (day, cs) ← digits? 1 2 (← after? '-' cs)
  if cs.isEmpty then some { year, month, day }
  else
    let (hour, cs) ← digits? 1 2 (← separated? cs)
    let (minute, cs) ← digits? 2 2 (← after? ':' cs)
    let (second, cs) ← digits? 2 2 (← after? ':' cs)
    let (fraction, cs) := match cs with
      | '.' :: cs => (cs.takeWhile Text.isAsciiDigit, cs.dropWhile Text.isAsciiDigit)
      | cs => ([], cs)
    let time := some (hour, minute, second, fraction)
    if cs.isEmpty then some { year, month, day, time }
    else
      let zone ← zone? (cs.dropWhile isSpacing)
      some { year, month, day, time, zone := some zone }

/-- Text without a line feed at its end. -/
def dropFinalBreak (cs : List Char) : List Char :=
  if cs.getLast? == some '\n' then cs.dropLast else cs

/-- Whether a plain scalar is taken for a timestamp. -/
def isForm (cs : List Char) : Bool :=
  match written? cs with
  | none => false
  | some w => w.time.isSome || (w.month.length == 2 && w.day.length == 2)

open Text.Numeral (digitsValue)

/-- Date of its digits. -/
def dateOf (w : Written) : Except DateFault Date :=
  let year := digitsValue w.year
  let month := digitsValue w.month
  let day := digitsValue w.day
  if year = 0 then .error (.year year)
  else if month = 0 ∨ 12 < month then .error .month
  else if day = 0 ∨ Calendar.daysInMonth year month < day then .error .day
  else .ok ⟨year, month, day⟩

/-- Time of day of its digits. -/
def clockOf (hour minute second : List Char) : Except DateFault Clock :=
  let c : Clock := ⟨digitsValue hour, digitsValue minute, digitsValue second⟩
  if 23 < c.hour then .error .hour
  else if 59 < c.minute then .error .minute
  else if 59 < c.second then .error .second
  else .ok c

/-- Microseconds of the digits of a fraction. -/
def microseconds (fraction : List Char) : Nat :=
  let ds := fraction.take 6
  digitsValue ds * Nat.pow 10 (6 - ds.length)

/-- Minutes of an offset, which must be less than a day. -/
def offsetOf (w : Written) : Except DateFault (Option Int) :=
  match w.zone with
  | none => .ok none
  | some (negative, hour, minute) =>
    let n := Text.Numeral.signed negative (digitsValue hour * 60 + digitsValue minute)
    if 1440 ≤ n.natAbs then .error (.offset n) else .ok (some n)

/-- Timestamp of its digits. -/
def ofWritten (w : Written) : Except DateFault Timestamp := do
  let offset ← offsetOf w
  let date ← dateOf w
  match w.time with
  | none => .ok { date }
  | some (hour, minute, second, fraction) =>
    let clock ← clockOf hour minute second
    .ok { date, time := some (clock, microseconds fraction), offset }

/-- Timestamp that makes up a text. -/
def read (cs : List Char) : Except Fault Timestamp :=
  match written? (dropFinalBreak cs) with
  | none => .error .notDate
  | some w => (ofWritten w).mapError .date

/-- Offset from universal time, as messages show it. -/
def offsetDisplay (minutes : Int) : String :=
  if minutes = 0 then "datetime.timezone.utc"
  else "datetime.timezone(" ++ durationText minutes ++ ")"

/-- Time of day with microseconds, as messages show it: the parts at the end that are zero are left
out, but not the hour and the minute. -/
def clockDisplay (c : Clock) (micros : Nat) : List String :=
  [toString c.hour, toString c.minute]
    ++ (if c.second = 0 ∧ micros = 0 then [] else [toString c.second])
    ++ if micros = 0 then [] else [toString micros]

/-- Text of a timestamp in messages. -/
def display (t : Timestamp) : String :=
  let date := [toString t.date.year, toString t.date.month, toString t.date.day]
  match t.time with
  | none => "datetime.date(" ++ ", ".intercalate date ++ ")"
  | some (clock, micros) =>
    let zone := t.offset.toList.map fun minutes => "tzinfo=" ++ offsetDisplay minutes
    "datetime.datetime(" ++ ", ".intercalate (date ++ clockDisplay clock micros ++ zone) ++ ")"

/-- Microseconds from the start of 1970, by the clock of the timestamp. -/
def micros (t : Timestamp) : Int :=
  let (clock, micros) := t.time.getD (⟨0, 0, 0⟩, 0)
  (t.date.toDays * Calendar.secondsPerDay + clock.toSeconds) * 1000000 + micros

/-- Timestamps that denote the same.  Two with an offset do if they are the same instant; all others
must agree in every part. -/
def same (a b : Timestamp) : Bool :=
  match a.offset, b.offset with
  | some m, some n => a.micros - m * 60000000 == b.micros - n * 60000000
  | none, none => a.date == b.date && a.time == b.time
  | _, _ => false

end Timestamp

end Finality.Yaml
