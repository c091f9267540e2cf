import Finality.Calendar
import Finality.Decimal.Arithmetic
import Finality.Notice

/-! # Log lines

The written form of a log record: time, level, source and message.  Times are those of universal
time, to the second.  With colours, each of the first three parts has its colour; the colour of a
level tells its importance.

A time far from the present has no written form: seconds have 64 bits with a sign, years are counted
from 1900 in 32 bits, and a written year has 32 bits itself (`TimeFault`). -/

namespace Finality.Log

/-- A log record. -/
structure Record where
  /-- Seconds from the start of 1970. -/
  time : Int
  level : Int
  source : String
  message : String
deriving DecidableEq, Repr

/-- Why a time has no written form. -/
inductive TimeFault where
  /-- It is no number. -/
  | undefined
  /-- Its seconds have too many bits. -/
  | secondsTooLarge
  /-- Its year, counted from 1900, has too many bits. -/
  | notBroken
  /-- Its year has too many bits. -/
  | yearTooLarge
deriving DecidableEq, Repr

/-- Wording of a time fault. -/
def TimeFault.message : TimeFault → String
  | .undefined => "Invalid value NaN (not a number)"
  | .secondsTooLarge => "timestamp out of range for platform time_t"
  | .notBroken => "[Errno 75] Value too large for defined data type"
  | .yearTooLarge => "signed integer is greater than maximum"

/-- Whole seconds of a time that is given as a floating point number. -/
def wholeSeconds (x : Decimal.Binary64) : Except TimeFault Int :=
  match x, x.floor? with
  | _, some n => .ok n
  | .nan, none => .error .undefined
  | _, none => .error .secondsTooLarge

/-- How records are written, and which. -/
structure Style where
  verbose : Bool := false
  colored : Bool := true
deriving DecidableEq, Repr

/-- Number of a level. -/
def levelNumber : Level → Int
  | .debug => 10
  | .info => 20
  | .error => 40

/-- Least level of the records that are written. -/
def Style.threshold (style : Style) : Level := if style.verbose then .debug else .info

/-- Whether notices of a level are written. -/
def Style.shows (style : Style) (level : Level) : Bool :=
  levelNumber style.threshold ≤ levelNumber level

/-- Names of levels, with their colours if they have one. -/
def levels : List (Int × String × Option String) := [
  (0, "NOTSET", none),
  (10, "DEBUG", some "38;5;244"),
  (20, "INFO", some "38;5;40"),
  (30, "WARNING", some "38;5;220"),
  (40, "ERROR", some "38;5;196"),
  (50, "CRITICAL", some "38;5;196;1")]

/-- Name of a level; one without a name has its number. -/
def levelName (level : Int) : String :=
  match levels.lookup level with
  | some (name, _) => name
  | none => "Level " ++ toString level

/-- Colour of a level; no colour is the one that ends all others. -/
def levelColor (level : Int) : String := ((levels.lookup level).bind (·.2)).getD "0"

/-- Colour of times. -/
def timeColor : String := "38;5;51"

/-- Colour of sources. -/
def sourceColor : String := "38;5;39"

/-- Control sequence that selects a colour. -/
def select (color : String) : String := "\x1b[" ++ color ++ "m"

/-- Text in a colour, in a style that has colours. -/
def Style.paint (style : Style) (color text : String) : String :=
  if style.colored then select color ++ text ++ select "0" else text

/-- Least width of the names of levels. -/
def levelWidth : Nat := 8

/-- Integers of some number of bits, one of them for the sign. -/
def fitsBits (bits : Nat) (n : Int) : Bool :=
  -(Nat.pow 2 (bits - 1) : Int) ≤ n && n < (Nat.pow 2 (bits - 1) : Int)

/-- Date and time of day. -/
def timeText (seconds : Int) : Except TimeFault String :=
  if !fitsBits 64 seconds then .error .secondsTooLarge
  else
    let (date, clock) := Calendar.ofUnix seconds
    if !fitsBits 32 (date.year - 1900) then .error .notBroken
    else if !fitsBits 32 date.year then .error .yearTooLarge
    else .ok (date.text 1 ++ " " ++ clock.text)

/-- Left aligned text; one that is wider than its column is written in full. -/
def alignLeft (width : Nat) (s : String) : String :=
  s ++ String.ofList (List.replicate (width - s.length) ' ')

/-- Line of a record. -/
def Style.line (style : Style) (r : Record) : Except TimeFault String := do
  let time ← timeText r.time
  .ok (style.paint timeColor time ++ " "
    ++ style.paint (levelColor r.level) (alignLeft levelWidth (levelName r.level)) ++ " "
    ++ style.paint sourceColor r.source ++ ": " ++ r.message)

/-- Record of a notice. -/
def Record.ofNotice (time : Int) (n : Notice) : Record where
  time := time
  level := levelNumber n.level
  source := n.source
  message := n.message

end Finality.Log
