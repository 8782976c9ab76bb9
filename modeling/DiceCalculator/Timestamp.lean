/-!
# Dates and times

A date is a day of the calendar that is used today, carried back to the year 1. A moment is a time
of such a day, and it may say how far its clock is ahead of universal time. Two moments that do are
the same if they are the same point in time.
-/
namespace DiceCalculator

/-- A day of the calendar. -/
structure Date where
  year : Nat
  month : Nat
  day : Nat
  deriving DecidableEq, Repr

/-- A time of a day. The offset is in seconds. -/
structure Moment where
  date : Date
  hour : Nat
  minute : Nat
  second : Nat
  microsecond : Nat
  offset : Option Int
  deriving DecidableEq, Repr

/-- A part of a date or a time that is out of its range. -/
inductive TimeFault where
  | year (value : Nat)
  | month
  | day
  | hour
  | minute
  | second
  | offset (seconds : Int)
  deriving DecidableEq, Repr

def secondsPerDay : Nat := 86400

/-- A distance in time of some seconds, as messages show it: whole days, and seconds that are never
negative. -/
def describeSeconds (seconds : Int) : String :=
  let days := seconds.fdiv secondsPerDay
  let rest := seconds.fmod secondsPerDay
  let parts := (if days = 0 then [] else ["days=" ++ toString days]) ++
    (if rest = 0 then [] else ["seconds=" ++ toString rest])
  "datetime.timedelta(" ++ (if parts.isEmpty then "0" else ", ".intercalate parts) ++ ")"

def TimeFault.message : TimeFault → String
  | year value => "year " ++ toString value ++ " is out of range"
  | month => "month must be in 1..12"
  | day => "day is out of range for month"
  | hour => "hour must be in 0..23"
  | minute => "minute must be in 0..59"
  | second => "second must be in 0..59"
  | offset seconds =>
    "offset must be a timedelta strictly between -timedelta(hours=24) and timedelta(hours=24), " ++
      "not " ++ describeSeconds seconds ++ "."

namespace Date

def isLeapYear (year : Nat) : Bool := year % 4 == 0 && (year % 100 != 0 || year % 400 == 0)

def monthLength (year month : Nat) : Nat :=
  if month = 2 then (if isLeapYear year then 29 else 28)
  else if [4, 6, 9, 11].contains month then 30
  else 31

/-- The day is one of the calendar, or else its first part that is out of range. -/
def check (d : Date) : Except TimeFault Unit :=
  if d.year = 0 then .error (.year d.year)
  else if d.month = 0 || 12 < d.month then .error .month
  else if d.day = 0 || monthLength d.year d.month < d.day then .error .day
  else .ok ()

/-- The number of days from the day before the first year up to this day. -/
def ordinal (d : Date) : Nat :=
  let years := d.year - 1
  let months := (List.range (d.month - 1)).foldl (fun n m => n + monthLength d.year (m + 1)) 0
  365 * years + years / 4 - years / 100 + years / 400 + months + d.day

def parts (d : Date) : List Nat := [d.year, d.month, d.day]

def describe (d : Date) : String :=
  "datetime.date(" ++ ", ".intercalate (d.parts.map toString) ++ ")"

end Date

namespace Moment

/-- The time is one of its day, or else its first part that is out of range. A clock is less than a
day ahead of universal time or behind it. -/
def check (m : Moment) : Except TimeFault Unit := do
  match m.offset with
  | some seconds =>
    if (secondsPerDay : Int) ≤ seconds || seconds ≤ -(secondsPerDay : Int) then
      throw (.offset seconds)
  | none => pure ()
  m.date.check
  if 23 < m.hour then throw .hour
  if 59 < m.minute then throw .minute
  if 59 < m.second then throw .second

def ticks (m : Moment) : Int :=
  (((m.date.ordinal * 24 + m.hour) * 60 + m.minute) * 60 + m.second : Nat) * 1000000 +
    m.microsecond

/-- Two moments are the same: the same point in time, or the same reading of clocks that are not
compared with any other. -/
def same (a b : Moment) : Bool :=
  match a.offset, b.offset with
  | none, none => a.ticks == b.ticks
  | some x, some y => a.ticks - x * 1000000 == b.ticks - y * 1000000
  | _, _ => false

/-- The moment as messages show it: seconds are left out if there are none, and so are
microseconds. -/
def describe (m : Moment) : String :=
  let fine := if m.microsecond ≠ 0 then [m.second, m.microsecond]
    else if m.second ≠ 0 then [m.second]
    else []
  let zone := match m.offset with
    | none => []
    | some 0 => ["tzinfo=datetime.timezone.utc"]
    | some seconds => ["tzinfo=datetime.timezone(" ++ describeSeconds seconds ++ ")"]
  "datetime.datetime(" ++
    ", ".intercalate ((m.date.parts ++ [m.hour, m.minute] ++ fine).map toString ++ zone) ++ ")"

end Moment

end DiceCalculator
