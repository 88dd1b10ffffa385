/-!
# Dates and times

A date of the calendar that is used today, carried back to the year one, and a time of day with an optional
distance from universal time. Both are checked part by part, in the order in which they are written, once the distance
is known to be less than a day.
-/

namespace Y86.Document

/-- Which part of a date or time is out of range. -/
inductive MomentError where
  | year (year : Nat)
  | month
  | day
  | hour
  | minute
  | second
  /-- The distance from universal time, in minutes, is a day or more. -/
  | offset (minutes : Int)
  deriving DecidableEq, Repr

/-- How many minutes a day has. -/
abbrev dayMinutes : Int := 1440

/-- A stretch of time, in minutes, as whole days and the seconds that remain. -/
def stretchText (minutes : Int) : String :=
  let days := minutes.fdiv dayMinutes
  let seconds := (minutes - days * dayMinutes) * 60
  let parts := (if days = 0 then [] else ["days=" ++ toString days])
    ++ (if seconds = 0 then [] else ["seconds=" ++ toString seconds])
  "datetime.timedelta(" ++ (if parts.isEmpty then "0" else ", ".intercalate parts) ++ ")"

/-- The wording of an error. -/
def MomentError.message : MomentError → String
  | year y => "year " ++ toString y ++ " is out of range"
  | month => "month must be in 1..12"
  | day => "day is out of range for month"
  | hour => "hour must be in 0..23"
  | minute => "minute must be in 0..59"
  | second => "second must be in 0..59"
  | offset minutes =>
    "offset must be a timedelta strictly between -timedelta(hours=24) and timedelta(hours=24), not "
      ++ stretchText minutes ++ "."

structure Date where
  /-- The year, from one on. -/
  year : Nat
  month : Nat
  /-- The day of the month, from one on. -/
  day : Nat
  deriving DecidableEq, Repr

namespace Date

/-- Whether a year has 366 days. -/
def isLeap (year : Nat) : Bool := year % 4 == 0 && (year % 100 != 0 || year % 400 == 0)

/-- The number of days of a month. -/
def daysIn (year month : Nat) : Nat :=
  if month = 2 then if isLeap year then 29 else 28
  else if month ∈ [4, 6, 9, 11] then 30 else 31

def make (year month day : Nat) : Except MomentError Date :=
  if year < 1 ∨ 9999 < year then .error (.year year)
  else if month < 1 ∨ 12 < month then .error .month
  else if day < 1 ∨ daysIn year month < day then .error .day
  else .ok { year, month, day }

/-- The number of days of the months before a month. -/
def daysBefore (year month : Nat) : Nat :=
  ((List.range month).filter (1 ≤ ·)).foldl (fun n m => n + daysIn year m) 0

/-- The number of days since the beginning of the year zero. -/
def ordinal (d : Date) : Nat :=
  let before := d.year - 1
  365 * d.year + before / 4 - before / 100 + before / 400 + daysBefore d.year d.month + d.day

end Date

structure TimeOfDay where
  hour : Nat
  minute : Nat
  second : Nat
  /-- The millionths of a second. -/
  microsecond : Nat := 0
  /-- How many minutes the time is ahead of universal time, if that is known. -/
  offset : Option Int := none
  deriving DecidableEq, Repr

namespace TimeOfDay

/-- The minutes since the beginning of the day at universal time, which can be negative. -/
def universalMinutes (t : TimeOfDay) : Int := (60 * t.hour + t.minute : Nat) - t.offset.getD 0

/-- The time with parts that have been checked. -/
def check (t : TimeOfDay) : Except MomentError TimeOfDay :=
  if 23 < t.hour then .error .hour
  else if 59 < t.minute then .error .minute
  else if 59 < t.second then .error .second
  else .ok t

end TimeOfDay

/-- A date with a time of day. -/
structure Moment where
  date : Date
  time : TimeOfDay
  deriving DecidableEq, Repr

namespace Moment

/-- The moment with parts that have yet to be checked. -/
def make (year month day : Nat) (time : TimeOfDay) : Except MomentError Moment := do
  match time.offset with
  | some m => if dayMinutes ≤ m.natAbs then throw (.offset m)
  | none => pure ()
  let date ← Date.make year month day
  return { date, time := ← time.check }

/-- Whether two moments are one. Where the distance from universal time is known, it does not matter which it is. -/
def isSame (a b : Moment) : Bool :=
  a.time.offset.isSome == b.time.offset.isSome
    && dayMinutes * a.date.ordinal + a.time.universalMinutes == dayMinutes * b.date.ordinal + b.time.universalMinutes
    && a.time.second == b.time.second && a.time.microsecond == b.time.microsecond

end Moment

/-- A number with zeros in front, up to a width. -/
def padded (width n : Nat) : String :=
  let digits := toString n
  String.ofList (List.replicate (width - digits.length) '0') ++ digits

/-- A date as text. -/
def Date.text (d : Date) : String := padded 4 d.year ++ "-" ++ padded 2 d.month ++ "-" ++ padded 2 d.day

/-- A time of day as text. -/
def TimeOfDay.text (t : TimeOfDay) : String :=
  let clock := padded 2 t.hour ++ ":" ++ padded 2 t.minute ++ ":" ++ padded 2 t.second
  let part := if t.microsecond = 0 then "" else "." ++ padded 6 t.microsecond
  let offset := match t.offset with
    | none => ""
    | some m =>
      (if m < 0 then "-" else "+") ++ padded 2 (m.natAbs / 60) ++ ":" ++ padded 2 (m.natAbs % 60)
  clock ++ part ++ offset

/-- The parts of a time of day that are listed: seconds and their fractions only as far as there are any. -/
def TimeOfDay.parts (t : TimeOfDay) : List Nat :=
  if t.microsecond ≠ 0 then [t.hour, t.minute, t.second, t.microsecond]
  else if t.second ≠ 0 then [t.hour, t.minute, t.second]
  else [t.hour, t.minute]

/-- A moment as text. -/
def Moment.text (m : Moment) : String := m.date.text ++ " " ++ m.time.text

end Y86.Document
