import SemanticHighlight.Text.Basic

/-!
# Dates and moments

A configuration document may hold dates and points in time. Their parts are checked in a fixed
order, so that a date with two faults is refused for the first of them.
-/

namespace SemanticHighlight

structure Date where
  year : Nat
  month : Nat
  day : Nat
  deriving DecidableEq, Repr

/-- A time of day on a date. The offset from universal time is in minutes; without one the moment
is that of an unnamed place. -/
structure Moment where
  date : Date
  hour : Nat
  minute : Nat
  second : Nat
  microsecond : Nat
  offset : Option Int
  deriving DecidableEq, Repr

inductive CalendarProblem where
  | year (year : Nat)
  | month
  | day
  | hour
  | minute
  | second
  | offset (minutes : Int)
  deriving DecidableEq, Repr

namespace Date

def isLeap (year : Nat) : Bool := year % 4 = 0 && (year % 100 ≠ 0 || year % 400 = 0)

def daysIn (year month : Nat) : Nat :=
  if month = 2 then (if isLeap year then 29 else 28)
  else if month ∈ [4, 6, 9, 11] then 30
  else 31

def check (d : Date) : Except CalendarProblem Unit :=
  if d.year < 1 ∨ 9999 < d.year then .error (.year d.year)
  else if d.month < 1 ∨ 12 < d.month then .error .month
  else if d.day < 1 ∨ daysIn d.year d.month < d.day then .error .day
  else .ok ()

/-- The number of a date if all days are counted. -/
def dayNumber (d : Date) : Nat :=
  let years := d.year - 1
  let months := (List.range (d.month - 1)).foldl (fun days m => days + daysIn d.year (m + 1)) 0
  365 * years + years / 4 - years / 100 + years / 400 + months + d.day

def padded (width n : Nat) : Text :=
  let digits := Text.ofNat n
  List.replicate (width - digits.length) ('0' : CodePoint) ++ digits

def toText (d : Date) : Text :=
  padded 4 d.year ++ "-" ++ padded 2 d.month ++ "-" ++ padded 2 d.day

end Date

namespace Moment

/-- The microseconds up to a moment, in universal time if its offset is known. -/
def count (m : Moment) : Int :=
  let minutes : Int := ((m.date.dayNumber * 24 + m.hour) * 60 + m.minute : Nat)
  (60 * (minutes - m.offset.getD 0) + m.second) * 1000000 + m.microsecond

/-- Whether it is known of both moments, or of neither, where they are counted from. -/
def isComparable (m n : Moment) : Bool := m.offset.isSome == n.offset.isSome

def isSame (m n : Moment) : Bool := isComparable m n && m.count == n.count

/-- An offset stays below a day in either direction; it is checked before the rest. -/
def check (m : Moment) : Except CalendarProblem Unit := do
  if let some minutes := m.offset then
    if 1440 ≤ minutes.natAbs then throw (.offset minutes)
  m.date.check
  if 23 < m.hour then throw .hour
  if 59 < m.minute then throw .minute
  if 59 < m.second then throw .second

def toText (m : Moment) : Text :=
  let fraction : Text := if m.microsecond = 0 then "" else "." ++ Date.padded 6 m.microsecond
  let zone : Text :=
    match m.offset with
    | none => ""
    | some minutes =>
      let sign : Text := if minutes < 0 then "-" else "+"
      sign ++ Date.padded 2 (minutes.natAbs / 60) ++ ":" ++ Date.padded 2 (minutes.natAbs % 60)
  m.date.toText ++ " " ++ Date.padded 2 m.hour ++ ":" ++ Date.padded 2 m.minute ++ ":" ++
    Date.padded 2 m.second ++ fraction ++ zone

end Moment

/-- A stretch of minutes in whole days and the seconds left over, as a literal. -/
def durationLiteral (minutes : Int) : Text :=
  let days := minutes / 1440
  let seconds := minutes % 1440 * 60
  let parts : List Text :=
    (if days = 0 then [] else ["days=" ++ Text.ofInt days]) ++
      (if seconds = 0 then [] else ["seconds=" ++ Text.ofInt seconds])
  let inside : Text := if parts = [] then "0" else Text.join ", " parts
  "datetime.timedelta(" ++ inside ++ ")"

namespace CalendarProblem

def message : CalendarProblem → Text
  | year y => "year " ++ Text.ofNat y ++ " is out of range"
  | month => "month must be in 1..12"
  | day => "day is out of range for month"
  | hour => "hour must be in 0..23"
  | minute => "minute must be in 0..59"
  | second => "second must be in 0..59"
  | offset minutes =>
    "offset must be a timedelta strictly between -timedelta(hours=24) and timedelta(hours=24), not " ++
      durationLiteral minutes ++ "."

end CalendarProblem

namespace Date

def literal (d : Date) : Text :=
  "datetime.date(" ++ Text.join ", " ([d.year, d.month, d.day].map Text.ofNat) ++ ")"

end Date

namespace Moment

/-- Seconds and microseconds are left out from the right while they are zero. -/
def literal (m : Moment) : Text :=
  let exact :=
    if m.microsecond ≠ 0 then [m.second, m.microsecond] else if m.second ≠ 0 then [m.second] else []
  let parts := [m.date.year, m.date.month, m.date.day, m.hour, m.minute] ++ exact
  let zone : Text :=
    match m.offset with
    | none => ""
    | some 0 => ", tzinfo=datetime.timezone.utc"
    | some minutes => ", tzinfo=datetime.timezone(" ++ durationLiteral minutes ++ ")"
  "datetime.datetime(" ++ Text.join ", " (parts.map Text.ofNat) ++ zone ++ ")"

end Moment

end SemanticHighlight
