import Logicless.Text.Quoted

namespace Logicless

/-!
Dates, moments, spans of time and time zones.

Days are counted in the Gregorian calendar, which is taken to hold in the years 1 to 9999. A moment
may say how far its clock is ahead of universal time; `Moment.instant` is what two such moments are
compared by.
-/

structure Date where
  year : Nat
  month : Nat
  day : Nat
  deriving Repr, DecidableEq

structure Zone where
  /-- In seconds. -/
  offset : Int
  name : Option String
  deriving Repr, DecidableEq

structure Moment where
  date : Date
  hour : Nat
  minute : Nat
  second : Nat
  microsecond : Nat
  zone : Option Zone
  deriving Repr, DecidableEq

inductive Calendar where
  | date (date : Date)
  | moment (moment : Moment)
  /-- A span of time, in microseconds. -/
  | span (length : Int)
  | zone (zone : Zone)
  deriving Repr, DecidableEq

inductive CalendarFlaw where
  | badYear (year : Nat)
  | badMonth
  | badDay
  | badHour
  | badMinute
  | badSecond
  | badOffset (shown : String)
  | overflow
  deriving Repr, DecidableEq

def CalendarFlaw.message : CalendarFlaw → String
  | .badYear year => "year " ++ toString year ++ " is out of range"
  | .badMonth => "month must be in 1..12"
  | .badDay => "day is out of range for month"
  | .badHour => "hour must be in 0..23"
  | .badMinute => "minute must be in 0..59"
  | .badSecond => "second must be in 0..59"
  | .badOffset shown =>
      "offset must be a timedelta strictly between -timedelta(hours=24) and " ++
        "timedelta(hours=24), not " ++ shown ++ "."
  | .overflow => "date value out of range"

namespace Date

def isLeap (year : Nat) : Bool := year % 4 == 0 && (year % 100 != 0 || year % 400 == 0)

def monthLength (year month : Nat) : Nat :=
  if month == 2 then if isLeap year then 29 else 28
  else if [4, 6, 9, 11].contains month then 30
  else 31

def make (year month day : Nat) : Except CalendarFlaw Date :=
  if year == 0 || 9999 < year then .error (.badYear year)
  else if month == 0 || 12 < month then .error .badMonth
  else if day == 0 || monthLength year month < day then .error .badDay
  else .ok ⟨year, month, day⟩

def first : Date := ⟨1, 1, 1⟩

def last : Date := ⟨9999, 12, 31⟩

def next (date : Date) : Date :=
  if date.day < monthLength date.year date.month then { date with day := date.day + 1 }
  else if date.month < 12 then ⟨date.year, date.month + 1, 1⟩
  else ⟨date.year + 1, 1, 1⟩

def daysBefore (year month : Nat) : Nat :=
  (List.range (month - 1)).foldl (fun days earlier => days + monthLength year (earlier + 1)) 0

/-- The days since a fixed day. -/
def dayNumber (date : Date) : Nat :=
  let before := date.year - 1
  365 * before + before / 4 - before / 100 + before / 400 + daysBefore date.year date.month +
    date.day

end Date

namespace Moment

def make (date : Date) (hour minute second microsecond : Nat) (zone : Option Zone) :
    Except CalendarFlaw Moment :=
  if 23 < hour then .error .badHour
  else if 59 < minute then .error .badMinute
  else if 59 < second then .error .badSecond
  else .ok ⟨date, hour, minute, second, microsecond, zone⟩

def first : Moment := ⟨.first, 0, 0, 0, 0, none⟩

def last : Moment := ⟨.last, 23, 59, 59, 999999, none⟩

def nextSecond (moment : Moment) : Except CalendarFlaw Moment :=
  if moment.second < 59 then .ok { moment with second := moment.second + 1 }
  else if moment.minute < 59 then .ok { moment with second := 0, minute := moment.minute + 1 }
  else if moment.hour < 23 then
    .ok { moment with second := 0, minute := 0, hour := moment.hour + 1 }
  else if moment.date = .last then .error .overflow
  else .ok { moment with second := 0, minute := 0, hour := 0, date := moment.date.next }

/-- The microseconds of universal time since a fixed day; a moment without a zone is taken to be
universal time. -/
def instant (moment : Moment) : Int :=
  let seconds := 3600 * moment.hour + 60 * moment.minute + moment.second
  let offset :=
    match moment.zone with
    | some zone => zone.offset
    | none => 0
  1000000 * (86400 * Int.ofNat moment.date.dayNumber + Int.ofNat seconds - offset) +
    Int.ofNat moment.microsecond

end Moment

namespace Zone

def universal : Zone := ⟨0, none⟩

/-- The zone of an offset, which must be less than a day. -/
def make (offset : Int) (name : String) (shown : String) : Except CalendarFlaw Zone :=
  if -86400 < offset && offset < 86400 then .ok ⟨offset, some name⟩ else .error (.badOffset shown)

end Zone

namespace Calendar

/-- Whether two things of the calendar are equal. A moment with a zone never equals one without. -/
def same : Calendar → Calendar → Bool
  | .moment first, .moment second =>
      first.zone.isSome == second.zone.isSome && first.instant == second.instant
  | .zone first, .zone second => first.offset == second.offset
  | first, second => first == second

/-- The day, the second of the day and the microsecond that a span of time ends on. -/
def spanParts (length : Int) : Int × Nat × Nat :=
  let seconds := Int.fdiv length 1000000
  (Int.fdiv seconds 86400, (Int.fmod seconds 86400).toNat, (Int.fmod length 1000000).toNat)

/-- Whether a thing of the calendar counts as true: all but the empty span do. -/
def truthy : Calendar → Bool
  | .span length => length != 0
  | _ => true

end Calendar

end Logicless
