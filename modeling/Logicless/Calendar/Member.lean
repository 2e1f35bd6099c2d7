import Logicless.Calendar

namespace Logicless

inductive CalendarMember where
  | number (number : Int)
  | thing (thing : Calendar)
  | nothing
  | method
  deriving Repr, DecidableEq

namespace Calendar

/-- The longest span of time, in whole days. -/
def longestDays : Int := 999999999

def spanLeast : Int := -(longestDays * 86400000000)

def spanMost : Int := (longestDays + 1) * 86400000000 - 1

def dateMethods : List String :=
  ["ctime", "fromisocalendar", "fromisoformat", "fromordinal", "fromtimestamp", "isocalendar",
   "isoformat", "isoweekday", "replace", "strftime", "timetuple", "today", "toordinal", "weekday"]

def momentMethods : List String :=
  dateMethods ++
    ["astimezone", "combine", "date", "dst", "now", "strptime", "time", "timestamp", "timetz",
     "tzname", "utcfromtimestamp", "utcnow", "utcoffset", "utctimetuple"]

def dateMember (date : Date) : String → Option CalendarMember
  | "year" => some (.number date.year)
  | "month" => some (.number date.month)
  | "day" => some (.number date.day)
  | "min" => some (.thing (.date .first))
  | "max" => some (.thing (.date .last))
  | "resolution" => some (.thing (.span 86400000000))
  | name => if dateMethods.contains name then some .method else none

def momentMember (moment : Moment) : String → Option CalendarMember
  | "year" => some (.number moment.date.year)
  | "month" => some (.number moment.date.month)
  | "day" => some (.number moment.date.day)
  | "hour" => some (.number moment.hour)
  | "minute" => some (.number moment.minute)
  | "second" => some (.number moment.second)
  | "microsecond" => some (.number moment.microsecond)
  | "fold" => some (.number 0)
  | "tzinfo" =>
      match moment.zone with
      | some clock => some (.thing (.zone clock))
      | none => some .nothing
  | "min" => some (.thing (.moment .first))
  | "max" => some (.thing (.moment .last))
  | "resolution" => some (.thing (.span 1))
  | name => if momentMethods.contains name then some .method else none

def spanMember (length : Int) : String → Option CalendarMember
  | "days" => some (.number (spanParts length).1)
  | "seconds" => some (.number (spanParts length).2.1)
  | "microseconds" => some (.number (spanParts length).2.2)
  | "min" => some (.thing (.span spanLeast))
  | "max" => some (.thing (.span spanMost))
  | "resolution" => some (.thing (.span 1))
  | name => if name == "total_seconds" then some .method else none

def zoneMember : String → Option CalendarMember
  | "utc" => some (.thing (.zone .universal))
  | "min" => some (.thing (.zone ⟨-86340, none⟩))
  | "max" => some (.thing (.zone ⟨86340, none⟩))
  | name =>
      if ["dst", "fromutc", "tzname", "utcoffset"].contains name then some .method else none

def member? : Calendar → String → Option CalendarMember
  | .date day, name => dateMember day name
  | .moment time, name => momentMember time name
  | .span length, name => spanMember length name
  | .zone _, name => zoneMember name

end Calendar

end Logicless
