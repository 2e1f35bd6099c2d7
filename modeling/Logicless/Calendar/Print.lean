import Logicless.Calendar

namespace Logicless

namespace Calendar

def padded (width number : Nat) : String :=
  let digits := Nat.toDigits 10 number
  String.ofList (List.replicate (width - digits.length) '0' ++ digits)

def fractionText (microsecond : Nat) : String :=
  if microsecond == 0 then "" else "." ++ padded 6 microsecond

def dateText (date : Date) : String :=
  padded 4 date.year ++ "-" ++ padded 2 date.month ++ "-" ++ padded 2 date.day

def offsetText (offset : Int) : String :=
  let minutes := offset.natAbs / 60
  (if offset < 0 then "-" else "+") ++ padded 2 (minutes / 60) ++ ":" ++ padded 2 (minutes % 60)

def momentText (moment : Moment) : String :=
  dateText moment.date ++ " " ++ padded 2 moment.hour ++ ":" ++ padded 2 moment.minute ++ ":" ++
    padded 2 moment.second ++ fractionText moment.microsecond ++
    match moment.zone with
    | some clock => offsetText clock.offset
    | none => ""

def spanText (length : Int) : String :=
  let (days, seconds, microseconds) := spanParts length
  let dayText :=
    if days == 0 then ""
    else toString days ++ (if days.natAbs == 1 then " day, " else " days, ")
  dayText ++ toString (seconds / 3600) ++ ":" ++ padded 2 (seconds / 60 % 60) ++ ":" ++
    padded 2 (seconds % 60) ++ fractionText microseconds

def zoneText (zone : Zone) : String :=
  match zone.name with
  | some name => name
  | none => if zone.offset == 0 then "UTC" else "UTC" ++ offsetText zone.offset

def text : Calendar → String
  | .date day => dateText day
  | .moment time => momentText time
  | .span length => spanText length
  | .zone clock => zoneText clock

def callText (name : String) (arguments : List String) : String :=
  "datetime." ++ name ++ "(" ++ ", ".intercalate arguments ++ ")"

def spanShown (length : Int) : String :=
  let (days, seconds, microseconds) := spanParts length
  let part (name : String) (amount : Int) : List String :=
    if amount == 0 then [] else [name ++ "=" ++ toString amount]
  let parts := part "days" days ++ part "seconds" seconds ++ part "microseconds" microseconds
  callText "timedelta" (if parts.isEmpty then ["0"] else parts)

def zoneShown (zone : Zone) : String :=
  let span := spanShown (1000000 * zone.offset)
  match zone.name with
  | some name => callText "timezone" [span, String.ofList (Text.quoted name.toList)]
  | none => if zone.offset == 0 then "datetime.timezone.utc" else callText "timezone" [span]

def dateNumbers (date : Date) : List String :=
  [toString date.year, toString date.month, toString date.day]

/-- The parts of a moment that are written: seconds only if they or what follows them is not
zero. -/
def momentNumbers (moment : Moment) : List String :=
  let fine := if moment.microsecond == 0 then [] else [toString moment.microsecond]
  let seconds :=
    if moment.second == 0 && fine.isEmpty then [] else toString moment.second :: fine
  dateNumbers moment.date ++ toString moment.hour :: toString moment.minute :: seconds

def shown : Calendar → String
  | .date day => callText "date" (dateNumbers day)
  | .moment time =>
      callText "datetime" <| momentNumbers time ++
        match time.zone with
        | some clock => ["tzinfo=" ++ zoneShown clock]
        | none => []
  | .span length => spanShown length
  | .zone clock => zoneShown clock

end Calendar

end Logicless
