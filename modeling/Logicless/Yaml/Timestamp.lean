import Logicless.Calendar.Print
import Logicless.Decimal.Reading
import Logicless.Yaml.Problem

namespace Logicless.Yaml

/-- A zone as it is written, and its offset in seconds. -/
structure ZoneText where
  text : List Char
  offset : Int
  deriving Repr, DecidableEq

structure ClockText where
  hour : Nat
  minute : Nat
  second : Nat
  fraction : List Char
  zone : Option ZoneText
  deriving Repr, DecidableEq

structure Timestamp where
  year : Nat
  month : Nat
  day : Nat
  isPadded : Bool
  clock : Option ClockText
  deriving Repr, DecidableEq

def withoutLastBreak (text : List Char) : List Char :=
  match text.reverse with
  | '\n' :: before => before.reverse
  | _ => text

namespace Timestamp

def digits? (least most : Nat) (text : List Char) : Option (List Char × List Char) :=
  let digits := (text.take most).takeWhile Char.isDigit
  if digits.length < least then none else some (digits, text.drop digits.length)

/-- The text behind a character that must come first. -/
def behind? (c : Char) : List Char → Option (List Char)
  | first :: rest => if first = c then some rest else none
  | [] => none

def isMargin (c : Char) : Bool := c == ' ' || c == '\t'

def behindDate? : List Char → Option (List Char)
  | c :: rest =>
      if c = 'T' || c = 't' then some rest
      else if isMargin c then some (rest.dropWhile isMargin)
      else none
  | [] => none

def zone? (text : List Char) : Option ZoneText :=
  match text with
  | ['Z'] => some ⟨text, 0⟩
  | sign :: rest => do
      if sign != '+' && sign != '-' then none
      let (hours, rest) ← digits? 1 2 rest
      let (minutes, rest) ←
        match rest with
        | ':' :: rest => digits? 2 2 rest
        | rest => some (['0'], rest)
      if !rest.isEmpty then none
      let size := 3600 * Decimal.readNat hours + 60 * Decimal.readNat minutes
      return ⟨text, if sign == '-' then -(Int.ofNat size) else Int.ofNat size⟩
  | [] => none

def clock? (text : List Char) : Option ClockText := do
  let (hour, text) ← digits? 1 2 (← behindDate? text)
  let (minute, text) ← digits? 2 2 (← behind? ':' text)
  let (second, text) ← digits? 2 2 (← behind? ':' text)
  let (fraction, text) :=
    match text with
    | '.' :: rest => Decimal.spanDigits rest
    | rest => ([], rest)
  let zone ← if text.isEmpty then some none else (zone? (text.dropWhile isMargin)).map some
  return ⟨Decimal.readNat hour, Decimal.readNat minute, Decimal.readNat second, fraction, zone⟩

def read? (text : List Char) : Option Timestamp := do
  let (year, text) ← digits? 4 4 text
  let (month, text) ← digits? 1 2 (← behind? '-' text)
  let (day, text) ← digits? 1 2 (← behind? '-' text)
  let clock ← if text.isEmpty then some none else (clock? text).map some
  return ⟨Decimal.readNat year, Decimal.readNat month, Decimal.readNat day,
    month.length = 2 && day.length = 2, clock⟩

/-- Whether a word is a timestamp without a tag to say so: a mere date must be padded. -/
def isWord (text : List Char) : Bool :=
  match read? text with
  | some stamp => stamp.isPadded || stamp.clock.isSome
  | none => false

/-- The microseconds that a fraction of a second comes to, up to a million. -/
def microseconds (fraction : List Char) : Nat :=
  let kept := Decimal.readNat ((fraction ++ List.replicate 6 '0').take 6)
  match fraction.drop 6 with
  | c :: _ => if '4' < c then kept + 1 else kept
  | [] => kept

def zone (text : ZoneText) : Except CalendarFlaw Zone :=
  Zone.make text.offset (String.ofList text.text) (Calendar.spanShown (1000000 * text.offset))

def thing (stamp : Timestamp) : Except CalendarFlaw Calendar := do
  match stamp.clock with
  | none => return .date (← Date.make stamp.year stamp.month stamp.day)
  | some clock =>
      let zone ← clock.zone.mapM zone
      let date ← Date.make stamp.year stamp.month stamp.day
      let fine := microseconds clock.fraction
      let moment ← Moment.make date clock.hour clock.minute clock.second (fine % 1000000) zone
      return .moment (← if fine < 1000000 then pure moment else moment.nextSecond)

def value (text : List Char) : Except Problem Value := do
  let stamp ← orMalformed (read? text)
  match stamp.thing with
  | .ok thing => return .calendar thing
  | .error .overflow => throw (.trouble (.overflow CalendarFlaw.overflow.message))
  | .error flaw => throw (.trouble (.illegible flaw.message))

end Timestamp

end Logicless.Yaml
