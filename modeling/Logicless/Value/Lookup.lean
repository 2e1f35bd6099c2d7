import Logicless.Text.Digits
import Logicless.Text.Quoted
import Logicless.Value.Call

namespace Logicless

/-- What a name stands for. `fresh` tells that a call built the value; `changes` has the calls that
may have changed cells on the way, the last one first. -/
structure Found where
  value : Value
  fresh : Bool
  changes : List Change

namespace Found

def nothing : Found := ⟨.text "", false, []⟩

def present (value : Value) : Found := ⟨value, false, []⟩

end Found

namespace Value

def invoked (value : Value) : Except Trouble Found :=
  match value.invoke [] with
  | .gives result => .ok ⟨result, !value.isCollectionPair, value.changes none⟩
  | .raises trouble => .error trouble
  | .renders .. => .error .misuse

def illegible (name : String) : Trouble :=
  .illegible ("invalid literal for int() with base 10: " ++ String.ofList (Text.quoted name.toList))

/-- The entry that a name stands for: its key is the name or, failing that, the number it spells. -/
def namedEntry (name : String) (entries : List (Value × Value)) : Except Trouble (Option Value) :=
  match findKey (.text name) entries with
  | some value => .ok (some value)
  | none =>
      match Text.readNumeral name.toList with
      | .word => .ok none
      | .unreadable => .error (illegible name)
      | .number index => .ok (findKey (.int (Int.ofNat index)) entries)

def lookupMapping (name : String) (entries : List (Value × Value)) : Except Trouble Found :=
  match namedEntry name entries with
  | .error trouble => .error trouble
  | .ok none | .ok (some .null) => .ok .nothing
  | .ok (some value) =>
      match value.isMethodPair with
      | .error trouble => .error trouble
      | .ok true => value.invoked
      | .ok false => .ok (.present value)

def lookupPosition (name : String) (count : Except Trouble Nat) (item : Nat → Option Value) :
    Except Trouble Found :=
  match Text.readNumeral name.toList, count with
  | .word, _ => .ok .nothing
  | .unreadable, _ => .error (illegible name)
  | .number _, .error trouble => .error trouble
  | .number index, .ok count =>
      match if index < count then item index else none with
      | none | some .null => .ok .nothing
      | some value => .ok (.present value)

def lookupCalendar (name : String) (thing : Calendar) : Found :=
  match if isPrivateName name then none else thing.member? name with
  | some (.number n) => .present (.int n)
  | some (.thing other) => .present (.calendar other)
  | some .method => .present (.builtin (.method name))
  | some .nothing | none => .nothing

def lookupMember (name : String) (data : ObjectData) : Except Trouble Found :=
  if name.isEmpty || isPrivateName name then .ok .nothing
  else
    match data.member name with
    | .error trouble => .error trouble
    | .ok none | .ok (some (.null, _)) => .ok .nothing
    | .ok (some (.function true method, fresh)) =>
        if method.arity.required = 0 then
          match method.answer with
          | .ok value => .ok ⟨value, true, []⟩
          | .error trouble => .error trouble
        else .ok ⟨.function true method, fresh, []⟩
    | .ok (some (value, fresh)) => .ok ⟨value, fresh, []⟩

def lookupStep (name : String) (context : Value) : Except Trouble Found :=
  match context.kind with
  | .error trouble => .error trouble
  | .ok .scalar | .ok .sealed | .ok .callable => .ok .nothing
  | .ok _ =>
      match context.plain with
      | .mapping entries => lookupMapping name entries
      | .list items | .tuple items =>
          lookupPosition name (.ok items.length) fun index => items[index]?
      | .range start stop step =>
          lookupPosition name (checkedCount (rangeLength start stop step)) fun index =>
            some (.int (start + Int.ofNat index * step))
      | .object data => lookupMember name data
      | .calendar thing => .ok (lookupCalendar name thing)
      | _ => .ok .nothing

/-- Steps of a dotted name, `current` being the step read so far, last character first. Where a step
would begin with a dot, the rest of the name is one step. -/
def stepsFrom (current : List Char) : List Char → List (List Char)
  | [] => [current.reverse]
  | c :: rest =>
      if c = '.' then
        if current.isEmpty then [c :: rest] else current.reverse :: stepsFrom [] rest
      else stepsFrom (c :: current) rest

def steps (name : String) : List String := (stepsFrom [] name.toList).map String.ofList

/-- Looks steps up one in the value of the other; a scalar or a class on the way ends in nothing. -/
def lookupSteps : List String → Value → Except Trouble Found
  | [], context => .ok (.present context)
  | [step], context => lookupStep step context
  | step :: rest, context =>
      match lookupStep step context with
      | .error trouble => .error trouble
      | .ok found =>
          match found.value.kind with
          | .error trouble => .error trouble
          | .ok .scalar | .ok .sealed => .ok .nothing
          | .ok _ =>
              match lookupSteps rest found.value with
              | .error trouble => .error trouble
              | .ok last =>
                  .ok ⟨last.value, found.fresh || last.fresh, last.changes ++ found.changes⟩

def lookup (name : String) (context : Value) : Except Trouble Found :=
  lookupSteps (steps name) context

end Value

end Logicless
