import Logicless.Calendar.Member
import Logicless.Value.Key
import Logicless.Value.Knot

namespace Logicless

inductive Kind where
  | scalar
  | list
  | map
  | callable
  | object
  /-- Classes and built-in functions, which are never called. -/
  | sealed
  deriving Repr, DecidableEq

def Kind.label : Kind → String
  | .scalar => "scalar"
  | .list => "list"
  | .map => "map"
  | .callable => "callable"
  | .object => "object"
  | .sealed => "opaque"

def isPrivateName (name : String) : Bool :=
  match name.toList with
  | '_' :: '_' :: _ => true
  | _ => false

/-- What a function gives without arguments. A member that a property finds missing is missing. -/
def Function.answer : Function → Except Trouble Value
  | .mk arity body =>
      if arity.accepts 0 then
        match body with
        | .gives value => .ok value
        | .raises trouble => .error trouble
        | .answers _ | .forwards _ => .error .misuse
      else .error .misuse

/-- What a function gives of a name. -/
def Function.about (name : String) : Function → Except Trouble Value
  | .mk arity body =>
      if arity.accepts 1 then
        match body with
        | .gives value => .ok value
        | .raises trouble => .error trouble
        | .forwards _ => .error .misuse
        | .answers callback =>
            match callback name with
            | .gives value => .ok value
            | .raises trouble => .error trouble
            | .renders .. => .error .misuse
      else .error .misuse

def findMember (name : String) : List (String × Member) → Option Member
  | [] => none
  | (other, member) :: rest => if other = name then some member else findMember name rest

/-- What an object answers for a member that is missing. -/
def ObjectData.missing (data : ObjectData) (name : String) :
    Except Trouble (Option (Value × Bool)) :=
  match data.fallback with
  | none => .ok none
  | some function =>
      match function.about name with
      | .ok value => .ok (some (value, true))
      | .error .missingMember => .ok none
      | .error trouble => .error trouble

/-- The member of a name, and whether it was computed. -/
def ObjectData.member (data : ObjectData) (name : String) :
    Except Trouble (Option (Value × Bool)) :=
  match findMember name data.members with
  | none => data.missing name
  | some (.attribute value) => .ok (some (value, false))
  | some (.property function) =>
      match function.answer with
      | .ok value => .ok (some (value, true))
      | .error .missingMember => data.missing name
      | .error trouble => .error trouble

namespace Value

def mappingMethods : List String :=
  ["clear", "copy", "fromkeys", "get", "items", "keys", "pop", "popitem", "setdefault", "update",
   "values"]

def listMethods : List String :=
  ["append", "clear", "copy", "count", "extend", "index", "insert", "pop", "remove", "reverse",
   "sort"]

def setMethods : List String :=
  ["add", "clear", "copy", "difference", "difference_update", "discard", "intersection",
   "intersection_update", "isdisjoint", "issubset", "issuperset", "pop", "remove",
   "symmetric_difference", "symmetric_difference_update", "union", "update"]

def methodNames (value : Value) : List String :=
  match value.opened with
  | .mapping _ => mappingMethods
  | .ordered _ => "insert" :: "move_to_end" :: mappingMethods
  | .list _ => listMethods
  | .set _ => setMethods
  | .tuple _ | .range .. => ["count", "index"]
  | .portion .keys _ | .portion .items _ => ["isdisjoint"]
  | _ => []

def hasCalendarMethod (value : Value) (name : String) : Bool :=
  match value with
  | .calendar thing => thing.member? name == some .method
  | _ => false

def isType : Value → Bool
  | .type _ => true
  | _ => false

def isMethodPair (value : Value) : Except Trouble Bool :=
  match value.opened with
  | .tuple [target, .text name] =>
      if isPrivateName name || target.isScalar || target.isType then .ok false
      else if target.methodNames.contains name || target.hasCalendarMethod name then .ok true
      else
        match target with
        | .object data =>
            match data.member name with
            | .ok (some (member, _)) => .ok member.isCallable
            | .ok none => .ok false
            | .error trouble => .error trouble
        | _ => .ok false
  | _ => .ok false

def kind (value : Value) : Except Trouble Kind :=
  match value.plain with
  | .null | .bool _ | .int _ | .float _ | .text _ | .bytes _ => .ok .scalar
  | .type _ | .builtin _ => .ok .sealed
  | .tuple _ =>
      match value.isMethodPair with
      | .ok true => .ok .callable
      | .ok false => .ok .list
      | .error trouble => .error trouble
  | .mapping entries | .ordered entries => .ok (if isIndexed entries then .list else .map)
  | .function .. => .ok .callable
  | .object data => .ok (if data.call.isSome then .callable else .object)
  | .calendar _ => .ok .object
  | .list _ | .set _ | .range .. | .portion .. | .iterator .. | .knot .. | .again _ | .cell .. =>
      .ok .list

/-- Whether the engine may call a value: functions, methods, callable objects and method pairs, but
neither classes nor built-in functions. -/
def isSafe (value : Value) : Except Trouble Bool :=
  match value.isMethodPair with
  | .error trouble => .error trouble
  | .ok true => .ok true
  | .ok false =>
      match value with
      | .function .. => .ok true
      | .object data => .ok data.call.isSome
      | _ => .ok false

theorem kind_of_isScalar {value : Value} (scalar : value.isScalar = true) :
    value.kind = .ok .scalar := by
  cases value <;> first | rfl | simp [isScalar] at scalar

end Value

end Logicless
