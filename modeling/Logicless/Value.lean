import Logicless.Calendar

namespace Logicless

/-!
The data that templates are rendered against.

A view is a tree of values: scalars, collections, objects with members, and functions. Functions are
data: what a callback does with the text of its section is a `Reply`, which asks for further texts
to be rendered and in the end gives a value or raises. A value that contains itself is a `knot`:
inside it, `again` with the label of the knot stands for the whole knot. A collection that its own
methods change while a view is rendered is a `cell`, which has an identity; one without an identity
is as it was whenever it is come by.
-/

inductive Trouble where
  | invalidValue
  /-- A text that does not spell what it should; the reason says so. -/
  | illegible (reason : String)
  | missingMember
  | missingKey
  | missingItem
  | overflow (reason : String)
  | contradiction
  /-- A value used as what it is not: called with the wrong number of arguments, iterated, … -/
  | misuse
  | custom (name : String)
  deriving Repr, DecidableEq

inductive Portion where
  | keys
  | values
  | items
  deriving Repr, DecidableEq

/-- Functions that the engine knows but never calls on behalf of a template. -/
inductive Builtin where
  | length
  | print
  | magnitude
  | method (name : String)
  deriving Repr, DecidableEq

structure Arity where
  required : Nat
  optional : Nat
  variadic : Bool
  deriving Repr, DecidableEq

def Arity.accepts (arity : Arity) (count : Nat) : Bool :=
  arity.required ≤ count && (arity.variadic || count ≤ arity.required + arity.optional)

/-- Tells apart what can change in a view, one-shot iterators and cells: the call that built it, and
its place in what that call built. -/
structure Identity where
  call : Nat
  place : Nat
  deriving Repr, DecidableEq

mutual

inductive Value where
  | null
  | bool (b : Bool)
  | int (n : Int)
  | float (x : Float)
  | text (s : String)
  | bytes (data : List UInt8)
  | list (items : List Value)
  | tuple (items : List Value)
  | set (items : List Value)
  | mapping (entries : List (Value × Value))
  | ordered (entries : List (Value × Value))
  | range (start stop step : Int)
  | portion (portion : Portion) (items : List Value)
  | iterator (id : Identity) (items : List Value)
  | object (data : ObjectData)
  /-- A function; `bound` if it belongs to an object. -/
  | function (bound : Bool) (function : Function)
  | builtin (builtin : Builtin)
  | type (name : String)
  | calendar (thing : Calendar)
  | knot (label : Nat) (body : Value)
  | again (label : Nat)
  /-- A collection that its methods change, with what is in it to begin with. -/
  | cell (id : Identity) (content : Value)

/-- An object: its text, its members, and what it does when it is iterated, measured, taken for a
truth value, or called. The `fallback` answers for the members that it does not have. -/
inductive ObjectData where
  | mk (shown : String) (members : List (String × Member)) (items : Option (List Value))
      (size : Option Nat) (truth : Option Bool) (call : Option Function)
      (fallback : Option Function)

inductive Member where
  | attribute (value : Value)
  | property (function : Function)

inductive Function where
  | mk (arity : Arity) (body : Body)

inductive Body where
  | gives (value : Value)
  | answers (callback : String → Reply)
  | forwards (text : String)
  | raises (trouble : Trouble)

inductive Reply where
  | gives (value : Value)
  | raises (trouble : Trouble)
  | renders (text : String) (next : String → Reply)

end

instance : Inhabited Value := ⟨.null⟩

namespace ObjectData

def shown : ObjectData → String
  | .mk shown .. => shown

def members : ObjectData → List (String × Member)
  | .mk _ members .. => members

def items : ObjectData → Option (List Value)
  | .mk _ _ items .. => items

def size : ObjectData → Option Nat
  | .mk _ _ _ size .. => size

def truth : ObjectData → Option Bool
  | .mk _ _ _ _ truth .. => truth

def call : ObjectData → Option Function
  | .mk _ _ _ _ _ call _ => call

def fallback : ObjectData → Option Function
  | .mk _ _ _ _ _ _ fallback => fallback

end ObjectData

def Function.arity : Function → Arity
  | .mk arity _ => arity

def Function.body : Function → Body
  | .mk _ body => body

namespace Value

def isScalar : Value → Bool
  | .null | .bool _ | .int _ | .float _ | .text _ | .bytes _ => true
  | _ => false

def typeName : Value → String
  | .null => "NoneType"
  | .bool _ => "bool"
  | .int _ => "int"
  | .float _ => "float"
  | .text _ => "str"
  | .bytes _ => "bytes"
  | .list _ => "list"
  | .tuple _ => "tuple"
  | .set _ => "set"
  | .mapping _ => "dict"
  | .ordered _ => "ordereddict"
  | .range .. => "range"
  | .portion .keys _ => "dict_keys"
  | .portion .values _ => "dict_values"
  | .portion .items _ => "dict_items"
  | .iterator .. => "list_iterator"
  | .object _ => "object"
  | .function false _ => "function"
  | .function true _ => "method"
  | .builtin _ => "builtin_function_or_method"
  | .type _ => "type"
  | .calendar (.date _) => "date"
  | .calendar (.moment _) => "datetime"
  | .calendar (.span _) => "timedelta"
  | .calendar (.zone _) => "timezone"
  | .knot _ body => typeName body
  | .again _ => "list"
  | .cell _ content => typeName content

def rangeLength (start stop step : Int) : Nat :=
  if step > 0 then ((stop - start + step - 1) / step).toNat
  else if step < 0 then ((start - stop - step - 1) / (-step)).toNat
  else 0

def rangeItems (start stop step : Int) : List Value :=
  (List.range (rangeLength start stop step)).map fun index : Nat =>
    .int (start + Int.ofNat index * step)

def truthy : Value → Bool
  | .null => false
  | .bool b => b
  | .int n => n != 0
  | .float x => !(x == 0.0)
  | .text s => !s.isEmpty
  | .bytes data => !data.isEmpty
  | .list items | .tuple items | .set items | .portion _ items => !items.isEmpty
  | .mapping entries | .ordered entries => !entries.isEmpty
  | .range start stop step => rangeLength start stop step != 0
  | .object data =>
      match data.truth, data.size with
      | some truth, _ => truth
      | none, some size => size != 0
      | none, none => true
  | .calendar thing => thing.truthy
  | .knot _ body => truthy body
  | .cell _ content => truthy content
  | .iterator .. | .function .. | .builtin _ | .type _ | .again _ => true

def isCallable : Value → Bool
  | .function .. | .builtin _ | .type _ => true
  | .object data => data.call.isSome
  | _ => false

end Value

end Logicless
