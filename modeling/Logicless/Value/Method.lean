import Logicless.Value.Kind

namespace Logicless

/-! The methods of collections.

A template can call a method of a list, a set or a mapping: without arguments where it names it, and
with the text of a section and the rendering helper where it begins a section. Some of these methods
change the collection, one of them (`update` of a set) before it fails. Other arguments come up in
calls from outside only; of the methods that take such, only `get` is known here.
-/

inductive Argument where
  | value (value : Value)
  | renderer

/-- The rendering helper as a value, which nobody calls. -/
def helperValue : Value := .function false (.mk ⟨1, 0, false⟩ (.raises .misuse))

def Argument.asValue : Argument → Value
  | .value given => given
  | .renderer => helperValue

namespace Value

/-- A finite number by its sign and `mantissa * 2 ^ exponent`, compared with a whole one. -/
def compareFloat (x : Float) (n : Int) : Ordering :=
  let size := Decimal.Binary.ofBits x.toBits
  let mantissa := if x < 0.0 then -(Int.ofNat size.mantissa) else Int.ofNat size.mantissa
  compare (mantissa * Int.ofNat (Nat.pow 2 size.exponent.toNat))
    (n * Int.ofNat (Nat.pow 2 (-size.exponent).toNat))

def floatIsBelow (x : Float) (n : Int) : Bool :=
  if x.isNaN then false else if x.isInf then decide (x < 0.0) else compareFloat x n == .lt

def floatIsAbove (x : Float) (n : Int) : Bool :=
  if x.isNaN then false else if x.isInf then decide (x > 0.0) else compareFloat x n == .gt

/-- Whether one scalar comes before another one; nothing if they cannot be compared. -/
def less? : Value → Value → Option Bool
  | .text s, .text t => some (decide (s < t))
  | .bytes s, .bytes t => some (decide (s < t))
  | .float x, .float y => some (decide (x < y))
  | .float x, other => (asInt? other).map fun n => floatIsBelow x n
  | value, .float y => (asInt? value).map fun n => floatIsAbove y n
  | value, other =>
      match asInt? value, asInt? other with
      | some n, some m => some (decide (n < m))
      | _, _ => none

/-- The items in order, equal ones as they stood; nothing if two of them cannot be compared. -/
def sorted? (items : List Value) : Option (List Value) :=
  if items.length ≤ 1 || items.all fun item => items.all fun other => (less? item other).isSome then
    some (items.mergeSort fun item other => less? other item != some true)
  else none

def eraseKey {α : Type} (key : Value) : List (Value × α) → List (Value × α)
  | [] => []
  | (other, value) :: rest =>
      if sameKey other key then rest else (other, value) :: eraseKey key rest

/-- What a method makes of a collection, and what it gives. -/
abbrev Handled (α : Type) := α × Reply

def listMethod (items : List Value) : String → List Argument → Handled (List Value)
  | "clear", [] => ([], .gives .null)
  | "copy", [] => (items, .gives (.list items))
  | "pop", [] =>
      match items.getLast? with
      | some last => (items.dropLast, .gives last)
      | none => (items, .raises .missingItem)
  | "reverse", [] => (items.reverse, .gives .null)
  | "sort", [] =>
      match sorted? items with
      | some inOrder => (inOrder, .gives .null)
      | none => (items, .raises .misuse)
  | _, _ => (items, .raises .misuse)

abbrev Entries := List (Value × Value)

def getEntry (entries : Entries) (key default : Value) : Reply :=
  if isHashable key then .gives ((findKey key entries).getD default) else .raises .misuse

def popEntry (entries : Entries) (key : Value) (otherwise : Reply) : Handled Entries :=
  if isHashable key then
    match findKey key entries with
    | some value => (eraseKey key entries, .gives value)
    | none => (entries, otherwise)
  else (entries, .raises .misuse)

def setDefault (entries : Entries) (key default : Value) : Handled Entries :=
  if isHashable key then
    match findKey key entries with
    | some value => (entries, .gives value)
    | none => (putKey key default entries, .gives default)
  else (entries, .raises .misuse)

def characters (words : String) : List Value := words.toList.map fun c => .text (String.ofList [c])

/-- The methods of mappings. `whole` is the mapping that has certain entries. -/
def mappingMethod (whole : Entries → Value) (entries : Entries) :
    String → List Argument → Handled Entries
  | "clear", [] => ([], .gives .null)
  | "copy", [] => (entries, .gives (whole entries))
  | "fromkeys", [.value (.text words)] =>
      (entries, .gives (.ofEntries ((characters words).map fun key => (key, .null))))
  | "fromkeys", [.value (.text words), default] =>
      (entries, .gives (.ofEntries ((characters words).map fun key => (key, default.asValue))))
  | "get", [.value key] => (entries, getEntry entries key .null)
  | "get", [.value key, default] => (entries, getEntry entries key default.asValue)
  | "items", [] =>
      (entries, .gives (.portion .items (entries.map fun entry => .tuple [entry.1, entry.2])))
  | "keys", [] => (entries, .gives (.portion .keys (entries.map (·.1))))
  | "pop", [.value key] => popEntry entries key (.raises .missingKey)
  | "pop", [.value key, default] => popEntry entries key (.gives default.asValue)
  | "popitem", [] =>
      match entries.getLast? with
      | some (key, value) => (entries.dropLast, .gives (.tuple [key, value]))
      | none => (entries, .raises .missingKey)
  | "setdefault", [.value key] => setDefault entries key .null
  | "setdefault", [.value key, default] => setDefault entries key default.asValue
  | "update", [] => (entries, .gives .null)
  | "values", [] => (entries, .gives (.portion .values (entries.map (·.2))))
  | _, _ => (entries, .raises .misuse)

/-- The methods that ordered mappings have besides. -/
def orderedMethod (entries : Entries) : String → List Argument → Handled Entries
  | "move_to_end", .value key :: last =>
      if last.length ≤ 1 && isHashable key then
        match findKey key entries with
        | some value => (eraseKey key entries ++ [(key, value)], .gives .null)
        | none => (entries, .raises .missingKey)
      else (entries, .raises .misuse)
  | name, arguments => mappingMethod .ordered entries name arguments

def addItem (items : List Value) (item : Value) : List Value :=
  if items.any fun other => sameKey other item then items else items ++ [item]

/-- The methods of sets. Those that take collections go through them one by one, and the helper is
no collection. -/
def setMethod (items : List Value) : String → List Argument → Handled (List Value)
  | "clear", [] => ([], .gives .null)
  | "copy", [] | "difference", [] | "intersection", [] | "union", [] => (items, .gives (.set items))
  | "pop", [] =>
      match items with
      | first :: rest => (rest, .gives first)
      | [] => ([], .raises .missingKey)
  | "difference_update", [] | "intersection_update", [] | "update", [] => (items, .gives .null)
  | "difference_update", [.value (.text words), .renderer] =>
      (items.filter fun item => !(characters words).any fun other => sameKey item other,
        .raises .misuse)
  | "update", [.value (.text words), .renderer] =>
      ((characters words).foldl addItem items, .raises .misuse)
  | _, _ => (items, .raises .misuse)

/-- The methods that change their collection, or may. -/
def changingMethods : List String :=
  ["clear", "difference_update", "move_to_end", "pop", "popitem", "reverse", "setdefault", "sort",
   "update"]

/-- Calls a method of a collection: what the collection is then, and what the call gives. -/
def callMethod (target : Value) (name : String) (arguments : List Argument) : Handled Value :=
  match target.opened with
  | .list items =>
      let handled := listMethod items name arguments
      (.list handled.1, handled.2)
  | .set items =>
      let handled := setMethod items name arguments
      (.set handled.1, handled.2)
  | .mapping entries =>
      let handled := mappingMethod .mapping entries name arguments
      (.mapping handled.1, handled.2)
  | .ordered entries =>
      let handled := orderedMethod entries name arguments
      (.ordered handled.1, handled.2)
  | other => (other, .raises .misuse)

end Value

end Logicless
