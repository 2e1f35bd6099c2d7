import Logicless.Value.Call

namespace Logicless

namespace Value

def indexedItems (entries : List (Value × Value)) : Except Trouble (List Value) :=
  (List.range entries.length).mapM fun index : Nat =>
    match findKey (.int (Int.ofNat index)) entries with
    | some value => .ok value
    | none => .error .missingKey

def items (value : Value) : Except Trouble (List Value) :=
  match value.plain with
  | .mapping entries => indexedItems entries
  | .list items | .tuple items | .set items | .portion _ items | .iterator _ items => .ok items
  | .range start stop step => .ok (rangeItems start stop step)
  | .text s => .ok (s.toList.map fun c => .text (String.ofList [c]))
  | .bytes data => .ok (data.map fun byte => .int (Int.ofNat byte.toNat))
  | .object data =>
      match data.items with
      | some items => .ok items
      | none => .error .misuse
  | _ => .error .misuse

mutual

def builtBy (call : Nat) : Value → Value
  | .list items => .list (allBuiltBy call items)
  | .tuple items => .tuple (allBuiltBy call items)
  | .set items => .set (allBuiltBy call items)
  | .mapping entries => .mapping (entriesBuiltBy call entries)
  | .portion part items => .portion part (allBuiltBy call items)
  | .iterator id items => .iterator ⟨call, id.place⟩ (allBuiltBy call items)
  | .object data => .object (objectBuiltBy call data)
  | .cell id content => .cell ⟨call, id.place⟩ (builtBy call content)
  | value => value
termination_by structural value => value

def allBuiltBy (call : Nat) : List Value → List Value
  | [] => []
  | value :: rest => builtBy call value :: allBuiltBy call rest
termination_by structural values => values

def entriesBuiltBy (call : Nat) : List (Value × Value) → List (Value × Value)
  | [] => []
  | (key, value) :: rest => (builtBy call key, builtBy call value) :: entriesBuiltBy call rest
termination_by structural entries => entries

def objectBuiltBy (call : Nat) : ObjectData → ObjectData
  | .mk shown members items size truth callee fallback =>
      .mk shown (membersBuiltBy call members) (optionBuiltBy call items) size truth callee fallback
termination_by structural data => data

def membersBuiltBy (call : Nat) : List (String × Member) → List (String × Member)
  | [] => []
  | (name, .attribute value) :: rest =>
      (name, .attribute (builtBy call value)) :: membersBuiltBy call rest
  | (name, .property computed) :: rest => (name, .property computed) :: membersBuiltBy call rest
termination_by structural members => members

def optionBuiltBy (call : Nat) : Option (List Value) → Option (List Value)
  | none => none
  | some values => some (allBuiltBy call values)
termination_by structural values => values

end

/-- What the calls of its methods, the last one first, make of the content of a cell. -/
def changedBy (changes : List Change) (id : Identity) (content : Value) : Value :=
  (changes.filter fun change => change.id == id).foldr Change.applied content

mutual

/-- A value as calls of methods have left its cells. -/
def after (changes : List Change) : Value → Value
  | .list items => .list (allAfter changes items)
  | .tuple items => .tuple (allAfter changes items)
  | .set items => .set (allAfter changes items)
  | .mapping entries => .mapping (entriesAfter changes entries)
  | .ordered entries => .ordered (entriesAfter changes entries)
  | .portion part items => .portion part (allAfter changes items)
  | .iterator id items => .iterator id (allAfter changes items)
  | .object data => .object (objectAfter changes data)
  | .knot label body => .knot label (after changes body)
  | .cell id content => .cell id (changedBy changes id (after changes content))
  | value => value
termination_by structural value => value

def allAfter (changes : List Change) : List Value → List Value
  | [] => []
  | value :: rest => after changes value :: allAfter changes rest
termination_by structural values => values

def entriesAfter (changes : List Change) : List (Value × Value) → List (Value × Value)
  | [] => []
  | (key, value) :: rest => (after changes key, after changes value) :: entriesAfter changes rest
termination_by structural entries => entries

def objectAfter (changes : List Change) : ObjectData → ObjectData
  | .mk shown members items size truth callee fallback =>
      .mk shown (membersAfter changes members) (optionAfter changes items) size truth callee fallback
termination_by structural data => data

def membersAfter (changes : List Change) : List (String × Member) → List (String × Member)
  | [] => []
  | (name, .attribute value) :: rest =>
      (name, .attribute (after changes value)) :: membersAfter changes rest
  | (name, .property computed) :: rest => (name, .property computed) :: membersAfter changes rest
termination_by structural members => members

def optionAfter (changes : List Change) : Option (List Value) → Option (List Value)
  | none => none
  | some values => some (allAfter changes values)
termination_by structural values => values

end

end Value

/-- Whether something is part of a view, not built by a call. -/
def Identity.isOwn (id : Identity) : Bool := id.call == 0

/-- What has become of a view. -/
structure Memory where
  calls : Nat
  spent : List Identity
  /-- Calls of the methods of cells, the last one first. -/
  changes : List Change
  deriving Repr, DecidableEq

namespace Memory

def start : Memory := ⟨0, [], []⟩

/-- What is known when another rendering of the view begins: what calls built in an earlier one is
out of reach. -/
def again (memory : Memory) : Memory where
  calls := 0
  spent := memory.spent.filter Identity.isOwn
  changes := memory.changes.filter fun change => change.id.isOwn

/-- A value of the view as it is by now. -/
def current (memory : Memory) (value : Value) : Value :=
  match memory.changes with
  | [] => value
  | changes => value.after changes

def note (memory : Memory) (changes : List Change) : Memory :=
  { memory with changes := changes ++ memory.changes }

def build (memory : Memory) (value : Value) : Value × Memory :=
  (value.builtBy (memory.calls + 1), { memory with calls := memory.calls + 1 })

def take (memory : Memory) (value : Value) : Except Trouble (List Value × Memory) :=
  match value with
  | .iterator id items =>
      if memory.spent.contains id then .ok ([], memory)
      else .ok (items, { memory with spent := id :: memory.spent })
  | _ =>
      match value.items with
      | .ok items => .ok (items, memory)
      | .error trouble => .error trouble

end Memory

end Logicless
