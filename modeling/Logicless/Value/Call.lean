import Logicless.Value.Method

namespace Logicless

def Reply.withoutRendering : Reply → Reply
  | .renders .. => .raises .misuse
  | reply => reply

/-- A call of a method of a cell, from a template: without arguments, or with the text of a section.
-/
structure Change where
  id : Identity
  method : String
  text : Option String
  deriving Repr, DecidableEq

namespace Change

def arguments (change : Change) : List Argument :=
  match change.text with
  | none => []
  | some text => [.value (.text text), .renderer]

def applied (change : Change) (content : Value) : Value :=
  (content.callMethod change.method change.arguments).1

end Change

namespace Value

/-- The largest number that a count of items can be. -/
def countLimit : Nat := Nat.pow 2 63 - 1

/-- A number of items, which must not be too large to count. -/
def checkedCount (count : Nat) : Except Trouble Nat :=
  if count ≤ countLimit then .ok count
  else .error (.overflow "Python int too large to convert to C ssize_t")

def itemCount (value : Value) : Except Trouble Nat :=
  match value.plain with
  | .text s => .ok s.toList.length
  | .bytes data => .ok data.length
  | .list items | .tuple items | .set items | .portion _ items => .ok items.length
  | .mapping entries => .ok entries.length
  | .range start stop step => checkedCount (rangeLength start stop step)
  | .object data =>
      match data.size with
      | some size => .ok size
      | none => .error .misuse
  | _ => .error .misuse

def builtinReply (known : Builtin) (arguments : List Argument) : Reply :=
  match known, arguments with
  | .print, _ => .gives .null
  | .length, [.value value] =>
      match value.itemCount with
      | .ok count => .gives (.int (Int.ofNat count))
      | .error trouble => .raises trouble
  | .magnitude, [.value (.float x)] => .gives (.float x.abs)
  | .magnitude, [.value (.calendar (.span length))] =>
      .gives (.calendar (.span (Int.ofNat length.natAbs)))
  | .magnitude, [.value value] =>
      match value.asInt? with
      | some n => .gives (.int (Int.ofNat n.natAbs))
      | none => .raises .misuse
  | _, _ => .raises .misuse

end Value

namespace Function

/-- What a callback with a text of its own gives: the text rendered by the helper, or what a
built-in function in the place of the helper makes of it. -/
def forwarded (text : String) : Argument → Reply
  | .renderer => .renders text fun rendered => .gives (.text rendered)
  | .value (.builtin known) => Value.builtinReply known [.value (.text text)]
  | .value _ => .raises .misuse

def reply (function : Function) (arguments : List Argument) : Reply :=
  if function.arity.accepts arguments.length then
    match function.body with
    | .gives value => .gives value
    | .raises trouble => .raises trouble
    | .forwards text =>
        match arguments with
        | _ :: helper :: _ => forwarded text helper
        | _ => .raises .misuse
    | .answers callback =>
        match arguments with
        | .value (.text text) :: .renderer :: _ => callback text
        | .value (.text text) :: .value _ :: _ => (callback text).withoutRendering
        | _ => .raises .misuse
  else .raises .misuse

end Function

namespace Value

def callReply (value : Value) (arguments : List Argument) : Reply :=
  match value with
  | .function _ callee => callee.reply arguments
  | .builtin known => builtinReply known arguments
  | .object data =>
      match data.call with
      | some callee => callee.reply arguments
      | none => .raises .misuse
  | _ => .raises .misuse

def memberReply (target : Value) (name : String) (arguments : List Argument) : Reply :=
  if target.methodNames.contains name then (callMethod target name arguments).2
  else
    match target with
    | .object data =>
        match data.member name with
        | .ok (some (member, _)) => member.callReply arguments
        | .ok none => .raises .missingMember
        | .error trouble => .raises trouble
    | _ => .raises .misuse

/-- Whether a value is the pair of a collection and one of its own methods. What such a method gives
is not built anew. -/
def isCollectionPair (value : Value) : Bool :=
  match value.opened with
  | .tuple [target, .text name] => target.methodNames.contains name
  | _ => false

/-- What the call of a value, without arguments or with the text of a section, may change. -/
def changes (value : Value) (text : Option String) : List Change :=
  match value.opened with
  | .tuple [.cell id _, .text name] =>
      if changingMethods.contains name then [⟨id, name, text⟩] else []
  | _ => []

def invoke (value : Value) (arguments : List Argument) : Reply :=
  match value.isMethodPair with
  | .error trouble => .raises trouble
  | .ok false => value.callReply arguments
  | .ok true =>
      match value.opened with
      | .tuple [target, .text name] => target.memberReply name arguments
      | _ => .raises .misuse

end Value

end Logicless
