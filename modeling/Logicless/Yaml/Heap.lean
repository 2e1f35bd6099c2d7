import Logicless.Value.Key

namespace Logicless.Yaml

/-!
Values under construction.

A collection is made empty and filled later, so that it can be part of itself. Until all are filled
a collection is named by a number, and what it holds are `Part`s. In the end every part becomes a
value; a collection that comes by itself again becomes a knot.
-/

inductive Part where
  | value (value : Value)
  | cell (id : Nat)
  | row (parts : List Part)

inductive Cell where
  | list (parts : List Part)
  | mapping (isOrdered : Bool) (entries : List (Value × Part))
  | set (members : List Value)

namespace Part

mutual

def key? : Part → Option Value
  | .value known => some known
  | .cell _ => none
  | .row parts => (keys? parts).map .tuple
termination_by structural part => part

def keys? : List Part → Option (List Value)
  | [] => some []
  | part :: rest =>
      match key? part, keys? rest with
      | some key, some keys => some (key :: keys)
      | _, _ => none
termination_by structural parts => parts

end

mutual

def cells : Part → List Nat
  | .value _ => []
  | .cell id => [id]
  | .row parts => allCells parts
termination_by structural part => part

def allCells : List Part → List Nat
  | [] => []
  | part :: rest => cells part ++ allCells rest
termination_by structural parts => parts

end

mutual

def settled (valueOf : Nat → Value) : Part → Value
  | .value known => known
  | .cell id => valueOf id
  | .row parts => .tuple (allSettled valueOf parts)
termination_by structural part => part

def allSettled (valueOf : Nat → Value) : List Part → List Value
  | [] => []
  | part :: rest => settled valueOf part :: allSettled valueOf rest
termination_by structural parts => parts

end

end Part

namespace Cell

def cells : Cell → List Nat
  | .list parts => Part.allCells parts
  | .mapping _ entries => Part.allCells (entries.map Prod.snd)
  | .set _ => []

def settled (valueOf : Nat → Value) : Cell → Value
  | .list parts => .list (Part.allSettled valueOf parts)
  | .mapping isOrdered entries =>
      let settled := entries.map fun (key, part) => (key, part.settled valueOf)
      if isOrdered then .ordered settled else .mapping settled
  | .set members => .set members

end Cell

structure Heap where
  cells : Array Cell

namespace Heap

def empty : Heap := ⟨#[]⟩

def add (heap : Heap) (cell : Cell) : Nat × Heap := (heap.cells.size, ⟨heap.cells.push cell⟩)

def get (heap : Heap) (id : Nat) : Cell := heap.cells.getD id (.list [])

def fill (heap : Heap) (id : Nat) (cell : Cell) : Heap := ⟨heap.cells.setIfInBounds id cell⟩

abbrev Known := Array (Option Value)

def Known.get (known : Known) (id : Nat) : Value := (known.getD id none).getD .null

def Known.has (known : Known) (id : Nat) : Bool := (known.getD id none).isSome

def learn (heap : Heap) (known : Known) (id : Nat) : Known :=
  let cell := heap.get id
  if !known.has id && cell.cells.all fun child => known.has child then
    known.setIfInBounds id (some (cell.settled known.get))
  else known

def learnAll (heap : Heap) : Nat → Known → Known
  | 0, known => known
  | rounds + 1, known =>
      let count := fun known : Known => known.countP Option.isSome
      let more := (List.range heap.cells.size).foldr (fun id known => heap.learn known id) known
      if count more = count known then known else learnAll heap rounds more

def known (heap : Heap) : Known :=
  heap.learnAll heap.cells.size (Array.replicate heap.cells.size none)

def valueWithin (heap : Heap) (known : Known) : Nat → List Nat → Nat → Value
  | 0, _, id => .again id
  | fuel + 1, around, id =>
      if known.has id then known.get id
      else if around.contains id then .again id
      else .knot id ((heap.get id).settled (valueWithin heap known fuel (id :: around)))

def value (heap : Heap) (part : Part) : Value :=
  let known := heap.known
  part.settled (heap.valueWithin known (heap.cells.size + 1) [])

end Heap

end Logicless.Yaml
