import Logicless.Value

namespace Logicless

/-!
Opening values that contain themselves.

The parts of a knot may stand `again` for the whole. Opening a knot puts the whole in their place,
so that every part is a value by itself; the whole keeps its label, by which printing notices that
it comes by the same collection again.
-/

namespace Value

mutual

def tie (label : Nat) (whole : Value) : Value → Value
  | .again other => if other = label then whole else .again other
  | .knot other body =>
      if other = label then .knot other body else .knot other (tie label whole body)
  | .list items => .list (tieAll label whole items)
  | .tuple items => .tuple (tieAll label whole items)
  | .mapping entries => .mapping (tieEntries label whole entries)
  | .ordered entries => .ordered (tieEntries label whole entries)
  | .cell id content => .cell id (tie label whole content)
  | value => value
termination_by structural value => value

def tieAll (label : Nat) (whole : Value) : List Value → List Value
  | [] => []
  | value :: rest => tie label whole value :: tieAll label whole rest
termination_by structural values => values

def tieEntries (label : Nat) (whole : Value) : List (Value × Value) → List (Value × Value)
  | [] => []
  | (key, value) :: rest => (key, tie label whole value) :: tieEntries label whole rest
termination_by structural entries => entries

end

def opened : Value → Value
  | .knot label body => tie label (.knot label body) body
  | .cell _ content => content
  | value => value

/-- What a value is to somebody who looks into it: a knot or a cell is the collection that it is, and
an ordered mapping is a mapping. -/
def plain (value : Value) : Value :=
  match value.opened with
  | .ordered entries => .mapping entries
  | other => other

theorem plain_of_isScalar {value : Value} (scalar : value.isScalar = true) :
    value.plain = value := by
  cases value <;> first | rfl | simp [isScalar] at scalar

end Value

end Logicless
