namespace Logicless

structure Position where
  line : Nat
  column : Nat
  deriving Repr, DecidableEq

namespace Position

def start : Position := ⟨1, 1⟩

def past (position : Position) : List Char → Position
  | [] => position
  | c :: rest =>
      past (if c = '\n' then ⟨position.line + 1, 1⟩ else ⟨position.line, position.column + 1⟩) rest

theorem past_append (position : Position) (left right : List Char) :
    position.past (left ++ right) = (position.past left).past right := by
  induction left generalizing position with
  | nil => rfl
  | cons c rest ih => simp [past, ih]

end Position

end Logicless
