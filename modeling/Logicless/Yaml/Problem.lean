import Logicless.Value

namespace Logicless.Yaml

inductive Problem where
  | malformed
  | trouble (trouble : Trouble)
  deriving Repr, DecidableEq

def orMalformed {α : Type} : Option α → Except Problem α
  | some result => .ok result
  | none => .error .malformed

end Logicless.Yaml
