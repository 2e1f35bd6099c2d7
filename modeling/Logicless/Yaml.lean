import Logicless.Yaml.Build

namespace Logicless.Yaml

def isAllowed (c : Char) : Bool :=
  c == '\t' || c == '\n' || c == '\r' || (' ' ≤ c && c ≤ '~') || c.toNat == 0x85 ||
    (0xA0 ≤ c.toNat && c != '\uFFFE' && c != '\uFFFF')

def read (text : List Char) : Except Problem Value := do
  if !text.all isAllowed then throw .malformed
  match ← Document.read text with
  | none => return .null
  | some document => document.value

end Logicless.Yaml
