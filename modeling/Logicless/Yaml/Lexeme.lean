import Logicless.Yaml.Cursor

namespace Logicless.Yaml

abbrev Version := Nat × Nat

inductive Directive where
  | version (version : Version)
  | handle (handle expansion : String)
  | other
  deriving Repr, DecidableEq

/-- The tag of a node as it is written: a handle that stands for the start of a name, and the rest
of the name. Without a handle the rest is the whole name. -/
structure TagName where
  handle : Option String
  rest : String
  deriving Repr, DecidableEq

namespace TagName

def isBare (name : TagName) : Bool := name.handle.isNone && name.rest == "!"

end TagName

inductive Lexeme where
  | streamEnd
  | directive (directive : Directive)
  | documentStart
  | documentEnd
  | blockSequenceStart
  | blockMappingStart
  | blockEnd
  | sequenceOpen
  | sequenceClose
  | mappingOpen
  | mappingClose
  | item
  | comma
  | key
  | value
  /-- The name of an anchor in the place of the node that it names. -/
  | reference (name : List Char)
  | anchor (name : List Char)
  | tag (name : TagName)
  /-- A scalar; `isWord` if it stands without quotes, so that it may be a number or the like. -/
  | scalar (isWord : Bool) (text : List Char)
  deriving Repr, DecidableEq

end Logicless.Yaml
