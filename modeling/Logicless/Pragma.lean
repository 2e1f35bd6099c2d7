import Logicless.Engine.Compile
import Logicless.Escape

namespace Logicless

/-- What a pragma is given of a token: the text of a content token, the name of a variable, and of
any other token the token. -/
inductive Payload where
  | text (text : String)
  | token (token : Token)

def Token.payload : Token → Payload
  | .content text => .text text
  | .escaped name | .unescaped name => .text name
  | token => .token token

structure Offer where
  kind : Token.Kind
  payload : Payload
  view : Value
  options : Options
  /-- The escaping that is in force where templates are looked up; none without such a place. -/
  escape : Option Escaper

/-- What a pragma does with an offer: it gives a piece, null if it declines, or raises, or asks for
the tokens of a template and goes on with them. -/
inductive Handling where
  | gives (piece : Value)
  | raises (trouble : Trouble)
  | tokenizes (template : String) (keep : Bool) (next : Tokens → Handling)

namespace Handling

def ofView : Except Trouble Value → Handling
  | .ok piece => .gives piece
  | .error trouble => .raises trouble

/-- Carries a handling out. The tokens of templates come from a library, or from the cache. -/
def run (library : Library) : Handling → Action Value
  | .gives piece => pure piece
  | .raises trouble => throw (.trouble trouble)
  | .tokenizes template keep next => do
      let tokens ← tokenize library keep template
      run library (next tokens)

end Handling

structure Pragma where
  name : String
  kinds : List Token.Kind
  render : Offer → Handling

abbrev Registry := Table Pragma

namespace Registry

/-- Registers a pragma under its name. A pragma of that name is replaced in its place, which is
reported. -/
def register (registry : Registry) (pragma : Pragma) : Registry × List Event :=
  (registry.insert pragma.name pragma,
    if registry.contains pragma.name then [.overwritten pragma.name] else [])

/-- Registers what it is given, unless that is no pragma. -/
def add (registry : Registry) (given : Given Pragma) : Except Fault (Registry × List Event) :=
  (given.expect .notAPragma).map registry.register

end Registry

end Logicless
