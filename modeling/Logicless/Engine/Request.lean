import Logicless.Render

namespace Logicless

inductive PartialSpec where
  | template (template : String)
  | tokens (tokens : Tokens)
  | unusable (typeName : String)

/-- The partials of a request. An alias that is no text is kept like the others, but no template can
ask for it. -/
inductive Partials where
  | named (specs : List (Value × PartialSpec))
  | unusable (typeName : String)

namespace PartialSpec

/-- The partial that a value is. An empty list holds no tokens and nothing else. -/
def ofValue : Value → PartialSpec
  | .text words => .template words
  | .list [] | .tuple [] => .tokens []
  | other => .unusable other.typeName

end PartialSpec

namespace Partials

def none : Partials := .named []

def ofValue : Value → Partials
  | .null => .none
  | .mapping entries =>
      .named (entries.map fun entry => (entry.1, PartialSpec.ofValue entry.2))
  | other => .unusable other.typeName

end Partials

namespace Tokens

/-- The tokens of a value that is given in the place of tokens: those of an empty collection. -/
def ofValue : Value → Except Fault Tokens
  | .text _ | .bytes _ => .error .notTokens
  | .list items | .tuple items | .set items | .portion _ items | .iterator _ items =>
      ofItems items.isEmpty
  | .mapping entries => ofItems entries.isEmpty
  | .range start stop step => ofItems (Value.rangeLength start stop step == 0)
  | .object data =>
      match data.items with
      | some items => ofItems items.isEmpty
      | none => .error (.trouble .misuse)
  | _ => .error (.trouble .misuse)
where
  ofItems (isEmpty : Bool) : Except Fault Tokens :=
    if isEmpty then .ok [] else .error .notTokens

end Tokens

/-- The token of a partial that is given by a name or by tokens, but not by both. -/
def Token.ofPartial (name : Option String) (tokens : Option Tokens) : Except Fault Token :=
  match name, tokens with
  | some name, none => .ok (.partialNamed name)
  | none, some tokens => .ok (.partialKnown tokens)
  | _, _ => .error .partialAmbiguous

def preparePartial (library : Library) (name : Value) : PartialSpec → Action Tokens
  | .template template => tokenize library true template
  | .tokens tokens => pure tokens
  | .unusable typeName => throw (.partialUnusable name.printed typeName)

def addAlias (ready : Table Tokens) (name : Value) (tokens : Tokens) : Table Tokens :=
  match name with
  | .text words => ready.insert words tokens
  | _ => ready

def prepareNamed (library : Library) :
    Table Tokens → List (Value × PartialSpec) → Action (Table Tokens)
  | ready, [] => pure ready
  | ready, (name, spec) :: rest => do
      let tokens ← preparePartial library name spec
      Action.remember name tokens
      prepareNamed library (addAlias ready name tokens) rest

def preparePartials (library : Library) : Partials → Action (Table Tokens)
  | .named specs => prepareNamed library .empty specs
  | .unusable typeName => throw (.partialsNotNamed typeName)

def prepare (library : Library) (template : String) (partials : Partials) :
    Action (Table Tokens × Tokens) := do
  let ready ← preparePartials library partials
  let tokens ← tokenize library true template
  return (ready, tokens)

def renderTemplate (setting : Setting) (library : Library) (template : String) (view : Value)
    (partials : Partials) : Action String := do
  let (ready, tokens) ← prepare library template partials
  render setting tokens view ready

/-- The escaper that is handed over. Anything that can be called may serve as one. -/
def Given.escaper : Given Escaper → Except Fault Escaper
  | .fitting escape => .ok escape
  | .other value =>
      if value.isCallable then .ok (.calling value) else .error (.notAnEscaper value.typeName)

end Logicless
