import Logicless.Files.Tree
import Logicless.Template.Flaw
import Logicless.Text.Hexadecimal
import Logicless.Text.Utf8
import Logicless.Value

namespace Logicless

inductive Fault where
  | malformed (flaw : Flaw) (template : Option String)
  | notAnEscaper (typeName : String)
  | unknownPragma (name : String)
  | inheritanceUnmanaged (parent : String)
  | partialUnmanaged (name : String)
  | partialsNotNamed (typeName : String)
  | partialUnusable (name typeName : String)
  | notTokens
  /-- What was found under a name is neither text nor tokens. -/
  | templateUnusable (name : String)
  | templateNotFound (name : String)
  | tooDeep (limit : Int)
  | notAPragma (typeName : String)
  | notAResolver (typeName : String)
  /-- A partial is given by both a name and tokens, or by neither. -/
  | partialAmbiguous
  | notADirectory (path : String)
  | file (flaw : FileFlaw)
  | undecodable (fault : Text.Utf8Fault)
  | trouble (trouble : Trouble)
  | endless
  deriving Repr, DecidableEq

/-- What a caller hands over where something of a certain sort is expected: that, or any value. -/
inductive Given (α : Type) where
  | fitting (given : α)
  | other (value : Value)

/-- What was handed over, unless it is something else. -/
def Given.expect {α : Type} (refusal : String → Fault) : Given α → Except Fault α
  | .fitting given => .ok given
  | .other value => .error (refusal value.typeName)

def Text.Utf8Fault.message (fault : Text.Utf8Fault) : String :=
  let reason :=
    match fault.flaw with
    | .badStart => "invalid start byte"
    | .badContinuation => "invalid continuation byte"
    | .cutShort => "unexpected end of data"
  let place :=
    if fault.width = 1 then
      "byte 0x" ++ String.ofList (Text.hexDigits 2 fault.byte.toNat) ++ " in position " ++
        toString fault.position
    else
      "bytes in position " ++ toString fault.position ++ "-" ++
        toString (fault.position + fault.width - 1)
  "'utf-8' codec can't decode " ++ place ++ ": " ++ reason

def Trouble.message : Trouble → String
  | .invalidValue => "invalid value"
  | .illegible reason | .overflow reason => reason
  | .missingMember => "missing member"
  | .missingKey => "missing key"
  | .missingItem => "missing item"
  | .contradiction => "parts of a value exclude each other"
  | .misuse => "value cannot be used this way"
  | .custom name => name

def Fault.message : Fault → String
  | .malformed flaw template => flaw.message template
  | .notAnEscaper typeName => "Escaper must be callable, got " ++ typeName
  | .unknownPragma name =>
      "No handler for pragma \"" ++ name ++ "\" registered; cannot proceed rendering"
  | .inheritanceUnmanaged parent =>
      "Template inheritance from \"" ++ parent ++ "\" requires a template manager"
  | .partialUnmanaged name => "Unable to resolve partial \"" ++ name ++ "\""
  | .partialsNotNamed typeName =>
      "Partials must be a mapping of alias to template, got " ++ typeName
  | .partialUnusable name typeName =>
      "Partial '" ++ name ++ "' must be template text, a template name or tokens, got " ++ typeName
  | .notTokens => "Renderer expects a sequence of tokens"
  | .templateUnusable name =>
      "Unable to either retrieve or compile tokens for '" ++ name ++ "'"
  | .templateNotFound name => "Template by name \"" ++ name ++ "\" not found"
  | .tooDeep limit =>
      "Maximum render depth of " ++ toString limit ++ " exceeded (self-referencing partial?)"
  | .notAPragma typeName => "Expected a Pragma instance, got " ++ typeName
  | .notAResolver typeName => "Expected a Resolver, got " ++ typeName
  | .partialAmbiguous => "PartialToken requires exactly one of 'name' or 'tokens'"
  | .notADirectory path => "Template path does not exist or is not a directory: " ++ path
  | .file flaw => flaw.message
  | .undecodable cause => cause.message
  | .trouble raised => raised.message
  | .endless => "Templates include one another without end"

end Logicless
