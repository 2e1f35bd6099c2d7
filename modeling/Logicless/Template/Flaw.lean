import Logicless.Template.Position

namespace Logicless

inductive FlawCause where
  | unclosedTag (opening : String)
  | emptyTag
  | badDelimiters (body : String)
  | strayClosing (body : String)
  | mismatchedClosing (body expected : String)
  | unclosedBlock (name : String)
  deriving Repr, DecidableEq

def FlawCause.text : FlawCause → String
  | .unclosedTag opening => "Unclosed tag '" ++ opening ++ "'"
  | .emptyTag => "Empty tag"
  | .badDelimiters body => "Invalid delimiter specification '" ++ body ++ "'"
  | .strayClosing body => "Unexpected closing tag '" ++ body ++ "'"
  | .mismatchedClosing body expected =>
      "Mismatched closing tag '" ++ body ++ "', expected '" ++ expected ++ "'"
  | .unclosedBlock name => "Unclosed section '" ++ name ++ "'"

structure Flaw where
  cause : FlawCause
  position : Position
  deriving Repr, DecidableEq

def Flaw.message (flaw : Flaw) (template : Option String) : String :=
  let name :=
    match template with
    | none => ""
    | some name => if name.isEmpty then "" else name ++ ":"
  flaw.cause.text ++ " at " ++ name ++ toString flaw.position.line ++ ":" ++
    toString flaw.position.column

end Logicless
