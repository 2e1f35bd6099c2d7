import Logicless.CommandLine.Arguments

namespace Logicless.CommandLine

inductive Command where
  | render
  | tokens
  deriving Repr, DecidableEq

structure Request where
  command : Command
  template : String
  paths : List String
  config : Option String
  suffix : Option String
  data : Option String
  partials : List String
  raw : Bool
  verbose : Bool
  deriving Repr, DecidableEq

def helpOption : OptionSpec := ⟨"help", ["-h", "--help"], .help⟩

def globalGrammar : Grammar :=
  [helpOption, ⟨"version", ["-v", "--version"], .version⟩, ⟨"verbose", ["--verbose"], .flag⟩]

def commonGrammar : Grammar :=
  [helpOption, ⟨"path", ["--path"], .value⟩, ⟨"config", ["--config"], .value⟩,
    ⟨"suffix", ["--suffix"], .value⟩]

def Command.grammar : Command → Grammar
  | .tokens => commonGrammar
  | .render =>
      commonGrammar ++
        [⟨"data", ["--data"], .value⟩, ⟨"partial", ["--partial"], .value⟩,
          ⟨"raw", ["--raw"], .flag⟩]

def Command.ofName? : String → Option Command
  | "render" => some .render
  | "tokens" => some .tokens
  | _ => none

def Request.make (command : Command) (verbose : Bool) (reading : Reading) (template : String) :
    Request where
  command := command
  template := template
  paths := reading.valuesOf "path"
  config := reading.last? "config"
  suffix := reading.last? "suffix"
  data := reading.last? "data"
  partials := reading.valuesOf "partial"
  raw := reading.has "raw"
  verbose := verbose

/-- The request that arguments make. Arguments without a place are refused once all are read. -/
def Request.ofArguments (arguments : List String) : Except Stop Request :=
  match readGlobal globalGrammar arguments with
  | .error stop => .error stop
  | .ok (_, []) => .error .misuse
  | .ok (before, name :: rest) =>
      match Command.ofName? name with
      | none => .error .misuse
      | some command =>
          match readOperand command.grammar rest with
          | .error stop => .error stop
          | .ok (reading, template) =>
              if before.hasExtras || reading.hasExtras then .error .misuse
              else .ok (.make command (before.has "verbose") reading template)

end Logicless.CommandLine
