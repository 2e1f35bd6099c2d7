import Logicless.Text.Digits
import Logicless.Text.Search

namespace Logicless.CommandLine

/-!
Reading the arguments of a command.

A `Grammar` lists the options of a command. A long option may be cut short as long as one option
only begins that way, and may have its value behind an equals sign; short options may stand together
behind one dash. A negative number, a lone dash and anything with a space in it are no options, and
nothing is behind two dashes that stand alone. Arguments are read from left to right, and the first
one that is wrong, or that asks for help, ends the reading.
-/

inductive Effect where
  | help
  | version
  | flag
  | value
  deriving Repr, DecidableEq

structure OptionSpec where
  key : String
  spellings : List String
  effect : Effect
  deriving Repr, DecidableEq

abbrev Grammar := List OptionSpec

inductive Stop where
  | help
  | version
  | misuse
  deriving Repr, DecidableEq

inductive Word where
  | plain (text : String)
  | separator
  | option (spec : OptionSpec) (isShort : Bool) (attached : Option String)
  | stranger
  deriving Repr, DecidableEq

namespace Grammar

def spelled? (grammar : Grammar) (spelling : String) : Option OptionSpec :=
  grammar.find? fun spec => spec.spellings.contains spelling

/-- The options with a spelling that begins in a given way, one for each such spelling. -/
def beginning (grammar : Grammar) (start : String) : List OptionSpec :=
  grammar.flatMap fun spec =>
    let matching := spec.spellings.filter fun spelling =>
      start.toList.isPrefixOf spelling.toList
    matching.map fun _ => spec

end Grammar

def isDigit (c : Char) : Bool := (Text.digitValue? c).isSome

def isNumber (text : List Char) : Bool :=
  match text.dropWhile isDigit with
  | [] => !text.isEmpty
  | '.' :: fraction => !fraction.isEmpty && fraction.all isDigit
  | _ => false

def isNegativeNumber (text : List Char) : Bool :=
  match text with
  | '-' :: size => isNumber size || (size.getLast? == some '\n' && isNumber size.dropLast)
  | _ => false

def isShort (argument : String) : Bool :=
  match argument.toList with
  | '-' :: c :: _ => c != '-'
  | _ => false

def splitAttached (argument : String) : String × Option String :=
  match Text.breakOn ['='] argument.toList with
  | some (before, behind) => (String.ofList before, some (String.ofList behind))
  | none => (argument, none)

def candidates (grammar : Grammar) (argument : String) : List Word :=
  match argument.toList with
  | '-' :: '-' :: _ =>
      let (start, attached) := splitAttached argument
      (grammar.beginning start).map fun spec => .option spec false attached
  | '-' :: c :: tail =>
      match grammar.spelled? (String.ofList ['-', c]) with
      | some spec => [.option spec true (some (String.ofList tail))]
      | none => []
  | _ => []

def classify (grammar : Grammar) (argument : String) : Except Stop Word :=
  let text := argument.toList
  if argument == "--" then .ok .separator
  else if text.head? != some '-' || text == ['-'] then .ok (.plain argument)
  else
    let (start, attached) := splitAttached argument
    match grammar.spelled? argument, grammar.spelled? start with
    | some spec, _ => .ok (.option spec (isShort argument) none)
    | none, some spec => .ok (.option spec (isShort argument) attached)
    | none, none =>
        match candidates grammar argument with
        | [word] => .ok word
        | _ :: _ :: _ => .error .misuse
        | [] =>
            if isNegativeNumber text || text.contains ' ' then .ok (.plain argument)
            else .ok .stranger

def classifyAll (grammar : Grammar) : List String → Except Stop (List Word)
  | [] => .ok []
  | argument :: rest =>
      match classify grammar argument with
      | .error stop => .error stop
      | .ok .separator => .ok (.separator :: rest.map Word.plain)
      | .ok word =>
          match classifyAll grammar rest with
          | .ok words => .ok (word :: words)
          | .error stop => .error stop

structure Reading where
  /-- The keys and values of options, in order; a flag has an empty value. -/
  given : List (String × String)
  hasExtras : Bool
  deriving Repr, DecidableEq

namespace Reading

def none : Reading := ⟨[], false⟩

def give (reading : Reading) (key value : String) : Reading :=
  { reading with given := reading.given ++ [(key, value)] }

def withExtras (reading : Reading) : Reading := { reading with hasExtras := true }

def valuesOf (reading : Reading) (key : String) : List String :=
  (reading.given.filter fun entry => entry.1 == key).map (·.2)

def last? (reading : Reading) (key : String) : Option String := (reading.valuesOf key).getLast?

def has (reading : Reading) (key : String) : Bool := !(reading.valuesOf key).isEmpty

def run (reading : Reading) (spec : OptionSpec) : Except Stop Reading :=
  match spec.effect with
  | .help => .error .help
  | .version => .error .version
  | .flag | .value => .ok (reading.give spec.key "")

end Reading

/-- The short options that letters stand for. They are written together, so each must be known and
none can have a value. -/
def bundled? (grammar : Grammar) (letters : List Char) : Option (List OptionSpec) :=
  letters.mapM fun letter =>
    (grammar.spelled? (String.ofList ['-', letter])).filter fun spec => spec.effect != .value

/-- The effect of an option that has a text attached to it. Letters behind a short option are short
options too; nothing is done unless all of them are known. -/
def runAttached (grammar : Grammar) (reading : Reading) (spec : OptionSpec) (isShort : Bool)
    (attached : String) : Except Stop Reading :=
  if spec.effect = .value then .ok (reading.give spec.key attached)
  else if isShort && !attached.isEmpty then
    match bundled? grammar attached.toList with
    | none => .error .misuse
    | some others => (spec :: others).foldlM Reading.run reading
  else .error .misuse

/-- Reads the arguments of a command that has one operand. Lone dashes may stand next to it. -/
def readWords (grammar : Grammar) : Reading → Option String → List Word →
    Except Stop (Reading × Option String)
  | reading, operand, [] => .ok (reading, operand)
  | reading, none, .plain text :: .separator :: rest =>
      readWords grammar reading (some text) rest
  | reading, none, .plain text :: rest => readWords grammar reading (some text) rest
  | reading, none, .separator :: .plain text :: rest =>
      readWords grammar reading (some text) rest
  | reading, operand, .plain _ :: rest => readWords grammar reading.withExtras operand rest
  | reading, operand, .separator :: rest => readWords grammar reading.withExtras operand rest
  | reading, operand, .stranger :: rest => readWords grammar reading.withExtras operand rest
  | reading, operand, .option spec isShort (some attached) :: rest =>
      match runAttached grammar reading spec isShort attached with
      | .ok next => readWords grammar next operand rest
      | .error stop => .error stop
  | reading, operand, .option spec _ none :: rest =>
      if spec.effect = .value then
        match rest with
        | .plain text :: others => readWords grammar (reading.give spec.key text) operand others
        | _ => .error .misuse
      else
        match reading.run spec with
        | .ok next => readWords grammar next operand rest
        | .error stop => .error stop

/-- Reads the arguments of a command that has one operand, which must be there. -/
def readOperand (grammar : Grammar) (arguments : List String) :
    Except Stop (Reading × String) :=
  match classifyAll grammar arguments with
  | .error stop => .error stop
  | .ok words =>
      match readWords grammar .none none words with
      | .ok (reading, some operand) => .ok (reading, operand)
      | .ok (_, none) => .error .misuse
      | .error stop => .error stop

/-- Reads the arguments before the name of a command, and returns what follows from that name on. -/
def readBefore (grammar : Grammar) : Reading → List Word → List String →
    Except Stop (Reading × List String)
  | _, [], _ => .error .misuse
  | reading, .plain _ :: _, arguments => .ok (reading, arguments)
  | _, .separator :: _, _ => .error .misuse
  | reading, .stranger :: rest, arguments =>
      readBefore grammar reading.withExtras rest arguments.tail
  | reading, .option spec isShort attached :: rest, arguments =>
      let next :=
        match attached with
        | some attached => runAttached grammar reading spec isShort attached
        | none => reading.run spec
      match next with
      | .ok next => readBefore grammar next rest arguments.tail
      | .error stop => .error stop

def readGlobal (grammar : Grammar) (arguments : List String) :
    Except Stop (Reading × List String) :=
  match classifyAll grammar arguments with
  | .ok words => readBefore grammar .none words arguments
  | .error stop => .error stop

end Logicless.CommandLine
