import Logicless.Config
import Logicless.Yaml

namespace Logicless

namespace Config

def standard : Config := ⟨[], "mustache", "/", .html, none, []⟩

instance : Inhabited Config := ⟨standard⟩

def textOf? : Value → Option String
  | .text words => some words
  | .bytes data =>
      match Text.decodeUtf8 data with
      | .ok words => some (String.ofList words)
      | .error _ => none
  | _ => none

def textsOf? (value : Value) : Option (List String) :=
  match value.opened with
  | .list items | .tuple items | .set items => items.mapM textOf?
  | _ => none

def isSpacedNumber : List Char → Bool
  | [] => false
  | [c] => c.isDigit
  | c :: '_' :: rest => c.isDigit && isSpacedNumber rest
  | c :: rest => c.isDigit && isSpacedNumber rest

/-- A number behind its sign without the zeros at its start, among which underscores may stand. -/
def withoutZeros (text : List Char) : List Char :=
  match text with
  | '0' :: rest => rest.dropWhile fun c => c == '0' || c == '_'
  | _ => text

/-- A number without a point that has only zeros behind it, and at least one. -/
def withoutFraction (text : List Char) : List Char :=
  match text.dropWhile fun c => c != '.' with
  | _ :: zeros =>
      if !zeros.isEmpty && zeros.all fun c => c == '0' then text.takeWhile fun c => c != '.'
      else text
  | [] => text

def spelledNumber? (text : List Char) : Option Nat :=
  let size := Decimal.trimmed text
  let size :=
    match size with
    | '+' :: rest => rest
    | _ => size
  let digits := withoutFraction (withoutZeros size)
  if isSpacedNumber digits then some (Decimal.readNat (digits.filter Char.isDigit)) else none

def wholeFloat? (x : Float) : Option Int :=
  if x.isNaN || x.isInf then none
  else
    let size := Decimal.Binary.ofBits x.toBits
    let divisor := Nat.pow 2 (-size.exponent).toNat
    let count := size.mantissa * Nat.pow 2 size.exponent.toNat / divisor
    if size.mantissa % divisor = 0 && count < Nat.pow 2 63 then
      some (if x < 0.0 then -(Int.ofNat count) else Int.ofNat count)
    else none

/-- A depth limit: a whole number, however it is written. -/
def depthOf? : Value → Option Int
  | .bool b => some (if b then 1 else 0)
  | .int n => some n
  | .float x => wholeFloat? x
  | value => (textOf? value).bind fun text => (spelledNumber? text.toList).map Int.ofNat

def escapeOf? : Value → Option EscapeMode
  | .text "html" => some .html
  | .text "none" => some .none
  | _ => none

def set? (config : Config) (field : String) (value : Value) : Option Config :=
  match field with
  | "template_paths" =>
      (textsOf? value).map fun paths => { config with templatePaths := paths.map Path.ofString }
  | "suffix" => (textOf? value).map fun suffix => { config with suffix }
  | "separator" =>
      match textOf? value with
      | some separator => if separator.isEmpty then none else some { config with separator }
      | none => none
  | "escape" => (escapeOf? value).map fun escape => { config with escape }
  | "max_depth" =>
      match value with
      | .null => some { config with maxDepth := none }
      | _ =>
          match depthOf? value with
          | some depth => if 1 ≤ depth then some { config with maxDepth := some depth } else none
          | none => none
  | "pragmas" => (textsOf? value).map fun pragmas => { config with pragmas }
  | _ => none

/-- The name of a field, and the value that it has under that name if the name is a text. -/
def setKey? (config : Config) (key value : Value) : Option Config :=
  match key with
  | .text field => config.set? field value
  | _ => none

/-- Puts a name in its place among sorted names, once. -/
def insertSorted (name : String) : List String → List String
  | [] => [name]
  | other :: rest =>
      if name == other then other :: rest
      else if name < other then name :: other :: rest
      else other :: insertSorted name rest

def fieldName : Value → String
  | .text field => field
  | .bool b => if b then "1" else "0"
  | key => String.ofList key.inner

/-- Sets the fields of a mapping. The second component holds the fields that are rejected. -/
def setAll (config : Config) : List (Value × Value) → Config × List String
  | [] => (config, [])
  | (key, value) :: rest =>
      match config.setKey? key value with
      | some changed => changed.setAll rest
      | none =>
          let (others, rejected) := config.setAll rest
          (others, insertSorted (fieldName key) rejected)

/-- Accepts the entries of a mapping, or names the fields that it rejects. -/
def validate (entries : List (Value × Value)) : Except Rejection Config :=
  match standard.setAll entries with
  | (config, []) => .ok config
  | (_, rejected) => .error (.invalid rejected)

end Config

/-- The documents of the program: YAML, and the fields that are known. -/
def Documents.standard : Documents := ⟨Yaml.read, Config.validate⟩

instance : Inhabited Documents := ⟨.standard⟩

end Logicless
