import Logicless.Yaml.Node
import Logicless.Yaml.Number
import Logicless.Yaml.Timestamp

namespace Logicless.Yaml

/-- Whether a text is a word of a class, with a digit at its start if `start` demands one. -/
def isRow (belongs : Char → Bool) (text : List Char) : Bool := !text.isEmpty && text.all belongs

def isDigitOrGap (c : Char) : Bool := c.isDigit || c == '_'

def unsigned : List Char → List Char
  | '+' :: rest => rest
  | '-' :: rest => rest
  | text => text

def isExponent (needsSign : Bool) : List Char → Bool
  | e :: rest =>
      (e == 'e' || e == 'E') && (!needsSign || unsigned rest != rest) &&
        isRow Char.isDigit (unsigned rest)
  | [] => false

/-- A row of digits, with or without a point, and with a power of ten if there is no point. -/
def isDecimal (text : List Char) : Bool :=
  (text.head?.any Char.isDigit) &&
    match text.dropWhile isDigitOrGap with
    | '.' :: rest =>
        let behind := rest.dropWhile isDigitOrGap
        behind.isEmpty || isExponent false behind
    | behind => isExponent false behind

def isBareFraction : List Char → Bool
  | '.' :: rest =>
      let behind := rest.dropWhile isDigitOrGap
      behind.length < rest.length && (behind.isEmpty || isExponent true behind)
  | _ => false

def arePlaces (places : List (List Char)) : Bool :=
  !places.isEmpty && places.all fun place =>
    match place with
    | [c] => c.isDigit
    | [c, d] => '0' ≤ c && c ≤ '5' && d.isDigit
    | _ => false

def isSexagesimal (text : List Char) : Bool :=
  match Number.places text with
  | first :: rest => first.head?.any Char.isDigit && first.all isDigitOrGap && arePlaces rest
  | [] => false

def isSexagesimalFraction (text : List Char) : Bool :=
  match text.dropWhile (· != '.') with
  | _ :: fraction => isSexagesimal (text.takeWhile (· != '.')) && fraction.all isDigitOrGap
  | [] => false

def isWordOf (words : List String) (text : List Char) : Bool := words.contains (String.ofList text)

def isFloat (isLegacy : Bool) (text : List Char) : Bool :=
  let size := unsigned text
  isDecimal size || isBareFraction (if isLegacy then text else size) ||
    (isLegacy && isSexagesimalFraction size) ||
    isWordOf [".inf", ".Inf", ".INF"] size || isWordOf [".nan", ".NaN", ".NAN"] text

def isWhole (isLegacy : Bool) (size : List Char) : Bool :=
  match size with
  | '0' :: 'b' :: rest => isRow (fun c => c == '0' || c == '1' || c == '_') rest
  | '0' :: 'x' :: rest => isRow (fun c => (Decimal.hexValue? c).isSome || c == '_') rest
  | '0' :: 'o' :: rest => !isLegacy && isRow isOctalOrGap rest
  | _ =>
      if isLegacy then
        isRow isOctalOrGap size ||
          (size.head?.any (fun c => '1' ≤ c && c ≤ '9') &&
            (size.all isDigitOrGap || isSexagesimal size))
      else isRow isDigitOrGap size
where
  isOctalOrGap (c : Char) : Bool := ('0' ≤ c && c ≤ '7') || c == '_'

def boolWords : List String := ["true", "True", "TRUE", "false", "False", "FALSE"]

def legacyBoolWords : List String :=
  ["y", "Y", "yes", "Yes", "YES", "n", "N", "no", "No", "NO", "on", "On", "ON", "off", "Off",
   "OFF"] ++ boolWords

/-- The type of a word that begins with the given character. A line end behind the word does not
count. -/
def Tag.ofSpelling (isLegacy : Bool) (first : Char) (text : List Char) : Tag :=
  let word := withoutLastBreak text
  let mayBeNumber := first.isDigit || first == '-' || first == '+'
  if isWordOf (if isLegacy then legacyBoolWords else boolWords) word then .bool
  else if (mayBeNumber || first == '.') && isFloat isLegacy word then .float
  else if mayBeNumber && isWhole isLegacy (unsigned word) then .int
  else if isWordOf ["<<"] word then .merge
  else if isWordOf ["~", "null", "Null", "NULL"] word then .null
  else if Timestamp.isWord word then .timestamp
  else if isWordOf ["="] word then .value
  else .str

def Tag.ofWord (version : Version) (text : List Char) : Except Problem Tag :=
  if version != (1, 1) && version != (1, 2) then .error (.trouble .missingKey)
  else
    match text with
    | [] => .ok .null
    | first :: _ => .ok (Tag.ofSpelling (version == (1, 1)) first text)

end Logicless.Yaml
