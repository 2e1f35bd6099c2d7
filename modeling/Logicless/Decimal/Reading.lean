import Logicless.Text.Digits

namespace Logicless.Decimal

def readNat (digits : List Char) : Nat :=
  digits.foldl (fun value c => 10 * value + (c.toNat - 48)) 0

def spanDigits (text : List Char) : List Char × List Char :=
  (text.takeWhile Char.isDigit, text.dropWhile Char.isDigit)

def readSign : List Char → Bool × List Char
  | '-' :: rest => (true, rest)
  | '+' :: rest => (false, rest)
  | text => (false, text)

def plainDigit (c : Char) : Char :=
  match Text.digitValue? c with
  | some value => Char.ofNat (48 + value)
  | none => c

def isMargin (c : Char) : Bool := Text.isBlank c && !(0x1C ≤ c.toNat && c.toNat ≤ 0x1F)

def trimmed (text : List Char) : List Char :=
  ((text.dropWhile isMargin).reverse.dropWhile isMargin).reverse

def plain (text : List Char) : List Char := (trimmed text).map plainDigit

/-- The text without its underscores, each of which must stand between two digits. -/
def joined? (isDigit : Char → Bool) : List Char → Option (List Char)
  | [] => some []
  | '_' :: _ => none
  | c :: '_' :: d :: rest =>
      if isDigit c && isDigit d then (joined? isDigit (d :: rest)).map (c :: ·) else none
  | c :: rest => (joined? isDigit rest).map (c :: ·)

def hexValue? (c : Char) : Option Nat :=
  if '0' ≤ c && c ≤ '9' then some (c.toNat - 48)
  else if 'a' ≤ c && c ≤ 'f' then some (c.toNat - 87)
  else if 'A' ≤ c && c ≤ 'F' then some (c.toNat - 55)
  else none

def readRow? (base : Nat) (digits : List Char) : Option Nat :=
  if digits.isEmpty then none
  else
    digits.foldl (fun value c =>
      match value, hexValue? c with
      | some value, some digit => if digit < base then some (base * value + digit) else none
      | _, _ => none) (some 0)

def baseMark? (base : Nat) : Option Char :=
  match base with
  | 2 => some 'b'
  | 8 => some 'o'
  | 16 => some 'x'
  | _ => none

def unmarked (base : Nat) (digits : List Char) : List Char :=
  match digits, baseMark? base with
  | '0' :: c :: rest, some mark => if c.toLower = mark then rest else digits
  | _, _ => digits

def readWhole? (base : Nat) (text : List Char) : Option Int :=
  let (negative, size) := readSign (plain text)
  ((joined? Char.isAlphanum (unmarked base size)).bind (readRow? base)).map fun size : Nat =>
    if negative then -(Int.ofNat size) else Int.ofNat size

def readInt? (text : List Char) : Option Int :=
  let (negative, rest) := readSign text
  let (digits, after) := spanDigits rest
  if digits.isEmpty || !after.isEmpty then none
  else some (if negative then -(Int.ofNat (readNat digits)) else Int.ofNat (readNat digits))

def readExponent? : List Char → Option Int
  | [] => some 0
  | c :: rest => if c = 'e' || c = 'E' then readInt? rest else none

/-- Powers of ten beyond any binary64 number, used in place of larger ones. -/
def exponentBound : Int := 5000

def nearest (mantissa : Nat) (exponent : Int) : Float :=
  let bound := exponentBound + (Nat.toDigits 10 mantissa).length
  let clamped := max (-bound) (min bound exponent)
  Float.ofScientific mantissa (clamped < 0) clamped.natAbs

def readUnsigned? (text : List Char) : Option Float :=
  let (whole, afterWhole) := spanDigits text
  let (fraction, rest) :=
    match afterWhole with
    | '.' :: more => spanDigits more
    | other => ([], other)
  if whole.isEmpty && fraction.isEmpty then none
  else
    (readExponent? rest).map fun exponent =>
      nearest (readNat (whole ++ fraction)) (exponent - Int.ofNat fraction.length)

def readFloat? (text : List Char) : Option Float :=
  let (negative, rest) := readSign (plain text)
  let lower := String.ofList (rest.map Char.toLower)
  let size :=
    if lower == "inf" || lower == "infinity" then some (1.0 / 0.0)
    else if lower == "nan" then some (0.0 / 0.0)
    else (joined? Char.isDigit rest).bind readUnsigned?
  size.map fun x => if negative then -x else x

end Logicless.Decimal
