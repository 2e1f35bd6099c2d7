import Logicless.Decimal.Reading
import Logicless.Text.Quoted
import Logicless.Yaml.Lexeme
import Logicless.Yaml.Problem

namespace Logicless.Yaml

namespace Number

def illegible {α : Type} (reason : String) (text : List Char) : Except Problem α :=
  .error (.trouble (.illegible (reason ++ String.ofList (Text.quoted text))))

def whole (base : Nat) (text : List Char) : Except Problem Int :=
  match Decimal.readWhole? base text with
  | some number => .ok number
  | none => illegible ("invalid literal for int() with base " ++ toString base ++ ": ") text

def floating (text : List Char) : Except Problem Float :=
  match Decimal.readFloat? text with
  | some number => .ok number
  | none => illegible "could not convert string to float: " text

def places (text : List Char) : List (List Char) :=
  let part := text.takeWhile (· != ':')
  match _shape : text.dropWhile (· != ':') with
  | [] => [part]
  | _ :: rest => part :: places rest
termination_by text.length
decreasing_by
  have shorter := (List.dropWhile_suffix (p := (· != ':')) (l := text)).length_le
  rw [_shape] at shorter
  exact shorter

/-- Whether a number without underscores is negative, and its size as it is written. A text without
any character is none. -/
def parted (text : List Char) : Except Problem (Bool × List Char) :=
  match text with
  | [] => .error (.trouble .missingItem)
  | '-' :: rest => .ok (true, rest)
  | '+' :: rest => .ok (false, rest)
  | _ => .ok (false, text)

def intSize (version : Version) (text : List Char) : Except Problem Int :=
  match text with
  | '0' :: 'b' :: rest => whole 2 rest
  | '0' :: 'x' :: rest => whole 16 rest
  | '0' :: 'o' :: rest => whole 8 rest
  | _ =>
      if version != (1, 1) || text == ['0'] then whole 10 text
      else
        match text with
        | [] => .error (.trouble .missingItem)
        | '0' :: _ => whole 8 text
        | _ =>
            ((places text).mapM (whole 10)).map fun digits =>
              digits.foldl (fun number digit => 60 * number + digit) 0

def int (version : Version) (text : List Char) : Except Problem Value := do
  let (negative, size) ← parted (text.filter (· != '_'))
  let size ← intSize version size
  return .int (if negative then -size else size)

def floatSize (version : Version) (text : List Char) : Except Problem Float :=
  if text == ".inf".toList then .ok (1.0 / 0.0)
  else if text == ".nan".toList then .ok (0.0 / 0.0)
  else if version != (1, 2) && text.contains ':' then
    ((places text).mapM floating).map fun digits =>
      (digits.reverse.foldl (fun (number, base) digit => (number + digit * base, base * 60.0))
        (0.0, 1.0)).1
  else floating text

def float (version : Version) (text : List Char) : Except Problem Value := do
  let (negative, size) ← parted ((text.filter (· != '_')).map Char.toLower)
  let size ← floatSize version size
  return .float (if negative then -size else size)

end Number

end Logicless.Yaml
