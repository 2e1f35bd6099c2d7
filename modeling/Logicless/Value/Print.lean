import Logicless.Calendar.Print
import Logicless.Decimal.Format
import Logicless.Text.Quoted
import Logicless.Text.Utf8
import Logicless.Value

namespace Logicless

def Builtin.name : Builtin → String
  | .length => "len"
  | .print => "print"
  | .magnitude => "abs"
  | .method name => name

namespace Value

def commaSeparated : List (List Char) → List Char
  | [] => []
  | [only] => only
  | first :: rest => first ++ ',' :: ' ' :: commaSeparated rest

def intChars (n : Int) : List Char :=
  if n < 0 then '-' :: Decimal.natChars n.natAbs else Decimal.natChars n.natAbs

def portionWord : Portion → String
  | .keys => "dict_keys"
  | .values => "dict_values"
  | .items => "dict_items"

def dots : Value → List Char
  | .mapping _ => "\x7b...\x7d".toList
  | .tuple _ => "(...)".toList
  | .ordered _ => "...".toList
  | _ => "[...]".toList

mutual

/-- The text of a value inside a collection. `active` has the knots that are being printed, with
what stands for each of them. -/
def innerWithin (active : List (Nat × List Char)) : Value → List Char
  | .null => "None".toList
  | .bool b => (if b then "True" else "False").toList
  | .int n => intChars n
  | .float x => Decimal.standard.write x
  | .text s => Text.quoted s.toList
  | .bytes data => Text.quotedBytes data
  | .list items => '[' :: commaSeparated (innerItems active items) ++ [']']
  | .tuple items =>
      match innerItems active items with
      | [only] => '(' :: only ++ [',', ')']
      | shown => '(' :: commaSeparated shown ++ [')']
  | .set items =>
      match innerItems active items with
      | [] => "set()".toList
      | shown => '\x7b' :: commaSeparated shown ++ ['\x7d']
  | .mapping entries => '\x7b' :: commaSeparated (innerEntries active entries) ++ ['\x7d']
  | .ordered [] => "ordereddict()".toList
  | .ordered entries =>
      "ordereddict([".toList ++ commaSeparated (innerPairs active entries) ++ [']', ')']
  | .range start stop step =>
      "range(".toList ++ intChars start ++ ',' :: ' ' :: intChars stop ++
        (if step = 1 then [] else ',' :: ' ' :: intChars step) ++ [')']
  | .portion part items =>
      (portionWord part).toList ++
        '(' :: '[' :: commaSeparated (innerItems active items) ++ [']', ')']
  | .iterator .. => "<iterator>".toList
  | .object (.mk shown ..) => shown.toList
  | .function .. => "<function>".toList
  | .builtin known => "<built-in function ".toList ++ known.name.toList ++ ['>']
  | .type name => "<class '".toList ++ name.toList ++ ['\'', '>']
  | .calendar thing => thing.shown.toList
  | .knot label body =>
      match active.lookup label with
      | some dots => dots
      | none => innerWithin ((label, dots body) :: active) body
  | .again label => (active.lookup label).getD []
  | .cell _ content => innerWithin active content
termination_by structural value => value

def innerItems (active : List (Nat × List Char)) : List Value → List (List Char)
  | [] => []
  | item :: rest => innerWithin active item :: innerItems active rest
termination_by structural items => items

def innerEntries (active : List (Nat × List Char)) : List (Value × Value) → List (List Char)
  | [] => []
  | (key, value) :: rest =>
      (innerWithin active key ++ ':' :: ' ' :: innerWithin active value) :: innerEntries active rest
termination_by structural entries => entries

def innerPairs (active : List (Nat × List Char)) : List (Value × Value) → List (List Char)
  | [] => []
  | (key, value) :: rest =>
      ('(' :: innerWithin active key ++ ',' :: ' ' :: innerWithin active value ++ [')']) ::
        innerPairs active rest
termination_by structural entries => entries

end

def inner (value : Value) : List Char := innerWithin [] value

def printedChars : Value → List Char
  | .text s => s.toList
  | .calendar thing => thing.text.toList
  | value => inner value

def printed (value : Value) : String := String.ofList value.printedChars

/-- The text of a value where bytes are read as UTF-8, each ill-formed stretch becoming one
replacement character. -/
def decodedChars : Value → List Char
  | .bytes data => Text.decodeLossy data
  | value => value.printedChars

def decoded (value : Value) : String := String.ofList value.decodedChars

end Value

end Logicless
