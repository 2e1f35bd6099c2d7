import Logicless.Text.Hexadecimal

namespace Logicless

inductive Json where
  | null
  | text (s : String)
  | array (items : List Json)
  | object (members : List (String × Json))

namespace Json

def stringChar (c : Char) : List Char :=
  if c = '"' then ['\\', '"']
  else if c = '\\' then ['\\', '\\']
  else if c = '\n' then ['\\', 'n']
  else if c = '\r' then ['\\', 'r']
  else if c = '\t' then ['\\', 't']
  else if c.toNat = 0x08 then ['\\', 'b']
  else if c.toNat = 0x0C then ['\\', 'f']
  else if c.toNat < 0x20 then
    '\\' :: 'u' :: Text.hexDigits 4 c.toNat
  else [c]

def string (s : String) : List Char := '"' :: s.toList.flatMap stringChar ++ ['"']

def newline (depth : Nat) : List Char := '\n' :: List.replicate (2 * depth) ' '

def lines (depth : Nat) : List (List Char) → List Char
  | [] => []
  | [last] => newline depth ++ last
  | first :: rest => newline depth ++ first ++ ',' :: lines depth rest

mutual

def write (depth : Nat) : Json → List Char
  | .null => "null".toList
  | .text s => string s
  | .array items =>
      match writeItems (depth + 1) items with
      | [] => ['[', ']']
      | written => '[' :: lines (depth + 1) written ++ newline depth ++ [']']
  | .object members =>
      match writeMembers (depth + 1) members with
      | [] => ['\x7b', '\x7d']
      | written => '\x7b' :: lines (depth + 1) written ++ newline depth ++ ['\x7d']

def writeItems (depth : Nat) : List Json → List (List Char)
  | [] => []
  | item :: rest => write depth item :: writeItems depth rest

def writeMembers (depth : Nat) : List (String × Json) → List (List Char)
  | [] => []
  | (name, value) :: rest =>
      (string name ++ ':' :: ' ' :: write depth value) :: writeMembers depth rest

end

def pretty (json : Json) : String := String.ofList (write 0 json)

end Json

end Logicless
