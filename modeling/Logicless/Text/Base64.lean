namespace Logicless.Text

def sextet? (c : Char) : Option Nat :=
  if 'A' ≤ c && c ≤ 'Z' then some (c.toNat - 65)
  else if 'a' ≤ c && c ≤ 'z' then some (c.toNat - 71)
  else if '0' ≤ c && c ≤ '9' then some (c.toNat + 4)
  else if c = '+' then some 62
  else if c = '/' then some 63
  else none

def sextetBytes : List Nat → List UInt8
  | a :: b :: rest => UInt8.ofNat (4 * a + b / 16) :: more b rest
  | _ => []
where
  more (b : Nat) : List Nat → List UInt8
    | [] => []
    | [c] => [UInt8.ofNat (16 * (b % 16) + c / 4)]
    | c :: d :: _ => [UInt8.ofNat (16 * (b % 16) + c / 4), UInt8.ofNat (64 * (c % 4) + d)]

def base64From (group : List Nat) (signs : Nat) : List Char → Option (List UInt8)
  | [] => if group.isEmpty then some [] else none
  | c :: rest =>
      if c = '=' then
        if group.length < 2 then base64From group signs rest
        else if 4 ≤ group.length + signs + 1 then some (sextetBytes group)
        else base64From group (signs + 1) rest
      else
        match sextet? c with
        | none => base64From group signs rest
        | some sextet =>
            if group.length = 3 then
              (base64From [] 0 rest).map (sextetBytes (group ++ [sextet]) ++ ·)
            else base64From (group ++ [sextet]) 0 rest

/-- The bytes that a text stands for; it must not end amid a group. -/
def decodeBase64 (text : List Char) : Option (List UInt8) := base64From [] 0 text

example : decodeBase64 "TGVhbg==".toList = some [76, 101, 97, 110] := by decide

end Logicless.Text
