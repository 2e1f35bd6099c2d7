namespace Logicless.Text

inductive Utf8Flaw where
  | badStart
  | badContinuation
  | cutShort
  deriving Repr, DecidableEq

inductive Utf8Unit where
  | char (c : Char)
  | flaw (flaw : Utf8Flaw) (width : Nat)
  deriving Repr, DecidableEq

def isContinuation (byte : UInt8) : Bool := 0x80 ≤ byte && byte ≤ 0xBF

/-- Whether the second byte of a character may follow the first: this excludes overlong forms,
surrogates and numbers above U+10FFFF. -/
def isSecond (first second : UInt8) : Bool :=
  if first == 0xE0 then 0xA0 ≤ second && second ≤ 0xBF
  else if first == 0xED then 0x80 ≤ second && second ≤ 0x9F
  else if first == 0xF0 then 0x90 ≤ second && second ≤ 0xBF
  else if first == 0xF4 then 0x80 ≤ second && second ≤ 0x8F
  else isContinuation second

def lowBits (byte : UInt8) : Nat := byte.toNat % 64

def utf8Units : List UInt8 → List Utf8Unit
  | [] => []
  | first :: rest =>
      if first < 0x80 then .char (Char.ofNat first.toNat) :: utf8Units rest
      else if first < 0xC2 || 0xF4 < first then .flaw .badStart 1 :: utf8Units rest
      else
        match rest with
        | [] => [.flaw .cutShort 1]
        | second :: rest2 =>
            if !isSecond first second then .flaw .badContinuation 1 :: utf8Units (second :: rest2)
            else if first < 0xE0 then
              .char (Char.ofNat (first.toNat % 32 * 64 + lowBits second)) :: utf8Units rest2
            else
              match rest2 with
              | [] => [.flaw .cutShort 2]
              | third :: rest3 =>
                  if !isContinuation third then
                    .flaw .badContinuation 2 :: utf8Units (third :: rest3)
                  else if first < 0xF0 then
                    .char (Char.ofNat
                      ((first.toNat % 16 * 64 + lowBits second) * 64 + lowBits third)) ::
                      utf8Units rest3
                  else
                    match rest3 with
                    | [] => [.flaw .cutShort 3]
                    | fourth :: rest4 =>
                        if !isContinuation fourth then
                          .flaw .badContinuation 3 :: utf8Units (fourth :: rest4)
                        else
                          .char (Char.ofNat (((first.toNat % 8 * 64 + lowBits second) * 64 +
                            lowBits third) * 64 + lowBits fourth)) :: utf8Units rest4

structure Utf8Fault where
  flaw : Utf8Flaw
  position : Nat
  width : Nat
  byte : UInt8
  deriving Repr, DecidableEq

def charsOfUnits (bytes : List UInt8) (position : Nat) :
    List Utf8Unit → Except Utf8Fault (List Char)
  | [] => .ok []
  | .char c :: rest =>
      match charsOfUnits bytes (position + c.utf8Size) rest with
      | .ok chars => .ok (c :: chars)
      | .error fault => .error fault
  | .flaw flaw width :: _ => .error ⟨flaw, position, width, (bytes[position]?).getD 0⟩

def decodeUtf8 (bytes : List UInt8) : Except Utf8Fault (List Char) :=
  charsOfUnits bytes 0 (utf8Units bytes)

def decodeLossy (bytes : List UInt8) : List Char :=
  (utf8Units bytes).map fun
    | .char c => c
    | .flaw _ _ => '\uFFFD'

/-- Line ends written as carriage return, or as carriage return and line feed, become line feeds. -/
def plainNewlines : List Char → List Char
  | [] => []
  | '\r' :: '\n' :: rest => '\n' :: plainNewlines rest
  | '\r' :: rest => '\n' :: plainNewlines rest
  | c :: rest => c :: plainNewlines rest

end Logicless.Text
