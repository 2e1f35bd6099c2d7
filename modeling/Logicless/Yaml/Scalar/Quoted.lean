import Logicless.Decimal.Reading
import Logicless.Yaml.Folding
import Logicless.Yaml.Problem

namespace Logicless.Yaml

/-- The effect of a line end, given what follows it. A document must not end between quotes. -/
def passLineEnd (folding : Folding) (following : List Char) : Except Problem Folding :=
  if isMarkerLine following then .error .malformed else .ok folding

/-- The text before the closing single quote, and how many characters were passed with the quote. -/
def scanSingle (folding : Folding) (passed : Nat) :
    List Char → Except Problem (List Char × Nat)
  | [] => .error .malformed
  | '\'' :: '\'' :: rest => scanSingle (folding.solid 0x27) (passed + 2) rest
  | '\'' :: _ => .ok (folding.text, passed + 1)
  | '\r' :: '\n' :: rest =>
      match passLineEnd (folding.lineEnd '\n') rest with
      | .ok next => scanSingle next (passed + 2) rest
      | .error problem => .error problem
  | c :: rest =>
      match lineBreak? [c] with
      | some (shown, _) =>
          match passLineEnd (folding.lineEnd shown) rest with
          | .ok next => scanSingle next (passed + 1) rest
          | .error problem => .error problem
      | none =>
          let next :=
            if c == ' ' || c == '\t' then folding.blank c.toNat else folding.solid c.toNat
          scanSingle next (passed + 1) rest

inductive DoubleMode where
  | text
  | escape
  | code (left value : Nat)
  deriving Repr, DecidableEq

def simpleEscapes : List (Char × Nat) :=
  [('0', 0x00), ('a', 0x07), ('b', 0x08), ('t', 0x09), ('\t', 0x09), ('n', 0x0A), ('v', 0x0B),
   ('f', 0x0C), ('r', 0x0D), ('e', 0x1B), (' ', 0x20), ('"', 0x22), ('/', 0x2F), ('\\', 0x5C),
   ('N', 0x85), ('_', 0xA0), ('L', 0x2028), ('P', 0x2029)]

def codeLength? (c : Char) : Option Nat :=
  if c == 'x' then some 2 else if c == 'u' then some 4 else if c == 'U' then some 8 else none

/-- A number that an escape sequence gives must be that of a character. -/
def checkedCode (code : Nat) : Except Problem Nat :=
  if code < 0x110000 then .ok code
  else if code < 0x80000000 then
    .error (.trouble (.illegible "chr() arg not in range(0x110000)"))
  else .error (.trouble (.overflow "Python int too large to convert to C int"))

def DoubleMode.lineEnd (mode : DoubleMode) (folding : Folding) (shown : Char) :
    Except Problem Folding :=
  match mode with
  | .text => .ok (folding.lineEnd shown)
  | .escape => .ok folding.escapedLineEnd
  | .code .. => .error .malformed

def DoubleMode.pass (mode : DoubleMode) (folding : Folding) (c : Char) :
    Except Problem (Folding × DoubleMode) :=
  match mode with
  | .text =>
      if c == '\\' then .ok (folding, .escape)
      else if c == ' ' || c == '\t' then .ok (folding.blank c.toNat, .text)
      else .ok (folding.solid c.toNat, .text)
  | .escape =>
      match codeLength? c, simpleEscapes.lookup c with
      | some length, _ => .ok (folding, .code length 0)
      | none, some known => .ok (folding.solid known, .text)
      | none, none => .error .malformed
  | .code left value =>
      match Decimal.hexValue? c with
      | none => .error .malformed
      | some digit =>
          let read := 16 * value + digit
          if 1 < left then .ok (folding, .code (left - 1) read)
          else (checkedCode read).map fun known => (folding.solid known, .text)

/-- The text before the closing double quote, and how many characters were passed with the quote. -/
def scanDouble (folding : Folding) (mode : DoubleMode) (passed : Nat) :
    List Char → Except Problem (List Char × Nat)
  | [] => .error .malformed
  | '\r' :: '\n' :: rest =>
      match (mode.lineEnd folding '\n').bind fun next => passLineEnd next rest with
      | .ok next => scanDouble next .text (passed + 2) rest
      | .error problem => .error problem
  | c :: rest =>
      if mode == .text && c == '"' then .ok (folding.text, passed + 1)
      else
        match lineBreak? [c] with
        | some (shown, _) =>
            match (mode.lineEnd folding shown).bind fun next => passLineEnd next rest with
            | .ok next => scanDouble next .text (passed + 1) rest
            | .error problem => .error problem
        | none =>
            match mode.pass folding c with
            | .ok (next, following) => scanDouble next following (passed + 1) rest
            | .error problem => .error problem

def quotedScalar (cursor : Cursor) : Except Problem (List Char × Cursor) :=
  let scanned :=
    match cursor.rest with
    | '\'' :: inner => scanSingle .start 1 inner
    | '"' :: inner => scanDouble .start .text 1 inner
    | _ => .error .malformed
  scanned.map fun (text, passed) => (text, cursor.skip passed)

end Logicless.Yaml
