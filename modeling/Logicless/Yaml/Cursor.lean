namespace Logicless.Yaml

def isBreak (c : Char) : Bool :=
  c == '\n' || c == '\r' || c == '\u0085' || c == '\u2028' || c == '\u2029'

def isLineEnd : List Char → Bool
  | [] => true
  | c :: _ => isBreak c

def isGap : List Char → Bool
  | [] => true
  | c :: _ => c == ' ' || c == '\t' || isBreak c

def isStop : List Char → Bool
  | [] => true
  | c :: _ => c == ' ' || isBreak c

/-- A line end as it stands in a text, and how many characters it takes. The separators of lines and
paragraphs stand for themselves, all others for a line feed. -/
def lineBreak? : List Char → Option (Char × Nat)
  | '\r' :: '\n' :: _ => some ('\n', 2)
  | c :: _ =>
      if c == '\u2028' || c == '\u2029' then some (c, 1)
      else if isBreak c then some ('\n', 1)
      else none
  | [] => none

def isTriple (mark : Char) : List Char → Bool
  | a :: b :: c :: rest => a == mark && b == mark && c == mark && isGap rest
  | _ => false

def isMarkerLine (text : List Char) : Bool := isTriple '-' text || isTriple '.' text

structure Cursor where
  index : Nat
  line : Nat
  column : Nat
  rest : List Char
  deriving Repr, DecidableEq

namespace Cursor

def start (text : List Char) : Cursor := ⟨0, 0, 0, text⟩

def next (cursor : Cursor) : Cursor :=
  match cursor.rest with
  | [] => cursor
  | c :: rest =>
      if c == '\n' || (c == '\r' && rest.head? != some '\n') then
        ⟨cursor.index + 1, cursor.line + 1, 0, rest⟩
      else if c == '\uFEFF' then ⟨cursor.index + 1, cursor.line, cursor.column, rest⟩
      else ⟨cursor.index + 1, cursor.line, cursor.column + 1, rest⟩

def skip (cursor : Cursor) : Nat → Cursor
  | 0 => cursor
  | count + 1 => cursor.next.skip count

def head? (cursor : Cursor) : Option Char := cursor.rest.head?

def isFinished (cursor : Cursor) : Bool := cursor.rest.isEmpty

def run (cursor : Cursor) (belongs : Char → Bool) : List Char := cursor.rest.takeWhile belongs

def skipRun (cursor : Cursor) (belongs : Char → Bool) : Cursor :=
  cursor.skip (cursor.run belongs).length

def skipSpaces (cursor : Cursor) : Cursor := cursor.skipRun fun c => c == ' '

def skipLine (cursor : Cursor) : Cursor := cursor.skipRun fun c => !isBreak c

def lineBreak? (cursor : Cursor) : Option (Char × Cursor) :=
  (Yaml.lineBreak? cursor.rest).map fun (c, width) => (c, cursor.skip width)

def isMarker (mark : Char) (cursor : Cursor) : Bool :=
  cursor.column == 0 && isTriple mark cursor.rest

def skipBlanks (cursor : Cursor) (tabs : Bool) : Cursor :=
  cursor.skipRun fun c => c == ' ' || (tabs && c == '\t')

/-- The end of the line if nothing but spaces and a comment come before it. -/
def finishLine? (cursor : Cursor) : Option Cursor :=
  let spaced := cursor.skipSpaces
  let behind := if spaced.head? == some '#' then spaced.skipLine else spaced
  if isLineEnd behind.rest then
    match behind.lineBreak? with
    | some (_, next) => some next
    | none => some behind
  else none

end Cursor

end Logicless.Yaml
