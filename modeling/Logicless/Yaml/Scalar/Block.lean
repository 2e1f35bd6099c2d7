import Logicless.Yaml.Folding

namespace Logicless.Yaml

inductive Ending where
  | clip
  | strip
  | keep
  deriving Repr, DecidableEq

structure BlockHeader where
  folded : Bool
  ending : Ending
  depth : Option Nat
  deriving Repr, DecidableEq

namespace BlockHeader

def readEnding : List Char → Ending × List Char
  | '+' :: rest => (.keep, rest)
  | '-' :: rest => (.strip, rest)
  | text => (.clip, text)

def readDepth : List Char → Option (Option Nat × List Char)
  | c :: rest =>
      if c == '0' then none
      else if '1' ≤ c && c ≤ '9' then some (some (c.toNat - 48), rest)
      else some (none, c :: rest)
  | [] => some (none, [])

/-- The header behind the bar or the greater sign, and the place behind its marks. The ending and
the depth may come in either order. -/
def read (folded : Bool) (cursor : Cursor) : Option (BlockHeader × Cursor) :=
  let (first, behindEnding) := readEnding cursor.rest
  match readDepth behindEnding with
  | none => none
  | some (depth, behindDepth) =>
      let (ending, rest) :=
        if first = .clip && depth.isSome then readEnding behindDepth else (first, behindDepth)
      if isStop rest then
        let passed := (if ending = .clip then 0 else 1) + if depth.isSome then 1 else 0
        some (⟨folded, ending, depth⟩, cursor.skip passed)
      else none

end BlockHeader

structure BlankLines where
  breaks : List Char
  deepest : Nat
  firstColumn : Option Nat
  behind : Cursor
  deriving Repr, DecidableEq

def blankLines : Nat → Nat → Option Nat → Cursor → BlankLines
  | 0, deepest, firstColumn, cursor => ⟨[], deepest, firstColumn, cursor⟩
  | fuel + 1, deepest, firstColumn, cursor =>
      if cursor.head? == some ' ' then
        blankLines fuel (max deepest cursor.next.column) firstColumn cursor.next
      else
        match cursor.lineBreak? with
        | none => ⟨[], deepest, firstColumn, cursor⟩
        | some (c, next) =>
            let found := blankLines fuel deepest (firstColumn.or (some cursor.column)) next
            { found with breaks := c :: found.breaks }

/-- Whether the first line without text is indented less than a later one, and yet indented. -/
def BlankLines.isUneven (lines : BlankLines) : Bool :=
  match lines.firstColumn with
  | some column => 0 < column && column < lines.deepest
  | none => false

def indentTo (column : Nat) : Nat → Cursor → Cursor
  | 0, cursor => cursor
  | fuel + 1, cursor =>
      if cursor.column < column && cursor.head? == some ' ' then indentTo column fuel cursor.next
      else cursor

def blockBreaks (indent : Nat) : Nat → Cursor → List Char × Cursor
  | 0, cursor => ([], cursor)
  | fuel + 1, cursor =>
      let here := indentTo indent indent cursor
      match here.lineBreak? with
      | none => ([], here)
      | some (c, next) =>
          let (more, behind) := blockBreaks indent fuel next
          (c :: more, behind)

def startsBlank (text : List Char) : Bool :=
  match text with
  | c :: _ => c == ' ' || c == '\t'
  | [] => false

/-- What follows a line of text: its own line end, the ones behind it, and the place after them. -/
structure LineTail where
  lineEnd : List Char
  breaks : List Char
  behind : Cursor
  deriving Repr, DecidableEq

def BlockHeader.finish (header : BlockHeader) (tail : LineTail) : List Char :=
  match header.ending with
  | .strip => []
  | .clip => tail.lineEnd
  | .keep => tail.lineEnd ++ tail.breaks

def BlockHeader.joint (header : BlockHeader) (line : List Char) (tail : LineTail) : List Char :=
  let startsBlank := startsBlank line || startsBlank tail.behind.rest
  if header.folded && tail.lineEnd == ['\n'] && !startsBlank then
    if tail.breaks.isEmpty then [' '] else tail.breaks
  else tail.lineEnd ++ tail.breaks

structure BlockPlace where
  indent : Nat
  isOutermost : Bool
  deriving Repr, DecidableEq

def BlockPlace.continues (place : BlockPlace) (cursor : Cursor) : Bool :=
  cursor.column == place.indent && !cursor.isFinished

def BlockHeader.lines (header : BlockHeader) (place : BlockPlace) :
    Nat → Cursor → List Char × Cursor
  | 0, cursor => ([], cursor)
  | fuel + 1, cursor =>
      let line := cursor.run fun c => !isBreak c
      let lineEnd := cursor.skip line.length
      let (shown, next) :=
        match lineEnd.lineBreak? with
        | some (c, next) => ([c], next)
        | none => ([], lineEnd)
      let (breaks, behind) := blockBreaks place.indent fuel next
      let tail : LineTail := ⟨shown, breaks, behind⟩
      let ends := place.isOutermost && (behind.isMarker '-' || behind.isMarker '.')
      if place.continues behind && !ends then
        let (rest, last) := header.lines place fuel behind
        (line ++ header.joint line tail ++ rest, last)
      else (line ++ header.finish tail, behind)

def BlockHeader.body (header : BlockHeader) (place : BlockPlace) (breaks : List Char)
    (cursor : Cursor) : List Char × Cursor :=
  if place.continues cursor then
    let (text, behind) := header.lines place (cursor.rest.length + 1) cursor
    (breaks ++ text, behind)
  else (header.finish ⟨[], breaks, cursor⟩, cursor)

/-- A block scalar at the cursor, in a collection with the given indentation, and the place behind
it. -/
def blockScalar (indent : Int) (cursor : Cursor) : Option (List Char × Cursor) := do
  let (header, behind) ← BlockHeader.read (cursor.head? == some '>') cursor.next
  let first ← behind.finishLine?
  let least := (indent + 1).toNat
  match header.depth with
  | some depth =>
      let column := max 1 least + depth - 1
      let (breaks, here) := blockBreaks column (first.rest.length + 1) first
      return header.body ⟨column, false⟩ breaks here
  | none =>
      let found := blankLines (first.rest.length + 1) 0 none first
      if found.isUneven then none
      else
        let column := max least found.deepest
        return header.body ⟨column, least == 0⟩ found.breaks found.behind

end Logicless.Yaml
