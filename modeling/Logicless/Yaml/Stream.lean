import Logicless.Yaml.Property
import Logicless.Yaml.Scalar.Block
import Logicless.Yaml.Scalar.Plain
import Logicless.Yaml.Scalar.Quoted

namespace Logicless.Yaml

/-!
The stream of tokens of a YAML document.

Tokens are read one by one as somebody asks for them. Only a colon tells that what stands before it
is a key, so a token that may begin a key is given out only when that is settled; `PendingKey` says
what is not settled yet. A key must end on the line on which it begins and within `keyLimit`
characters. Outside brackets the column of a token decides which collections begin and end there
(`unwind`, `indentTo`); inside brackets it means nothing.
-/

structure PendingKey where
  /-- How many tokens stand before it. -/
  number : Nat
  /-- Nothing but a key can stand here. -/
  isRequired : Bool
  index : Nat
  line : Nat
  column : Nat
  deriving Repr, DecidableEq

def keyLimit : Nat := 1024

inductive Bracket where
  | sequence
  | mapping
  deriving Repr, DecidableEq

structure Stream where
  cursor : Cursor
  isFinished : Bool
  /-- The tokens that were read but not given out yet. -/
  queue : List Lexeme
  taken : Nat
  /-- The column of the innermost collection that is told by its column. -/
  indent : Int
  /-- The columns of the collections around it, innermost first. -/
  outer : List Int
  /-- The brackets around the cursor, innermost first. -/
  brackets : List Bracket
  keyAllowed : Bool
  /-- The pending keys by the number of brackets around them. -/
  pending : List (Nat × PendingKey)
  version : Version
  /-- A bound on the number of characters and of tokens. -/
  limit : Nat
  deriving Repr, DecidableEq

namespace Stream

def start (text : List Char) : Stream where
  cursor := Cursor.start (match text with
    | '\uFEFF' :: rest => rest
    | _ => text)
  isFinished := false
  queue := []
  taken := 0
  indent := -1
  outer := []
  brackets := []
  keyAllowed := true
  pending := []
  version := (1, 2)
  limit := text.length + 2

def isLegacy (stream : Stream) : Bool := stream.version == (1, 1)

def isLater (stream : Stream) : Bool :=
  1 < stream.version.1 || (stream.version.1 == 1 && 1 < stream.version.2)

def inBrackets (stream : Stream) : Bool := !stream.brackets.isEmpty

def depth (stream : Stream) : Nat := stream.brackets.length

def emit (stream : Stream) (lexeme : Lexeme) : Stream :=
  { stream with queue := stream.queue ++ [lexeme] }

def pass (stream : Stream) (count : Nat) : Stream :=
  { stream with cursor := stream.cursor.skip count }

def moveTo (stream : Stream) (cursor : Cursor) : Stream := { stream with cursor }

def allowKey (stream : Stream) (keyAllowed : Bool) : Stream := { stream with keyAllowed }

/-- Whether a pending key can no longer be one. -/
def isStale (stream : Stream) (key : PendingKey) : Bool :=
  key.line != stream.cursor.line || keyLimit < stream.cursor.index - key.index

/-- Drops the pending keys that can no longer be keys; none of them may be required. -/
def dropStale (stream : Stream) : Except Problem Stream :=
  if stream.pending.any fun entry => stream.isStale entry.2 && entry.2.isRequired then
    .error .malformed
  else
    .ok { stream with pending := stream.pending.filter fun entry => !stream.isStale entry.2 }

def pendingKey? (stream : Stream) : Option PendingKey := stream.pending.lookup stream.depth

/-- Drops the pending key among as many brackets as now, which must not be required. -/
def dropPending (stream : Stream) : Except Problem Stream :=
  if stream.pendingKey?.any fun key => key.isRequired then .error .malformed
  else
    .ok { stream with pending := stream.pending.filter fun entry => entry.1 != stream.depth }

def notePending (stream : Stream) : Except Problem Stream :=
  if stream.keyAllowed then
    stream.dropPending.map fun stream =>
      let cursor := stream.cursor
      let isRequired := !stream.inBrackets && stream.indent == Int.ofNat cursor.column
      let key : PendingKey :=
        ⟨stream.taken + stream.queue.length, isRequired, cursor.index, cursor.line, cursor.column⟩
      { stream with pending := (stream.depth, key) :: stream.pending }
  else .ok stream

def insertBefore (stream : Stream) (key : PendingKey) (lexeme : Lexeme) : Stream :=
  let place := key.number - stream.taken
  { stream with queue := stream.queue.take place ++ lexeme :: stream.queue.drop place }

def unwindFrom (column : Int) : List Int → Stream → Stream
  | [], stream => stream
  | last :: rest, stream =>
      if column < stream.indent then
        unwindFrom column rest ({ stream with indent := last, outer := rest }.emit .blockEnd)
      else stream

/-- Ends the collections whose column is right of the given one; inside brackets there are none. -/
def unwind (stream : Stream) (column : Int) : Stream :=
  if stream.inBrackets then stream else unwindFrom column stream.outer stream

/-- Notes that a collection begins in a column if it is right of the innermost one, and tells
whether it is. -/
def indentTo (stream : Stream) (column : Nat) : Stream × Bool :=
  if stream.indent < Int.ofNat column then
    ({ stream with indent := Int.ofNat column, outer := stream.indent :: stream.outer }, true)
  else (stream, false)

/-- Passes spaces, line ends and comments up to the next token. Outside brackets a key may begin on
every line. -/
def seekFrom : Nat → Stream → Stream
  | 0, stream => stream
  | fuel + 1, stream =>
      let spaced := stream.cursor.skipBlanks stream.inBrackets
      let behind := if spaced.head? == some '#' then spaced.skipLine else spaced
      match behind.lineBreak? with
      | none => stream.moveTo behind
      | some (_, next) =>
          seekFrom fuel ((stream.moveTo next).allowKey (stream.keyAllowed || !stream.inBrackets))

def seek (stream : Stream) : Stream := seekFrom stream.limit stream

def readEnd (stream : Stream) : Except Problem Stream :=
  (stream.unwind (-1)).dropPending.map fun stream =>
    { stream.emit .streamEnd with keyAllowed := false, pending := [], isFinished := true }

def readDirective (stream : Stream) : Except Problem Stream := do
  let stream ← (stream.unwind (-1)).dropPending
  let (directive, behind) ← orMalformed (directiveLine stream.isLater stream.cursor)
  let version :=
    match directive with
    | .version version => version
    | _ => stream.version
  return { (stream.moveTo behind).emit (.directive directive) with keyAllowed := false, version }

def readMarker (stream : Stream) (lexeme : Lexeme) : Except Problem Stream :=
  (stream.unwind (-1)).dropPending.map fun stream =>
    ((stream.allowKey false).pass 3).emit lexeme

def readOpening (stream : Stream) (bracket : Bracket) (lexeme : Lexeme) :
    Except Problem Stream :=
  stream.notePending.map fun stream =>
    ({ stream with brackets := bracket :: stream.brackets, keyAllowed := true }.pass 1).emit lexeme

def readClosing (stream : Stream) (lexeme : Lexeme) : Except Problem Stream :=
  stream.dropPending.map fun stream =>
    ({ stream with brackets := stream.brackets.tail, keyAllowed := false }.pass 1).emit lexeme

def readComma (stream : Stream) : Except Problem Stream :=
  stream.dropPending.map fun stream => ((stream.allowKey true).pass 1).emit .comma

/-- Begins a collection in the column of the cursor if it is right of the innermost one. A token
that needs a line of its own must stand where a key may begin. -/
def openBlock (stream : Stream) (lexeme : Lexeme) : Except Problem Stream :=
  if stream.inBrackets then .ok stream
  else if !stream.keyAllowed then .error .malformed
  else
    let (stream, isNew) := stream.indentTo stream.cursor.column
    .ok (if isNew then stream.emit lexeme else stream)

def readItem (stream : Stream) : Except Problem Stream := do
  let stream ← stream.openBlock .blockSequenceStart
  let stream ← (stream.allowKey true).dropPending
  return (stream.pass 1).emit .item

def readKey (stream : Stream) : Except Problem Stream := do
  let stream ← stream.openBlock .blockMappingStart
  let stream ← (stream.allowKey (!stream.inBrackets)).dropPending
  return (stream.pass 1).emit .key

def settleKey (stream : Stream) (key : PendingKey) : Stream :=
  let settled :=
    { stream with
      keyAllowed := false
      pending := stream.pending.filter fun entry => entry.1 != stream.depth }.insertBefore key .key
  if stream.inBrackets then settled
  else
    let (settled, isNew) := settled.indentTo key.column
    if isNew then settled.insertBefore key .blockMappingStart else settled

def readValue (stream : Stream) : Except Problem Stream := do
  let stream ←
    match stream.pendingKey? with
    | some key => pure (stream.settleKey key)
    | none => do
        let stream ← stream.openBlock .blockMappingStart
        (stream.allowKey (!stream.inBrackets)).dropPending
  return (stream.pass 1).emit .value

def readLeaf (stream : Stream) (read : Cursor → Except Problem (Lexeme × Cursor)) :
    Except Problem Stream := do
  let stream ← stream.notePending
  let (lexeme, behind) ← read stream.cursor
  return ((stream.allowKey false).moveTo behind).emit lexeme

def readAlias (stream : Stream) : Except Problem Stream :=
  stream.readLeaf fun cursor =>
    (orMalformed (anchorName cursor)).map fun (name, behind) => (.reference name, behind)

def readAnchor (stream : Stream) : Except Problem Stream :=
  stream.readLeaf fun cursor =>
    (orMalformed (anchorName cursor)).map fun (name, behind) => (.anchor name, behind)

def readTag (stream : Stream) : Except Problem Stream :=
  stream.readLeaf fun cursor =>
    (orMalformed (tagName stream.isLater cursor)).map fun (name, behind) => (.tag name, behind)

def readQuoted (stream : Stream) : Except Problem Stream :=
  stream.readLeaf fun cursor =>
    (quotedScalar cursor).map fun (text, behind) => (.scalar false text, behind)

def readBlock (stream : Stream) : Except Problem Stream := do
  let stream ← (stream.allowKey true).dropPending
  let (text, behind) ← orMalformed (blockScalar stream.indent stream.cursor)
  return (stream.moveTo behind).emit (.scalar false text)

def plainSetting (stream : Stream) : PlainSetting := ⟨stream.inBrackets, stream.isLegacy⟩

def readPlain (stream : Stream) : Except Problem Stream := do
  let stream ← stream.notePending
  let scalar := stream.plainSetting.scalar stream.limit stream.indent stream.cursor
  return ((stream.allowKey scalar.brokeLine).moveTo scalar.behind).emit (.scalar true scalar.text)

def standsKey (stream : Stream) : Bool := stream.inBrackets || isGap stream.cursor.rest.tail

/-- Whether a colon at the cursor stands before a value. White space must follow it, except that
inside braces it need not unless another colon stands just before it. -/
def standsValue (stream : Stream) : Bool :=
  let spaced := isGap stream.cursor.rest.tail
  if stream.isLegacy then stream.inBrackets || spaced
  else
    match stream.brackets with
    | [] | .sequence :: _ => spaced
    | .mapping :: _ => spaced || stream.queue.getLast? != some .value

def readAt (stream : Stream) (c : Char) : Except Problem Stream :=
  let cursor := stream.cursor
  if c == '%' && cursor.column == 0 then stream.readDirective
  else if cursor.isMarker '-' then stream.readMarker .documentStart
  else if cursor.isMarker '.' then stream.readMarker .documentEnd
  else if c == '[' then stream.readOpening .sequence .sequenceOpen
  else if c == '\x7b' then stream.readOpening .mapping .mappingOpen
  else if c == ']' then stream.readClosing .sequenceClose
  else if c == '\x7d' then stream.readClosing .mappingClose
  else if c == ',' then stream.readComma
  else if c == '-' && isGap cursor.rest.tail then stream.readItem
  else if c == '?' && stream.standsKey then stream.readKey
  else if c == ':' && stream.standsValue then stream.readValue
  else if c == '*' then stream.readAlias
  else if c == '&' then stream.readAnchor
  else if c == '!' then stream.readTag
  else if (c == '|' || c == '>') && !stream.inBrackets then stream.readBlock
  else if c == '\'' || c == '"' then stream.readQuoted
  else if stream.plainSetting.starts cursor.rest then stream.readPlain
  else .error .malformed

def read (stream : Stream) : Except Problem Stream := do
  let stream ← stream.seek.dropStale
  let stream := stream.unwind (Int.ofNat stream.cursor.column)
  match stream.cursor.head? with
  | none => stream.readEnd
  | some c => stream.readAt c

def firstPending? (stream : Stream) : Option Nat :=
  (stream.pending.map fun entry => entry.2.number).min?

def settleFrom : Nat → Stream → Except Problem Stream
  | 0, stream => .ok stream
  | fuel + 1, stream =>
      if stream.isFinished then .ok stream
      else if stream.queue.isEmpty then stream.read.bind (settleFrom fuel)
      else do
        let stream ← stream.dropStale
        if stream.firstPending? == some stream.taken then stream.read.bind (settleFrom fuel)
        else return stream

def settle (stream : Stream) : Except Problem Stream := settleFrom stream.limit stream

def head (stream : Stream) : Lexeme := stream.queue.headD .streamEnd

def tail (stream : Stream) : Stream :=
  { stream with queue := stream.queue.tail, taken := stream.taken + 1 }

end Stream

end Logicless.Yaml
