import Logicless.Yaml.Folding

namespace Logicless.Yaml

structure PlainSetting where
  inBrackets : Bool
  legacy : Bool
  deriving Repr, DecidableEq

def isIndicator (c : Char) : Bool :=
  "-?:,[]\x7b\x7d#&*!|>'\"%@".toList.contains c || c.toNat == 0x60

def PlainSetting.starts (setting : PlainSetting) : List Char → Bool
  | [] => false
  | c :: rest =>
      if isGap [c] then false
      else if !isIndicator c then true
      else if c == ':' && setting.inBrackets && !setting.legacy then
        rest.head? != some ' ' && rest.head? != some '\t'
      else !isGap rest && (c == '-' || (!setting.inBrackets && (c == '?' || c == ':')))

/-- Marks that end a scalar inside brackets. A question mark does so in YAML 1.1 only. -/
def isBracketMark (c : Char) : Bool := ",:?[]\x7b\x7d".toList.contains c

def PlainSetting.continues (setting : PlainSetting) (c : Char) (rest : List Char) : Bool :=
  if c == ':' then !isGap rest
  else if c == '?' && !setting.legacy then true
  else !isGap [c] && !(setting.inBrackets && isBracketMark c)

def PlainSetting.word (setting : PlainSetting) : List Char → List Char
  | [] => []
  | c :: rest => if setting.continues c rest then c :: setting.word rest else []

/-- The spaces and line ends that follow a line end, or nothing where a marker between documents
comes first. -/
def plainBreaks : Nat → Cursor → Option (List Char) × Cursor
  | 0, cursor => (some [], cursor)
  | fuel + 1, cursor =>
      let spaced := cursor.skipSpaces
      match spaced.lineBreak? with
      | none => (some [], spaced)
      | some (c, next) =>
          if isMarkerLine next.rest then (none, next)
          else
            let (more, behind) := plainBreaks fuel next
            (more.map (c :: ·), behind)

structure PlainGap where
  /-- What it comes to if the scalar goes on; empty if it cannot. -/
  text : List Char
  behind : Cursor
  brokeLine : Bool
  deriving Repr, DecidableEq

/-- The white space behind a word; `fuel` bounds the number of its line ends. -/
def plainGap (fuel : Nat) (cursor : Cursor) : PlainGap :=
  let spaces := cursor.run fun c => c == ' '
  let here := cursor.skip spaces.length
  match here.lineBreak? with
  | none => ⟨spaces, here, false⟩
  | some (c, next) =>
      if isMarkerLine next.rest then ⟨[], next, true⟩
      else
        match plainBreaks fuel next with
        | (none, behind) => ⟨[], behind, true⟩
        | (some more, behind) => ⟨folded c more, behind, true⟩

/-- A scalar without quotes: its text, the place of the token that follows, and whether a line ended
before that. -/
structure PlainScalar where
  text : List Char
  behind : Cursor
  brokeLine : Bool
  deriving Repr, DecidableEq

/-- The words of a scalar; `pieces` has what was read so far, last first, and `gap` the white space
behind it. `fuel` bounds the number of words and of line ends. -/
def PlainSetting.words (setting : PlainSetting) (indent : Int) :
    Nat → List (List Char) → PlainGap → PlainScalar
  | 0, pieces, gap => ⟨pieces.reverse.flatten, gap.behind, gap.brokeLine⟩
  | fuel + 1, pieces, gap =>
      let finished : PlainScalar := ⟨pieces.reverse.flatten, gap.behind, gap.brokeLine⟩
      let word := setting.word gap.behind.rest
      if gap.behind.head? == some '#' || word.isEmpty then finished
      else
        let read := word :: gap.text :: pieces
        let next := plainGap fuel (gap.behind.skip word.length)
        if next.text.isEmpty || (!setting.inBrackets && next.behind.column ≤ indent) then
          ⟨read.reverse.flatten, next.behind, next.brokeLine⟩
        else setting.words indent fuel read next

/-- A scalar without quotes at the cursor, in a collection with the given indentation. `limit` is
larger than the number of characters that remain. -/
def PlainSetting.scalar (setting : PlainSetting) (limit : Nat) (indent : Int) (cursor : Cursor) :
    PlainScalar :=
  setting.words indent limit [] ⟨[], cursor, false⟩

end Logicless.Yaml
