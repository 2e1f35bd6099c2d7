import Logicless.Decimal.Reading
import Logicless.Text.Utf8
import Logicless.Yaml.Lexeme

namespace Logicless.Yaml

def isVisible (c : Char) : Bool :=
  ('!' ≤ c && c ≤ '~') || (0xA0 ≤ c.toNat && c.toNat ≤ 0xD7FF) ||
    (0xE000 ≤ c.toNat && c.toNat ≤ 0xFFFD && c != '\uFEFF') || 0x10000 ≤ c.toNat

def isAnchorChar (c : Char) : Bool := isVisible c && !",[]\x7b\x7d".toList.contains c

def endsAnchor (text : List Char) : Bool :=
  isGap text || (text.head?.any fun c => "?:,[]\x7b\x7d%@".toList.contains c || c.toNat == 0x60)

def anchorName (cursor : Cursor) : Option (List Char × Cursor) :=
  let name := cursor.next.run isAnchorChar
  let behind := cursor.next.skip name.length
  if name.isEmpty || !endsAnchor behind.rest then none else some (name, behind)

def isHandleChar (c : Char) : Bool := c.isAlphanum || c == '-' || c == '_'

/-- Characters of tags. A number sign is one in versions behind 1.1 only. -/
def isTagChar (numberSign : Bool) (c : Char) : Bool :=
  c.isAlphanum || "-;/?:@&=+$,_.!~*'()[]%".toList.contains c || (numberSign && c == '#')

def percentBytes : List Char → Option (List UInt8 × List Char)
  | '%' :: high :: low :: rest =>
      match Decimal.hexValue? high, Decimal.hexValue? low with
      | some high, some low =>
          (percentBytes rest).map fun (bytes, behind) =>
            (UInt8.ofNat (16 * high + low) :: bytes, behind)
      | _, _ => none
  | '%' :: _ => none
  | rest => some ([], rest)

/-- The characters of a tag at the start of a text, with those that are written by number, and how
many characters they take. `fuel` bounds their number. -/
def tagChars (numberSign : Bool) : Nat → List Char → Option (List Char × Nat)
  | 0, _ => some ([], 0)
  | _ + 1, [] => some ([], 0)
  | fuel + 1, c :: rest =>
      if c == '%' then
        match percentBytes (c :: rest) with
        | none => none
        | some (bytes, behind) =>
            match Text.decodeUtf8 bytes with
            | .error _ => none
            | .ok chars =>
                (tagChars numberSign fuel behind).map fun (more, count) =>
                  (chars ++ more, count + 3 * bytes.length)
      else if isTagChar numberSign c then
        (tagChars numberSign fuel rest).map fun (more, count) => (c :: more, count + 1)
      else some ([], 0)

/-- The name of a tag, or the end of one. It is not empty. -/
def tagText (numberSign : Bool) (cursor : Cursor) : Option (String × Cursor) :=
  match tagChars numberSign (cursor.rest.length + 1) cursor.rest with
  | none => none
  | some (chars, count) =>
      if count = 0 then none else some (String.ofList chars, cursor.skip count)

def tagHandle (cursor : Cursor) : Option (String × Cursor) :=
  if cursor.head? != some '!' then none
  else if cursor.next.head? == some ' ' then some ("!", cursor.next)
  else
    let name := cursor.next.run isHandleChar
    let behind := cursor.next.skip name.length
    if behind.head? == some '!' then
      some (String.ofList ('!' :: name ++ ['!']), behind.next)
    else none

def tagBehind (numberSign : Bool) (short : String) (cursor : Cursor) :
    Option (TagName × Cursor) :=
  if cursor.next.head? == some '<' then
    (tagText numberSign cursor.next.next).bind fun (name, behind) =>
      if behind.head? == some '>' then some (⟨none, name⟩, behind.next) else none
  else if isGap cursor.next.rest then some (⟨none, "!"⟩, cursor.next)
  else if (cursor.next.run fun c => !(c == ' ' || isBreak c)).contains '!' then do
    let (handle, behind) ← tagHandle cursor
    let (rest, last) ← tagText numberSign behind
    return (⟨some handle, rest⟩, last)
  else do
    let (rest, last) ← tagText numberSign cursor.next
    return (⟨some short, rest⟩, last)

def tagName (numberSign : Bool) (cursor : Cursor) : Option (TagName × Cursor) :=
  let (short, here) :=
    if cursor.next.head? == some '!' then ("!!", cursor.next) else ("!", cursor)
  (tagBehind numberSign short here).bind fun (name, behind) =>
    if isStop behind.rest then some (name, behind) else none

def directiveNumber (cursor : Cursor) : Option (Nat × Cursor) :=
  let digits := cursor.run Char.isDigit
  if digits.isEmpty then none else some (Decimal.readNat digits, cursor.skip digits.length)

def directiveVersion (cursor : Cursor) : Option (Version × Cursor) := do
  let (major, point) ← directiveNumber cursor.skipSpaces
  if point.head? != some '.' then none
  let (minor, behind) ← directiveNumber point.next
  if isStop behind.rest then some ((major, minor), behind) else none

def directiveHandle (numberSign : Bool) (cursor : Cursor) :
    Option (Directive × Cursor) := do
  let (handle, behind) ← tagHandle cursor.skipSpaces
  if behind.head? != some ' ' then none
  let (expansion, last) ← tagText numberSign behind.skipSpaces
  if isStop last.rest then some (.handle handle expansion, last) else none

def directiveBody (numberSign : Bool) (cursor : Cursor) : Option (Directive × Cursor) :=
  let name := cursor.run fun c => isHandleChar c || c == ':' || c == '.'
  let behind := cursor.skip name.length
  if name.isEmpty || !isStop behind.rest then none
  else if String.ofList name == "YAML" then
    (directiveVersion behind).map fun (version, last) => (.version version, last)
  else if String.ofList name == "TAG" then directiveHandle numberSign behind
  else some (.other, behind.skipLine)

def directiveLine (numberSign : Bool) (cursor : Cursor) : Option (Directive × Cursor) := do
  let (directive, behind) ← directiveBody numberSign cursor.next
  let next ← behind.finishLine?
  return (directive, next)

end Logicless.Yaml
