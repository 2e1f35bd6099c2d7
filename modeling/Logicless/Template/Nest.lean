import Logicless.Template.Scan
import Logicless.Token.Substitution

namespace Logicless

/-!
Tags nested into a token tree.

A `Nest` holds the blocks that wait for their closing tags, innermost first, and the tokens outside
all of them. Text and tags are fed to it in the order of the template; a closing tag must carry the
name of the innermost open block. Every block also keeps its own text, which is the text of the
template between its tags.
-/

inductive BlockShape where
  | block
  | inverted
  | placeholder
  /-- The tokens of a parent template, with parts replaced by those in the block. -/
  | parent
  deriving Repr, DecidableEq

def Sigil.shape? : Sigil → Option BlockShape
  | .block => some .block
  | .inverted => some .inverted
  | .placeholder => some .placeholder
  | .parent => some .parent
  | _ => none

structure OpenBlock where
  shape : BlockShape
  opening : Tag
  /-- The tokens read so far, last first. -/
  content : List Token
  /-- The pieces of text read so far, last first. -/
  pieces : List (List Char)

structure Nest where
  /-- Innermost first. -/
  blocks : List OpenBlock
  /-- The tokens outside all blocks, last first. -/
  outside : List Token

/-- The option that a word of a pragma tag gives: a key, and behind the first equals sign a value.
-/
def pragmaOption (word : List Char) : String × String :=
  match Text.breakOn ['='] word with
  | some (key, value) => (String.ofList key, String.ofList value)
  | none => (String.ofList word, "")

/-- The token of a pragma tag with the given words; later options of a key replace earlier ones. -/
def pragmaToken : List (List Char) → Token
  | [] => .pragma "" .empty
  | name :: options => .pragma (String.ofList name) (Table.ofList (options.map pragmaOption))

/-- The token of a tag that neither opens nor closes a block. -/
def Tag.leaf (tag : Tag) : Token :=
  match tag.sigil with
  | .braced | .unescaped => .unescaped tag.body
  | .partials => .partialNamed tag.body
  | .comment => .comment tag.body
  | .pragma => pragmaToken (Text.words tag.body.toList)
  | .delimiters =>
      let parts := Text.words tag.body.toList
      .delimiters (String.ofList (parts.getD 0 [])) (String.ofList (parts.getD 1 []))
  | _ => .escaped tag.body

namespace OpenBlock

def text (block : OpenBlock) : List Char := block.pieces.reverse.flatten

/-- The token of a block that is closed. `parent` holds the tokens of the template it inherits from.
-/
def close (block : OpenBlock) (parent : Tokens) : Token :=
  let content := block.content.reverse
  match block.shape with
  | .block => .block block.opening.body content (String.ofList block.text)
  | .inverted => .inverted block.opening.body content
  | .placeholder => .placeholder block.opening.body content
  | .parent => .partialKnown (Tokens.substitute (Tokens.overrides content) parent)

end OpenBlock

namespace Nest

def empty : Nest := ⟨[], []⟩

def add (nest : Nest) (token : Token) (text : List Char) : Nest :=
  match nest.blocks with
  | [] => { nest with outside := token :: nest.outside }
  | block :: outer =>
      let longer : OpenBlock :=
        { block with content := token :: block.content, pieces := text :: block.pieces }
      { nest with blocks := longer :: outer }

def addChunk (nest : Nest) (chunk : List Char) : Nest :=
  if chunk.isEmpty then nest else nest.add (.content (String.ofList chunk)) chunk

/-- The parent template that a tag asks for by closing an inheriting block. -/
def parent? (nest : Nest) (tag : Tag) : Option String :=
  match tag.sigil, nest.blocks with
  | .closing, block :: _ =>
      if block.shape = .parent && block.opening.body = tag.body then some tag.body else none
  | _, _ => none

def close (nest : Nest) (parent : Tokens) (tag : Tag) : Except Flaw Nest :=
  match nest.blocks with
  | [] => .error ⟨.strayClosing tag.body, tag.position⟩
  | block :: outer =>
      if block.opening.body = tag.body then
        .ok (add { nest with blocks := outer } (block.close parent)
          (block.opening.source ++ block.text ++ tag.source))
      else .error ⟨.mismatchedClosing tag.body block.opening.body, tag.position⟩

def addTag (nest : Nest) (parent : Tokens) (tag : Tag) : Except Flaw Nest :=
  match tag.sigil.shape? with
  | some shape => .ok { nest with blocks := ⟨shape, tag, [], []⟩ :: nest.blocks }
  | none =>
      if tag.sigil = .closing then nest.close parent tag
      else .ok (nest.add tag.leaf tag.source)

def finish (nest : Nest) : Except Flaw Tokens :=
  match nest.blocks with
  | [] => .ok nest.outside.reverse
  | block :: _ => .error ⟨.unclosedBlock block.opening.body, block.opening.position⟩

def ofScan (nest : Nest) : Scan → Except Flaw Tokens
  | .finished chunk => (nest.addChunk chunk).finish
  | .broken _ flaw => .error flaw
  | .tagged chunk tag rest =>
      match (nest.addChunk chunk).addTag [] tag with
      | .ok next => next.ofScan rest
      | .error flaw => .error flaw

end Nest

end Logicless
