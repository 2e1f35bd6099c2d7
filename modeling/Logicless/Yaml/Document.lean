import Logicless.Yaml.Node
import Logicless.Yaml.Schema
import Logicless.Yaml.Stream

namespace Logicless.Yaml

/-!
The document that a stream of tokens spells.

`Reading` keeps what the reader of a document knows at a place: the tokens ahead, the nodes so far,
the nodes that have a name, and what the handles of tags stand for. A node is named before its parts
are read, so that a collection can contain itself.
-/

structure Draft where
  stream : Stream
  graph : Graph
  /-- The nodes that have a name; a name that is given again means the latest. -/
  anchors : List (List Char × NodeId)
  handles : List (String × String)

abbrev Reading := StateT Draft (Except Problem)

namespace Reading

def peek : Reading Lexeme := do
  let draft ← get
  let stream ← draft.stream.settle
  set { draft with stream }
  return stream.head

def advance : Reading Unit :=
  modify fun draft => { draft with stream := draft.stream.tail }

def malformed {α : Type} : Reading α := throw .malformed

def isLater : Reading Bool := return (← get).stream.isLater

def place (anchor : Option (List Char)) (tag : Tag) (content : Content) : Reading NodeId :=
  modifyGet fun draft =>
    let (id, graph) := draft.graph.add ⟨tag, content⟩
    match anchor with
    | some name => (id, { draft with graph, anchors := (name, id) :: draft.anchors })
    | none => (id, { draft with graph })

def fill (id : NodeId) (content : Content) : Reading Unit :=
  modify fun draft => { draft with graph := draft.graph.fill id content }

def aliased (name : List Char) : Reading NodeId := do
  orMalformed ((← get).anchors.lookup name)

def wordTag (text : List Char) : Reading Tag := do
  Tag.ofWord (← get).stream.version text

def absent : Reading NodeId := do
  place none (← wordTag []) (.scalar [])

def namedTag : Option TagName → Reading (Option Tag)
  | none => return none
  | some name =>
      if name.isBare then return none
      else
        match name.handle with
        | none => return some (Tag.named name.rest)
        | some handle => do
            let start ← orMalformed ((← get).handles.lookup handle)
            return some (Tag.named (start ++ name.rest))

def properties : Reading (Option (List Char) × Option TagName) := do
  match ← peek with
  | .anchor name =>
      advance
      match ← peek with
      | .tag tag => advance; return (some name, some tag)
      | _ => return (some name, none)
  | .tag tag =>
      advance
      match ← peek with
      | .anchor name => advance; return (some name, some tag)
      | _ => return (none, some tag)
  | _ => return (none, none)

/-- A node of which nothing but an anchor or a tag is written. -/
def bare (anchor : Option (List Char)) (name : Option TagName) (tag : Option Tag) :
    Reading NodeId := do
  if anchor.isNone && name.isNone then malformed
  let tag ←
    match tag with
    | some tag => pure tag
    | none => wordTag []
  place anchor tag (.scalar [])

mutual

/-- A node. In an entry of a mapping that is told by its column a sequence needs no column of its
own. -/
def node (inEntry : Bool) : Nat → Reading NodeId
  | 0 => malformed
  | fuel + 1 => do
      match ← peek with
      | .reference name => advance; aliased name
      | _ =>
          let (anchor, name) ← properties
          content inEntry anchor name (← namedTag name) fuel
termination_by structural fuel => fuel

def content (inEntry : Bool) (anchor : Option (List Char)) (name : Option TagName)
    (tag : Option Tag) : Nat → Reading NodeId
  | 0 => malformed
  | fuel + 1 => do
      match ← peek with
      | .scalar isWord text =>
          advance
          let tag ←
            match tag with
            | some tag => pure tag
            | none => if isWord || name.isSome then wordTag text else pure .str
          place anchor tag (.scalar text)
      | .sequenceOpen =>
          advance
          let id ← place anchor (tag.getD .seq) (.sequence [])
          fill id (.sequence (← bracketItems true [] fuel))
          return id
      | .mappingOpen =>
          advance
          let id ← place anchor (tag.getD .map) (.mapping [] none)
          fill id (.mapping (← bracketEntries true [] fuel) none)
          return id
      | .blockSequenceStart =>
          advance
          let id ← place anchor (tag.getD .seq) (.sequence [])
          fill id (.sequence (← columnItems true [] fuel))
          return id
      | .blockMappingStart =>
          advance
          let id ← place anchor (tag.getD .map) (.mapping [] none)
          fill id (.mapping (← columnEntries [] fuel) none)
          return id
      | .item =>
          if inEntry then
            let id ← place anchor (tag.getD .seq) (.sequence [])
            fill id (.sequence (← columnItems false [] fuel))
            return id
          else bare anchor name tag
      | _ => bare anchor name tag
termination_by structural fuel => fuel

def columnItems (hasColumn : Bool) (items : List NodeId) : Nat → Reading (List NodeId)
  | 0 => malformed
  | fuel + 1 => do
      match ← peek with
      | .item =>
          advance
          let next ← peek
          let isAbsent :=
            next = .item || next = .blockEnd || (!hasColumn && (next = .key || next = .value))
          let item ← if isAbsent then absent else node false fuel
          columnItems hasColumn (item :: items) fuel
      | head =>
          if hasColumn then
            if head = .blockEnd then advance else malformed
          return items.reverse
termination_by structural fuel => fuel

def columnEntries (entries : Entries) : Nat → Reading Entries
  | 0 => malformed
  | fuel + 1 => do
      match ← peek with
      | .key =>
          advance
          let key ← columnPart fuel
          let value ← columnValue fuel
          columnEntries ((key, value) :: entries) fuel
      | .value =>
          if !(← isLater) then malformed
          let key ← absent
          let value ← columnValue fuel
          columnEntries ((key, value) :: entries) fuel
      | .blockEnd => advance; return entries.reverse
      | _ => malformed
termination_by structural fuel => fuel

def columnValue : Nat → Reading NodeId
  | 0 => malformed
  | fuel + 1 => do
      match ← peek with
      | .value => advance; columnPart fuel
      | _ => absent
termination_by structural fuel => fuel

def columnPart : Nat → Reading NodeId
  | 0 => malformed
  | fuel + 1 => do
      match ← peek with
      | .key | .value | .blockEnd => absent
      | _ => node true fuel
termination_by structural fuel => fuel

def bracketItems (isFirst : Bool) (items : List NodeId) : Nat → Reading (List NodeId)
  | 0 => malformed
  | fuel + 1 => do
      if (← peek) = .sequenceClose then
        advance
        return items.reverse
      if !isFirst then
        if (← peek) = .comma then advance else malformed
      match ← peek with
      | .sequenceClose => advance; return items.reverse
      | .key =>
          let item ← place none .map (.mapping [] none)
          advance
          let key ← bracketPart .sequenceClose true fuel
          let value ← bracketValue .sequenceClose fuel
          fill item (.mapping [(key, value)] none)
          bracketItems false (item :: items) fuel
      | _ =>
          let item ← node false fuel
          bracketItems false (item :: items) fuel
termination_by structural fuel => fuel

def bracketEntries (isFirst : Bool) (entries : Entries) : Nat → Reading Entries
  | 0 => malformed
  | fuel + 1 => do
      if (← peek) = .mappingClose then
        advance
        return entries.reverse
      if !isFirst then
        if (← peek) = .comma then advance else malformed
      match ← peek with
      | .mappingClose => advance; return entries.reverse
      | .key =>
          advance
          let key ← bracketPart .mappingClose true fuel
          let value ← bracketValue .mappingClose fuel
          bracketEntries false ((key, value) :: entries) fuel
      | .value =>
          if ← isLater then
            let key ← absent
            let value ← bracketValue .mappingClose fuel
            bracketEntries false ((key, value) :: entries) fuel
          else malformed
      | _ =>
          let key ← node false fuel
          let value ← absent
          bracketEntries false ((key, value) :: entries) fuel
termination_by structural fuel => fuel

def bracketValue (close : Lexeme) : Nat → Reading NodeId
  | 0 => malformed
  | fuel + 1 => do
      match ← peek with
      | .value => advance; bracketPart close false fuel
      | _ => absent
termination_by structural fuel => fuel

def bracketPart (close : Lexeme) (isKey : Bool) : Nat → Reading NodeId
  | 0 => malformed
  | fuel + 1 => do
      let head ← peek
      if head = close || head = .comma || (isKey && head = .value) then absent
      else node false fuel
termination_by structural fuel => fuel

end

/-- What the handles of tags stand for unless directives say otherwise. -/
def defaultHandles : List (String × String) := [("!", "!"), ("!!", Tag.root)]

/-- The directives before a document: at most one names a version, which must be of the known kind,
and every handle is explained once. -/
def directives (hasVersion : Bool) (handles : List (String × String)) : Nat → Reading Unit
  | 0 => malformed
  | fuel + 1 => do
      match ← peek with
      | .directive (.version version) =>
          if hasVersion || version.1 != 1 then malformed
          advance
          directives true handles fuel
      | .directive (.handle handle expansion) =>
          if (handles.lookup handle).isSome then malformed
          advance
          directives hasVersion ((handle, expansion) :: handles) fuel
      | .directive .other => advance; directives hasVersion handles fuel
      | _ => modify fun draft => { draft with handles := handles ++ defaultHandles }

def root (fuel : Nat) : Reading (Option NodeId) := do
  match ← peek with
  | .streamEnd => return none
  | .directive _ | .documentStart =>
      directives false [] fuel
      if (← peek) = .documentStart then advance else malformed
      match ← peek with
      | .directive _ | .documentStart | .documentEnd | .streamEnd => return some (← absent)
      | _ => return some (← node false fuel)
  | _ => return some (← node false fuel)

def endMarkers : Nat → Reading Unit
  | 0 => malformed
  | fuel + 1 => do
      if (← peek) = .documentEnd then
        advance
        if (← get).stream.isLegacy then endMarkers fuel

def document (fuel : Nat) : Reading (Option NodeId) := do
  let root ← root fuel
  if root.isSome then endMarkers fuel
  if (← peek) = .streamEnd then return root else malformed

end Reading

structure Document where
  root : NodeId
  graph : Graph
  version : Version
  deriving Repr, DecidableEq

def Document.read (text : List Char) : Except Problem (Option Document) := do
  let draft : Draft := ⟨.start text, .empty, [], Reading.defaultHandles⟩
  let (root, draft) ← (Reading.document (16 * text.length + 64)).run draft
  return root.map fun root => ⟨root, draft.graph, draft.stream.version⟩

end Logicless.Yaml
