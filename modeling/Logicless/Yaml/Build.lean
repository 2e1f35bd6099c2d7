import Logicless.Text.Base64
import Logicless.Yaml.Document
import Logicless.Yaml.Heap
import Logicless.Yaml.Number

namespace Logicless.Yaml

/-- A collection that waits to be filled, and the node that tells with what. -/
structure Job where
  cell : Nat
  node : NodeId
  deriving Repr, DecidableEq

structure Workshop where
  version : Version
  graph : Graph
  heap : Heap
  built : Array (Option Part)
  active : List NodeId
  isDeep : Bool
  /-- The collections that wait, the latest first. -/
  waiting : List Job

abbrev Building := StateT Workshop (Except Problem)

def isSameKey : Value → Value → Bool
  | .float x, .float y => x == y || (x.isNaN && y.isNaN)
  | key, other => Value.sameKey key other

def putPart (entries : List (Value × Part)) (key : Value) (part : Part) : List (Value × Part) :=
  if entries.any fun entry => isSameKey entry.1 key then
    entries.map fun entry => if isSameKey entry.1 key then (entry.1, part) else entry
  else entries ++ [(key, part)]

namespace Building

def malformed {α : Type} : Building α := throw .malformed

def trouble {α : Type} (trouble : Trouble) : Building α := throw (.trouble trouble)

def tagOf (id : NodeId) : Building Tag := do orMalformed ((← get).graph.tag? id)

def contentOf (id : NodeId) : Building Content := do orMalformed ((← get).graph.content? id)

/-- The items of a node, which must be a sequence. -/
def itemsOf (id : NodeId) : Building (List NodeId) := do orMalformed ((← get).graph.items? id)

/-- The entries of a node, which must be a mapping. -/
def entriesOf (id : NodeId) : Building Entries := do orMalformed ((← get).graph.entries? id)

def setContent (id : NodeId) (content : Content) : Building Unit :=
  modify fun shop => { shop with graph := shop.graph.fill id content }

def placeOf (tag : Tag) (entries : Entries) : Building (Option Nat) := do
  let graph := (← get).graph
  return entries.findIdx? fun entry => graph.tag? entry.1 == some tag

def textOf (id : NodeId) : Nat → Building (List Char)
  | 0 => malformed
  | fuel + 1 => do
      match ← contentOf id with
      | .scalar text => return text
      | .sequence _ => malformed
      | .mapping entries _ =>
          match (← placeOf .value entries).bind fun place => entries[place]? with
          | some (_, value) => textOf value fuel
          | none => malformed

/-- The nodes of a graph where the key of an entry is a mere text if it stood for a whole. -/
def withPlainKey (graph : Graph) (entry : NodeId × NodeId) : Graph :=
  if graph.tag? entry.1 == some .value then graph.retag entry.1 .str else graph

mutual

/-- Takes the entries over that a mapping asks for, if it does. They come before its own ones. -/
def inherit (id : NodeId) : Nat → Building Unit
  | 0 => malformed
  | fuel + 1 => do
      let merged ← inherited id [] fuel
      let entries ← entriesOf id
      modify fun shop => { shop with graph := entries.foldl withPlainKey shop.graph }
      if !merged.isEmpty then setContent id (.mapping (merged ++ entries) (some merged))
termination_by structural fuel => fuel

/-- The entries that a mapping asks for behind the given ones. It asks once, or again if nothing
came of it, and no longer afterwards. -/
def inherited (id : NodeId) (merged : Entries) : Nat → Building Entries
  | 0 => malformed
  | fuel + 1 => do
      let .mapping entries before ← contentOf id | malformed
      let some place ← placeOf .merge entries | return merged
      let some (_, source) := entries[place]? | malformed
      if !merged.isEmpty then malformed
      setContent id (.mapping (entries.eraseIdx place) before)
      let more ←
        match ← contentOf source with
        | .scalar _ => malformed
        | .mapping .. => do
            inherit source fuel
            entriesOf source
        | .sequence items => do
            let rows ← items.mapM fun item => do
              let _ ← entriesOf item
              inherit item fuel
              entriesOf item
            pure rows.reverse.flatten
      inherited id more fuel
termination_by structural fuel => fuel

end

def scalarValue (tag : Tag) (id : NodeId) (fuel : Nat) : Building Value := do
  let version := (← get).version
  match tag with
  | .timestamp =>
      match ← contentOf id with
      | .scalar text => Timestamp.value (withoutLastBreak text)
      | _ => malformed
  | .null => do
      let _ ← textOf id fuel
      return .null
  | .bool => do
      let word := String.ofList ((← textOf id fuel).map Char.toLower)
      if ["yes", "y", "true", "on"].contains word then return .bool true
      else if ["no", "n", "false", "off"].contains word then return .bool false
      else trouble .missingKey
  | .int => do Number.int version (← textOf id fuel)
  | .float => do Number.float version (← textOf id fuel)
  | .binary => do
      let text ← textOf id fuel
      if text.any fun c => 0x80 ≤ c.toNat then malformed
      return .bytes (← orMalformed (Text.decodeBase64 text))
  | .str => do return .text (String.ofList (← textOf id fuel))
  | _ => malformed

/-- The empty collection of a type, if the type is one of collections. -/
def emptyCell? : Tag → Option Cell
  | .seq | .pairs => some (.list [])
  | .map => some (.mapping false [])
  | .omap => some (.mapping true [])
  | .set => some (.set [])
  | _ => none

/-- The entry of a node, which must be a mapping of one. -/
def onlyEntryOf (id : NodeId) : Building (NodeId × NodeId) := do
  match ← entriesOf id with
  | [entry] => return entry
  | _ => malformed

def keyOf (part : Part) : Building Part := do
  match part with
  | .cell id =>
      match (← get).heap.get id with
      | .list parts => return .row parts
      | _ => malformed
  | part => return part

mutual

/-- What a node stands for. `whole` asks for it filled through and through. -/
def part (whole : Bool) (id : NodeId) : Nat → Building Part
  | 0 => malformed
  | fuel + 1 => do
      match (← get).built.getD id none with
      | some part => return part
      | none =>
          let wasDeep := (← get).isDeep
          if whole then modify fun shop => { shop with isDeep := true }
          if (← get).active.contains id then return .value .null
          modify fun shop => { shop with active := id :: shop.active }
          let made ← fresh id fuel
          modify fun shop =>
            { shop with
              built := shop.built.setIfInBounds id (some made)
              active := shop.active.erase id
              isDeep := if whole then wasDeep else shop.isDeep }
          return made
termination_by structural fuel => fuel

def fresh (id : NodeId) : Nat → Building Part
  | 0 => malformed
  | fuel + 1 => do
      let tag ← tagOf id
      match emptyCell? tag with
      | none => return .value (← scalarValue tag id fuel)
      | some cell =>
          let number ← modifyGet fun shop =>
            let (number, heap) := shop.heap.add cell
            (number, { shop with heap })
          if (← get).isDeep then fill ⟨number, id⟩ fuel
          else modify fun shop => { shop with waiting := ⟨number, id⟩ :: shop.waiting }
          return .cell number
termination_by structural fuel => fuel

def fill (job : Job) : Nat → Building Unit
  | 0 => malformed
  | fuel + 1 => do
      let cell ←
        match ← tagOf job.node with
        | .seq => do
            let items ← itemsOf job.node
            pure (.list (← items.mapM fun item => part false item fuel))
        | .pairs => do
            let items ← itemsOf job.node
            pure (.list (← items.mapM fun item => do
              let (key, value) ← onlyEntryOf item
              let key ← part false key fuel
              let value ← part false value fuel
              return .row [key, value]))
        | .omap => do
            let items ← itemsOf job.node
            pure (.mapping true (← items.foldlM (fun entries item => do
              let (key, value) ← onlyEntryOf item
              let some key := (← part false key fuel).key? | trouble .misuse
              if entries.any fun entry => isSameKey entry.1 key then trouble .contradiction
              return entries ++ [(key, ← part false value fuel)]) []))
        | .set => do
            pure (.set ((← entries job.node fuel).map Prod.fst))
        | _ => do
            pure (.mapping false (← entries job.node fuel))
      modify fun shop => { shop with heap := shop.heap.fill job.cell cell }
termination_by structural fuel => fuel

def entries (id : NodeId) : Nat → Building (List (Value × Part))
  | 0 => malformed
  | fuel + 1 => do
      let _ ← entriesOf id
      inherit id fuel
      match ← contentOf id with
      | .mapping own none => distinct true own fuel
      | .mapping own (some merged) => do
          let below ← distinct false merged fuel
          let above ← distinct false own fuel
          return above.foldl (fun entries (key, part) => putPart entries key part) below
      | _ => malformed
termination_by structural fuel => fuel

/-- Entries by key, where a later one overwrites an earlier one unless that is `forbidden`. -/
def distinct (forbidden : Bool) (entries : Entries) : Nat → Building (List (Value × Part))
  | 0 => malformed
  | fuel + 1 =>
      entries.foldlM (fun entries (key, value) => do
        let key ← keyOf (← part true key fuel)
        let value ← part false value fuel
        let some key := key.key? | trouble .misuse
        if forbidden && entries.any fun entry => isSameKey entry.1 key then malformed
        return putPart entries key value) []
termination_by structural fuel => fuel

end

def fillAll (limit : Nat) : Nat → Building Unit
  | 0 => malformed
  | rounds + 1 => do
      let jobs := (← get).waiting.reverse
      if jobs.isEmpty then return ()
      modify fun shop => { shop with waiting := [] }
      jobs.forM fun job => fill job limit
      fillAll limit rounds

def root (id : NodeId) (limit : Nat) : Building Value := do
  let part ← part false id limit
  fillAll limit limit
  return (← get).heap.value part

end Building

def Graph.weight (graph : Graph) : Nat :=
  graph.nodes.foldl (fun weight node =>
    weight + 8 + match node.content with
      | .scalar _ => 0
      | .sequence items => items.length
      | .mapping entries _ => 2 * entries.length) 64

def Document.value (document : Document) : Except Problem Value :=
  let shop : Workshop :=
    { version := document.version
      graph := document.graph
      heap := .empty
      built := Array.replicate document.graph.nodes.size none
      active := []
      isDeep := false
      waiting := [] }
  (Building.root document.root document.graph.weight).run' shop

end Logicless.Yaml
