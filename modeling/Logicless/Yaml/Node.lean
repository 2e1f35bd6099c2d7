import Logicless.Yaml.Lexeme

namespace Logicless.Yaml

inductive Tag where
  | null
  | bool
  | int
  | float
  | binary
  | timestamp
  | omap
  | pairs
  | set
  | str
  | seq
  | map
  /-- The key of entries that are taken over from other mappings. -/
  | merge
  /-- The key of the value that a mapping stands for as a whole. -/
  | value
  | foreign
  deriving Repr, DecidableEq

def Tag.root : String := "tag:yaml.org,2002:"

def Tag.known : List (String × Tag) :=
  [("null", .null), ("bool", .bool), ("int", .int), ("float", .float), ("binary", .binary),
   ("timestamp", .timestamp), ("omap", .omap), ("pairs", .pairs), ("set", .set), ("str", .str),
   ("seq", .seq), ("map", .map), ("merge", .merge), ("value", .value)]

def Tag.named (name : String) : Tag :=
  ((known.map fun (short, tag) => (root ++ short, tag)).lookup name).getD .foreign

abbrev NodeId := Nat

abbrev Entries := List (NodeId × NodeId)

inductive Content where
  | scalar (text : List Char)
  | sequence (items : List NodeId)
  /-- A mapping; `merged` are those of its entries that it takes over from other mappings. -/
  | mapping (entries : Entries) (merged : Option Entries)
  deriving Repr, DecidableEq

structure Node where
  tag : Tag
  content : Content
  deriving Repr, DecidableEq

structure Graph where
  nodes : Array Node
  deriving Repr, DecidableEq

namespace Graph

def empty : Graph := ⟨#[]⟩

def add (graph : Graph) (node : Node) : NodeId × Graph :=
  (graph.nodes.size, ⟨graph.nodes.push node⟩)

def get? (graph : Graph) (id : NodeId) : Option Node := graph.nodes[id]?

def content? (graph : Graph) (id : NodeId) : Option Content := (graph.get? id).map Node.content

def tag? (graph : Graph) (id : NodeId) : Option Tag := (graph.get? id).map Node.tag

def fill (graph : Graph) (id : NodeId) (content : Content) : Graph :=
  ⟨graph.nodes.modify id fun node => { node with content }⟩

def retag (graph : Graph) (id : NodeId) (tag : Tag) : Graph :=
  ⟨graph.nodes.modify id fun node => { node with tag }⟩

def items? (graph : Graph) (id : NodeId) : Option (List NodeId) :=
  match graph.content? id with
  | some (.sequence items) => some items
  | _ => none

def entries? (graph : Graph) (id : NodeId) : Option Entries :=
  match graph.content? id with
  | some (.mapping entries _) => some entries
  | _ => none

end Graph

end Logicless.Yaml
