import Logicless.Resolver.Folders

namespace Logicless

/-- Where a resolver stands in a chain, and what it is called. -/
structure Rank where
  priority : Int
  /-- How many resolvers had been attached to the chain before. -/
  serial : Nat
  label : Option String
  deriving Repr, DecidableEq

inductive Resolver where
  | mapping (templates : Table String)
  | folders (folders : Folders)
  | compiled (templates : Table Tokens)
  | constant (value : Value)
  | chain (links : List (Rank × Resolver))

def Rank.forget (label : String) (rank : Rank) : Rank :=
  if rank.label = some label then { rank with label := none } else rank

structure Chain where
  links : List (Rank × Resolver)
  /-- How many resolvers have been attached. -/
  count : Nat

namespace Resolver

inductive Kind where
  | mapping
  | folders
  | compiled
  | constant
  | chain
  deriving Repr, DecidableEq

def kind : Resolver → Kind
  | .mapping _ => .mapping
  | .folders _ => .folders
  | .compiled _ => .compiled
  | .constant _ => .constant
  | .chain _ => .chain

def askCompiled (templates : Table Tokens) (name : String) : Answer :=
  match templates.get? name with
  | some tokens => .tokens tokens
  | none => .absent

def askMapping (templates : Table String) (name : String) : Answer :=
  match templates.get? name with
  | some text => .text text
  | none => .absent

mutual

def ask (tree : FileTree) (name : String) : Resolver → Retrieval
  | .mapping templates => .found (askMapping templates name)
  | .folders places => places.ask tree name
  | .compiled templates => .found (askCompiled templates name)
  | .constant value => .found (.ofValue value)
  | .chain links => askLinks tree name links

def askLinks (tree : FileTree) (name : String) : List (Rank × Resolver) → Retrieval
  | [] => .absent
  | (_, resolver) :: rest => (ask tree name resolver).orElse (askLinks tree name rest)

end

mutual

def adjust (label : String) (change : Resolver → Resolver) : Resolver → Resolver
  | .chain links => .chain (adjustLinks label change links)
  | resolver => resolver

def adjustLinks (label : String) (change : Resolver → Resolver) :
    List (Rank × Resolver) → List (Rank × Resolver)
  | [] => []
  | (rank, resolver) :: rest =>
      (if rank.label = some label then (rank, change resolver)
        else (rank, adjust label change resolver)) :: adjustLinks label change rest

end

mutual

def labelled? (label : String) : Resolver → Option Resolver
  | .chain links => labelledLink? label links
  | _ => none

def labelledLink? (label : String) : List (Rank × Resolver) → Option Resolver
  | [] => none
  | (rank, resolver) :: rest =>
      if rank.label = some label then some resolver
      else (labelled? label resolver).orElse fun _ => labelledLink? label rest

end

mutual

def forget (label : String) : Resolver → Resolver
  | .chain links => .chain (forgetLinks label links)
  | resolver => resolver

def forgetLinks (label : String) : List (Rank × Resolver) → List (Rank × Resolver)
  | [] => []
  | (rank, resolver) :: rest =>
      (rank.forget label, forget label resolver) :: forgetLinks label rest

end

end Resolver

/-- Whether a resolver is of some kind; every resolver is of the kind that no other is required for.
-/
def Resolver.isOf (kind : Option Resolver.Kind) (resolver : Resolver) : Bool :=
  kind.all fun kind => resolver.kind == kind

namespace Chain

def empty : Chain := ⟨[], 0⟩

/-- Takes a label from whatever goes by it. -/
def release (label : Option String) (chain : Chain) : Chain :=
  match label with
  | some label => { chain with links := Resolver.forgetLinks label chain.links }
  | none => chain

def adjust (label : String) (change : Resolver → Resolver) (chain : Chain) : Chain :=
  { chain with links := Resolver.adjustLinks label change chain.links }

def labelled? (label : String) (chain : Chain) : Option Resolver :=
  Resolver.labelledLink? label chain.links

/-- The order of the links: the higher priority first, and of equal ones the lower number. -/
def inOrder (first later : Rank × Resolver) : Bool :=
  decide (later.1.priority < first.1.priority) ||
    (first.1.priority == later.1.priority && decide (first.1.serial ≤ later.1.serial))

/-- Adds a link at the end, and sorts. -/
def push (chain : Chain) (resolver : Resolver) (label : Option String) (priority : Int) : Chain where
  links :=
    let rank : Rank := ⟨priority, chain.count, label⟩
    (chain.links ++ [(rank, resolver)]).mergeSort inOrder
  count := chain.count + 1

/-- Attaches what it is given, unless that is no resolver. -/
def attach (chain : Chain) (given : Given Resolver) (label : Option String := none)
    (priority : Int := 1) : Except Fault Chain :=
  (given.expect .notAResolver).map fun resolver => chain.push resolver label priority

def hasKind (kind : Option Resolver.Kind) (chain : Chain) : Bool :=
  chain.links.any fun link => link.2.isOf kind

def findKind? (kind : Option Resolver.Kind) (chain : Chain) : Option (Rank × Resolver) :=
  chain.links.find? fun link => link.2.isOf kind

def foldersOf? : List (Rank × Resolver) → Option Folders
  | [] => none
  | (_, .folders places) :: _ => some places
  | _ :: rest => foldersOf? rest

def folders? (chain : Chain) : Option Folders := foldersOf? chain.links

def replaceFolders (places : Folders) : List (Rank × Resolver) → List (Rank × Resolver)
  | [] => []
  | (rank, .folders _) :: rest => (rank, .folders places) :: rest
  | link :: rest => link :: replaceFolders places rest

/-- Replaces the directories of the first link that has any; where there is none, attaches one. -/
def putFolders (places : Folders) (chain : Chain) : Chain :=
  if chain.folders?.isSome then { chain with links := replaceFolders places chain.links }
  else chain.push (.folders places) none 0

def ask (tree : FileTree) (chain : Chain) : Source := fun name =>
  Resolver.askLinks tree name chain.links

/-- A chain with one link. -/
def only (resolver : Resolver) (label : Option String) (priority : Int) : Chain :=
  ⟨[(⟨priority, 0, label⟩, resolver)], 1⟩

theorem push_empty (resolver : Resolver) (label : Option String) (priority : Int) :
    empty.push resolver label priority = only resolver label priority := by
  simp [push, empty, only]

/-- Template files only, in no directory yet. -/
def standard : Chain := only (.folders .standard) none 0

end Chain

end Logicless
