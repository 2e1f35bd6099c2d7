import Logicless.Files.Path

namespace Logicless

inductive Entry where
  | missing
  | directory
  | file (content : List UInt8)
  deriving Repr, DecidableEq

namespace Entry

def isFile : Entry → Bool
  | .file _ => true
  | _ => false

def isDirectory : Entry → Bool
  | .directory => true
  | _ => false

end Entry

structure FileTree where
  entry : Place → Entry

namespace FileTree

def empty : FileTree := ⟨fun place => if place.isEmpty then .directory else .missing⟩

instance : Inhabited FileTree := ⟨empty⟩

def set (tree : FileTree) (place : Place) (entry : Entry) : FileTree :=
  ⟨fun other => if other = place then entry else tree.entry other⟩

def isTooLong (segment : String) : Bool := Path.nameLimit < segment.utf8ByteSize

/-- Makes the directories that segments, from a place on, lead through, and tells where they lead.
-/
def makeFrom (tree : FileTree) (here : Place) :
    List String → Except FileFlaw (FileTree × Place)
  | [] => .ok (tree, here)
  | segment :: rest =>
      let next := here.step segment
      if isTooLong segment then .error .tooLong
      else
        match tree.entry next with
        | .directory => tree.makeFrom next rest
        | .missing => (tree.set next .directory).makeFrom next rest
        | .file _ => .error (if rest.isEmpty then .alreadyThere else .throughFile)

def makeDirectory (tree : FileTree) (base : Place) (path : Path) :
    Except FileFlaw (FileTree × Place) :=
  match path.flaw? with
  | some flaw => .error flaw
  | none => tree.makeFrom [] (path.segmentsFrom base)

def write (tree : FileTree) (base : Place) (path : Path) (content : List UInt8) :
    Except FileFlaw FileTree :=
  match path.flaw?, path.segments.getLast? with
  | some flaw, _ => .error flaw
  | none, none => .error .isDirectory
  | none, some name =>
      match tree.makeDirectory base path.parent with
      | .error flaw => .error flaw
      | .ok (made, here) =>
          let place := here.step name
          if isTooLong name then .error .tooLong
          else if (made.entry place).isDirectory then .error .isDirectory
          else .ok (made.set place (.file content))

def follow (tree : FileTree) : Place → List String → Except FileFlaw (Option Place)
  | here, [] => .ok (some here)
  | here, segment :: rest =>
      if !(tree.entry here).isDirectory then .ok none
      else if isTooLong segment then .error .tooLong
      else tree.follow (here.step segment) rest

def reach (tree : FileTree) (segments : List String) : Except FileFlaw Entry :=
  match tree.follow [] segments with
  | .error flaw => .error flaw
  | .ok none => .ok .missing
  | .ok (some place) => .ok (tree.entry place)

def access (tree : FileTree) (base : Place) (path : Path) : Except FileFlaw Entry :=
  match path.flaw? with
  | some flaw => .error flaw
  | none => tree.reach (path.segmentsFrom base)

def entryAt (tree : FileTree) (base : Place) (path : Path) : Except FileFlaw Entry :=
  if path.hasZero then .ok .missing else tree.access base path

theorem entry_set_of_ne (tree : FileTree) {place other : Place} (different : other ≠ place)
    (entry : Entry) : (tree.set place entry).entry other = tree.entry other := by
  simp [set, different]

end FileTree

end Logicless
