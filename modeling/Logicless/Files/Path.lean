import Logicless.Text.Search

namespace Logicless

/-!
Paths of files.

A `Path` is what somebody wrote: absolute or relative, with `..` wherever it stands, but without
empty segments and single dots. A `Place` is where a file lies: the names of the directories from
the root on, none of them `..`. `normalize` turns the segments of an absolute path into a place by
text alone, and its result never leads out of the root.
-/

/-- What a path starts from. Two leading slashes are kept apart from one, three are not. -/
inductive Anchor where
  | relative
  | root
  | doubleRoot
  deriving Repr, DecidableEq

/-- A path as it was written, without empty segments and single dots. -/
structure Path where
  anchor : Anchor
  segments : List String
  deriving Repr, DecidableEq

/-- The names of the directories from the root down to a file, and the name of the file. -/
abbrev Place := List String

inductive FileFlaw where
  | zero
  | tooLong
  | alreadyThere
  | throughFile
  | isDirectory
  deriving Repr, DecidableEq

def FileFlaw.message : FileFlaw → String
  | .zero => "embedded null byte"
  | .tooLong => "File name too long"
  | .alreadyThere => "File exists"
  | .throughFile => "Not a directory"
  | .isDirectory => "Is a directory"

namespace Path

def segmentsOf (text : List Char) : List String :=
  ((Text.splitOnChar '/' text).map String.ofList).filter fun segment =>
    !(segment.isEmpty || segment == ".")

def anchorOf : List Char → Anchor
  | '/' :: '/' :: '/' :: _ => .root
  | '/' :: '/' :: _ => .doubleRoot
  | '/' :: _ => .root
  | _ => .relative

def ofString (text : String) : Path := ⟨anchorOf text.toList, segmentsOf text.toList⟩

def ofPlace (place : Place) : Path := ⟨.root, place⟩

def isAbsolute (path : Path) : Bool := path.anchor != .relative

def toString (path : Path) : String :=
  let segments := "/".intercalate path.segments
  match path.anchor with
  | .relative => if path.segments.isEmpty then "." else segments
  | .root => "/" ++ segments
  | .doubleRoot => "//" ++ segments

instance : ToString Path := ⟨toString⟩

/-- A path as seen from another; an absolute path stays what it is. -/
def join (base path : Path) : Path :=
  if path.isAbsolute then path else { base with segments := base.segments ++ path.segments }

def parent (path : Path) : Path := { path with segments := path.segments.dropLast }

def lengthLimit : Nat := 4096

def nameLimit : Nat := 255

def hasZero (path : Path) : Bool :=
  path.segments.any fun segment => segment.toList.contains '\x00'

def flaw? (path : Path) : Option FileFlaw :=
  if path.hasZero then some .zero
  else if lengthLimit ≤ path.toString.utf8ByteSize then some .tooLong
  else none

def segmentsFrom (base : Place) (path : Path) : List String :=
  if path.isAbsolute then path.segments else base ++ path.segments

end Path

namespace Place

def step (here : Place) (segment : String) : Place :=
  if segment == ".." then here.dropLast else here ++ [segment]

def normalize (segments : List String) : Place := segments.foldl step []

def isWithin (base place : Place) : Bool := base.isPrefixOf place

theorem not_mem_step {here : Place} (segment : String) (clean : ".." ∉ here) :
    ".." ∉ step here segment := by
  simp only [step]
  split
  · exact fun member => clean ((List.dropLast_sublist here).subset member)
  · rename_i other
    simp only [List.mem_append, List.mem_singleton, not_or]
    exact ⟨clean, fun same => other (by simp [same])⟩

theorem not_mem_normalize (segments : List String) : ".." ∉ normalize segments := by
  suffices all : ∀ here : Place, ".." ∉ here → ".." ∉ segments.foldl step here from
    all [] (by simp)
  induction segments with
  | nil => exact fun _ clean => clean
  | cons segment rest ih => exact fun here clean => ih _ (not_mem_step segment clean)

end Place

end Logicless
