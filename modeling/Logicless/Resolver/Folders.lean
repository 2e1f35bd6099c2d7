import Logicless.Engine.Source
import Logicless.Files.Tree

namespace Logicless

/-!
Templates that are files in directories.

The name of a template, its separators read as slashes and the suffix put behind it, is the path of
a file below one of the directories. The directory that was added last is searched first. A name
that leads out of a directory is passed over there, so that no file outside the directories is ever
read. A name that no path can be made of is an error in every directory.
-/

structure Folders where
  places : List Place
  /-- Stands behind every name, after a dot; an empty one behind none. -/
  suffix : String
  /-- Stands between the segments of a name; an empty one leaves names as they are. -/
  separator : String
  deriving Repr, DecidableEq

namespace Folders

def plainSuffix (suffix : String) : String :=
  String.ofList (suffix.toList.dropWhile fun c => c == '.')

def make (suffix separator : String) : Folders := ⟨[], plainSuffix suffix, separator⟩

/-- No directories; files end in `.mustache` and slashes separate segments. -/
def standard : Folders := make "mustache" "/"

instance : Inhabited Folders := ⟨standard⟩

def withSuffix (folders : Folders) (suffix : String) : Folders :=
  { folders with suffix := plainSuffix suffix }

def withSeparator (folders : Folders) (separator : String) : Folders := { folders with separator }

def add (folders : Folders) (tree : FileTree) (base : Place) (path : Path) :
    Except Fault Folders :=
  match tree.entryAt base path with
  | .error flaw => .error (.file flaw)
  | .ok .directory =>
      .ok { folders with places := Place.normalize (path.segmentsFrom base) :: folders.places }
  | .ok _ => .error (.notADirectory path.toString)

def fileOf (folders : Folders) (name : String) : Path :=
  let path := Text.replace folders.separator.toList ['/'] name.toList
  Path.ofString <| String.ofList <|
    if folders.suffix.isEmpty then path else path ++ '.' :: folders.suffix.toList

def textOf (content : List UInt8) : Except Fault Answer :=
  match Text.decodeUtf8 content with
  | .ok chars => .ok (.text (String.ofList (Text.plainNewlines chars)))
  | .error flaw => .error (.undecodable flaw)

def askPlace (tree : FileTree) (name : String) (file : Path) (place : Place) : Retrieval :=
  let candidate := Path.ofPlace (Place.normalize (file.segmentsFrom place))
  let shown := candidate.toString
  if file.hasZero then ⟨[], .error (.file .zero)⟩
  else if place.isWithin candidate.segments then
    match tree.entryAt [] candidate with
    | .error flaw => ⟨[.consulted shown], .error (.file flaw)⟩
    | .ok (.file content) => ⟨[.consulted shown, .found name shown], textOf content⟩
    | .ok _ => ⟨[.consulted shown], .ok .absent⟩
  else ⟨[.escaping name (Path.ofPlace place).toString], .ok .absent⟩

def ask (folders : Folders) (tree : FileTree) : Source := fun name =>
  folders.places.foldr (fun place later =>
    (askPlace tree name (folders.fileOf name) place).orElse later) .absent

end Folders

end Logicless
