import Logicless.Engine.Event
import Logicless.Engine.Fault
import Logicless.Files.Tree
import Logicless.Value.Knot
import Logicless.Value.Print
import Logicless.Yaml.Problem

namespace Logicless

/-!
Configurations, and the documents that they are read from.

How a text is read as a document, and how the entries of a mapping are checked to be a configuration,
is given by `Documents`; `Config.load` brings both to a file.
-/

inductive EscapeMode where
  | html
  | none
  deriving Repr, DecidableEq

structure Config where
  templatePaths : List Path
  suffix : String
  separator : String
  escape : EscapeMode
  maxDepth : Option Int
  pragmas : List String
  deriving Repr, DecidableEq

inductive ConfigFault where
  | unreadable (path : String)
  | undecodable (fault : Text.Utf8Fault)
  | noMapping (path : String)
  | invalid (path : String) (fields : List String)
  | unknownPragmas (names : List String)
  | notADirectory (path : String)
  | file (flaw : FileFlaw)
  | trouble (trouble : Trouble)
  deriving Repr, DecidableEq

def ConfigFault.message : ConfigFault → String
  | .unreadable path => "Failed to read config " ++ path
  | .undecodable fault => fault.message
  | .noMapping path => "YAML must be a mapping: " ++ path
  | .invalid path _ => "Invalid config " ++ path
  | .unknownPragmas names => "Unknown pragmas in config: " ++ ", ".intercalate names
  | .notADirectory path => (Fault.notADirectory path).message
  | .file flaw => flaw.message
  | .trouble raised => raised.message

def ConfigFault.hasDetails : ConfigFault → Bool
  | .unreadable _ | .invalid .. => true
  | _ => false

def EscapeMode.word : EscapeMode → String
  | .html => "html"
  | .none => "none"

/-- Why the entries of a mapping make up no configuration: fields that are rejected, or trouble in
checking them. -/
inductive Config.Rejection where
  | invalid (fields : List String)
  | trouble (trouble : Trouble)
  deriving Repr, DecidableEq

structure Documents where
  read : List Char → Except Yaml.Problem Value
  validate : List (Value × Value) → Except Config.Rejection Config

namespace Config

def relativeTo (base : Path) (config : Config) : Config :=
  { config with templatePaths := config.templatePaths.map base.join }

def toValue (config : Config) : Value :=
  .mapping [
    (.text "template_paths", .list (config.templatePaths.map fun path => .text path.toString)),
    (.text "suffix", .text config.suffix),
    (.text "separator", .text config.separator),
    (.text "escape", .text config.escape.word),
    (.text "max_depth", (config.maxDepth.map Value.int).getD .null),
    (.text "pragmas", .list (config.pragmas.map .text))]

def ofEntries (documents : Documents) (path : Path) (entries : List (Value × Value)) :
    Except ConfigFault Config :=
  match documents.validate entries with
  | .ok config => .ok config
  | .error (.invalid fields) => .error (.invalid path.toString fields)
  | .error (.trouble trouble) => .error (.trouble trouble)

/-- The configuration that a document is; an empty one has no entries. -/
def ofValue (documents : Documents) (path : Path) (value : Value) : Except ConfigFault Config :=
  match value.plain with
  | .null => ofEntries documents path []
  | .mapping entries => ofEntries documents path entries
  | _ => .error (.noMapping path.toString)

def ofContent (documents : Documents) (path : Path) (content : List UInt8) :
    Except ConfigFault Config :=
  match Text.decodeUtf8 content with
  | .error fault => .error (.undecodable fault)
  | .ok text =>
      match documents.read (Text.plainNewlines text) with
      | .ok value => ofValue documents path value
      | .error .malformed => .error (.unreadable path.toString)
      | .error (.trouble trouble) => .error (.trouble trouble)

/-- The configuration in a file. Its relative template paths are seen from the directory of the
file. -/
def load (documents : Documents) (tree : FileTree) (base : Place) (path : Path) :
    Except ConfigFault Config :=
  match tree.access base path with
  | .ok (.file content) =>
      (ofContent documents path content).map fun config => config.relativeTo path.parent
  | .error .zero => .error (.file .zero)
  | _ => .error (.unreadable path.toString)

def loaded (path : Path) (config : Config) : Event :=
  .configured path.toString config.toValue.printed

def fileName : String := "stache.yaml"

def find? (tree : FileTree) (base : Place) (directory : Path) : Except FileFlaw (Option Path) :=
  let candidate := directory.join (Path.ofString fileName)
  (tree.entryAt base candidate).map fun entry => if entry.isFile then some candidate else none

end Config

end Logicless
