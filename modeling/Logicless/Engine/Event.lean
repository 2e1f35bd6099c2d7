import Logicless.Text.Quoted
import Logicless.Token

namespace Logicless

inductive Event where
  | compiled (template : Option String) (tokenCount : Nat)
  | cacheHit (name : String)
  | cacheMiss (name : String)
  | escaping (name directory : String)
  | found (name path : String)
  | aliased (name : String)
  | included (name : String)
  | activated (pragma : String) (options : Options)
  | handedOver (name : String)
  | overwritten (pragma : String)
  | configured (path settings : String)
  | consulted (path : String)
  deriving Repr, DecidableEq

inductive Level where
  | trace
  | debug
  | warning
  deriving Repr, DecidableEq

namespace Event

def level : Event → Level
  | .consulted _ => .trace
  | .overwritten _ => .warning
  | _ => .debug

def shownText (text : String) : String := String.ofList (Text.quoted text.toList)

def shownOptions (options : Options) : String :=
  "\x7b" ++ ", ".intercalate
    (options.entries.map fun entry => shownText entry.1 ++ ": " ++ shownText entry.2) ++ "\x7d"

def text : Event → String
  | .compiled template count =>
      let name :=
        match template with
        | some name => if name.isEmpty then "<text>" else name
        | none => "<text>"
      "Compiled template '" ++ name ++ "' -> " ++ toString count ++ " tokens"
  | .cacheHit name => "Token cache hit for '" ++ name ++ "'"
  | .cacheMiss name => "Token cache miss for '" ++ name ++ "'"
  | .escaping name directory =>
      "Template name '" ++ name ++ "' escapes " ++ directory ++ "; skipped"
  | .found name path => "Resolved template '" ++ name ++ "' -> " ++ path
  | .aliased name => "Rendering aliased partial '" ++ name ++ "'"
  | .included name => "Resolving partial '" ++ name ++ "' through the manager"
  | .activated pragma options =>
      "Activating pragma '" ++ pragma ++ "' with options " ++ shownOptions options
  | .handedOver name => "Invoking higher-order section '" ++ name ++ "'"
  | .overwritten pragma => "Pragma '" ++ pragma ++ "' overwrites existing registration"
  | .configured path settings => "Loaded config " ++ path ++ ": " ++ settings
  | .consulted path => "Consulted " ++ path

end Event

end Logicless
