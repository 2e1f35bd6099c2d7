import Logicless.CommandLine.Request
import Logicless.Token.Dump
import Logicless.Workspace

namespace Logicless.CommandLine

/-!
The command line: renders one template, or shows its tokens.

`run` is the whole program but for reading and writing: from the arguments, the environment and a
file tree it gives the exit code and the texts to write. Faults that somebody can mend end it with
code 2 and a message; the others end it as a crash.
-/

/-- What a run finds: files, the working directory, the standard input, whether it is to say what it
does, and what it reads documents with. -/
structure Surroundings where
  tree : FileTree
  directory : Place
  input : String
  debug : Bool
  documents : Documents

/-- How long a line of inheritance, and how deeply nested a block, is before it counts as endless. -/
structure Limits where
  chain : Nat
  nesting : Nat

inductive RunFault where
  | failure (failure : Failure)
  | badPartial (spec : String)
  | partialMissing (path : String)
  | dataMissing (path : String)
  | dataMalformed (source : String)

namespace RunFault

def message : RunFault → String
  | .failure cause => cause.message
  | .badPartial spec => "Invalid partial format '" ++ spec ++ "'. Expected 'alias=file'"
  | .partialMissing path => "Partial file not found: " ++ path
  | .dataMissing path => "Data file not found: " ++ path
  | .dataMalformed source => "Failed to parse data from " ++ source

def hasDetails : RunFault → Bool
  | .failure (.config cause) => cause.hasDetails
  | .dataMalformed _ => true
  | _ => false

def isMendableTrouble : Trouble → Bool
  | .invalidValue | .illegible _ => true
  | _ => false

def isMendableFault : Fault → Bool
  | .trouble cause => isMendableTrouble cause
  | .file flaw => flaw = .zero
  | .endless | .notAPragma _ | .notAResolver _ => false
  | _ => true

def isMendableConfig : ConfigFault → Bool
  | .trouble cause => isMendableTrouble cause
  | .file flaw => flaw = .zero
  | _ => true

/-- Whether the run ends with a message rather than as a crash. -/
def isMendable : RunFault → Bool
  | .failure (.fault cause) => isMendableFault cause
  | .failure (.config cause) => isMendableConfig cause
  | .failure (.noManager _) | .failure (.unknownName _) => false
  | .badPartial _ | .partialMissing _ | .dataMissing _ | .dataMalformed _ => true

end RunFault

inductive Ending where
  | stopped (stop : Stop)
  | finished (output : String)
  | failed (fault : RunFault)

structure Outcome where
  reports : List Event
  ending : Ending

abbrev Run := EStateM RunFault Workspace

namespace Run

def ofWork {α : Type} (work : Work α) : Run α := fun workspace =>
  match work workspace with
  | .ok result next => .ok result next
  | .error cause next => .error (.failure cause) next

end Run

def managerName : String := "main"

def entryAt (path : Path) : Run Entry := do
  let workspace ← get
  Run.ofWork (Work.report (.consulted path.toString))
  Run.ofWork (Work.ofFiles (workspace.tree.entryAt workspace.base path))

def textOf (content : List UInt8) : Run String :=
  match Text.decodeUtf8 content with
  | .ok chars => pure (String.ofList (Text.plainNewlines chars))
  | .error flaw => throw (.failure (.fault (.undecodable flaw)))

/-- Applies the configuration that is asked for, or that of the working directory if it has one. -/
def configure (request : Request) : Run Unit := do
  let workspace ← get
  let chosen ←
    match request.config.filter fun path => !path.isEmpty with
    | some path => pure (some (Path.ofString path))
    | none => do
        let directory := Path.ofPlace workspace.base
        Run.ofWork (Work.report
          (.consulted (directory.join (Path.ofString Config.fileName)).toString))
        Run.ofWork (Work.ofFiles (Config.find? workspace.tree workspace.base directory))
  if let some path := chosen then
    let config ← Run.ofWork (Work.loadConfig path)
    Run.ofWork (Work.applyConfig managerName config)

def prepareManager (request : Request) : Run Unit := do
  configure request
  if let some suffix := request.suffix then
    discard <| Run.ofWork (Work.changeFolders managerName fun folders =>
      .ok (folders.withSuffix suffix))
  request.paths.forM fun path => Run.ofWork (Work.addFolder managerName (Path.ofString path))
  if request.raw then
    Run.ofWork (Work.changeRenderer managerName fun renderer => { renderer with escape := .none })

/-- The view that a document gives; an empty document is an empty view. -/
def viewOf (source text : String) : Run Value := do
  match (← get).documents.read text.toList with
  | .ok .null => pure (.mapping [])
  | .ok value => pure value
  | .error .malformed => throw (.dataMalformed source)
  | .error (.trouble trouble) => throw (.failure (.fault (.trouble trouble)))

/-- The view of a request: from the input if it is given as a dash, or else from a file. -/
def readView (input : String) (data : Option String) : Run Value := do
  match data.filter fun data => !data.isEmpty with
  | none => return .mapping []
  | some "-" => viewOf "stdin" input
  | some data => do
      let path := Path.ofString data
      match ← entryAt path with
      | .missing => throw (.dataMissing path.toString)
      | .directory => throw (.failure (.fault (.file .isDirectory)))
      | .file content => viewOf path.toString (← textOf content)

/-- Compiles the partial that an alias and a path with an equals sign between them ask for. -/
def readPartial (spec : String) : Run (String × Tokens) := do
  match Text.breakOn ['='] spec.toList with
  | none => throw (.badPartial spec)
  | some (before, behind) => do
      let name := String.ofList (Text.strip before)
      let path := Path.ofString (String.ofList (Text.strip behind))
      match ← entryAt path with
      | .file content => do
          let tokens ← Run.ofWork (Work.compile managerName (some name) (← textOf content))
          return (name, tokens)
      | _ => throw (.partialMissing path.toString)

def readTemplate (template : String) : Run Tokens := do
  match ← entryAt (Path.ofString template) with
  | .file content => Run.ofWork (Work.compile managerName (some template) (← textOf content))
  | _ => Run.ofWork (Work.tokenize managerName true template)

def perform (request : Request) (input : String) : Run String := do
  prepareManager request
  match request.command with
  | .render => do
      let view ← readView input request.data
      let partials ← request.partials.mapM readPartial
      let tokens ← readTemplate request.template
      Run.ofWork (Work.renderTokens managerName tokens view (Table.ofList partials))
  | .tokens => do
      let tokens ← readTemplate request.template
      return (Tokens.dump tokens).pretty ++ "\n"

def startWorkspace (limits : Limits) (surroundings : Surroundings) : Workspace :=
  { (Workspace.empty surroundings.tree surroundings.directory).addManager managerName .standard with
    documents := surroundings.documents
    chainLimit := limits.chain
    nestingLimit := limits.nesting }

def Request.run (limits : Limits) (request : Request) (surroundings : Surroundings) : Outcome :=
  match perform request surroundings.input (startWorkspace limits surroundings) with
  | .ok output workspace => ⟨workspace.reports.reverse, .finished output⟩
  | .error fault workspace => ⟨workspace.reports.reverse, .failed fault⟩

def wantsDebug (arguments : List String) (surroundings : Surroundings) : Bool :=
  surroundings.debug ||
    match Request.ofArguments arguments with
    | .ok request => request.verbose
    | .error _ => false

def run (limits : Limits) (arguments : List String) (surroundings : Surroundings) : Outcome :=
  match Request.ofArguments arguments with
  | .ok request => request.run limits surroundings
  | .error stop => ⟨[], .stopped stop⟩

def reportLine (debug : Bool) (event : Event) : Option String :=
  match event.level with
  | .warning => some ("[WARNING] " ++ event.text)
  | .debug => if debug then some ("[DEBUG] " ++ event.text) else none
  | .trace => none

def versionText : String := "stache 0.1.0\n"

def usage : String :=
  "usage: stache [-h] [-v] [--verbose] render TEMPLATE [--path DIR]... [--config FILE] " ++
    "[--suffix SUFFIX] [--data FILE|-] [--partial ALIAS=FILE]... [--raw]\n" ++
  "       stache [-h] [-v] [--verbose] tokens TEMPLATE [--path DIR]... [--config FILE] " ++
    "[--suffix SUFFIX]\n"

def Outcome.notes (outcome : Outcome) (debug : Bool) : String :=
  String.join ((outcome.reports.filterMap (reportLine debug)).map fun line => line ++ "\n")

def RunFault.line (fault : RunFault) : String :=
  if fault.hasDetails then fault.message
  else String.ofList ((fault.message.toList.reverse.dropWhile Text.isBlank).reverse)

def Outcome.output (outcome : Outcome) : String :=
  match outcome.ending with
  | .stopped .version => versionText
  | .stopped .help => usage
  | .finished output => output
  | .stopped .misuse | .failed _ => ""

/-- The exit code, unless the run crashes. -/
def Outcome.code? (outcome : Outcome) : Option Nat :=
  match outcome.ending with
  | .stopped .misuse => some 2
  | .stopped _ | .finished _ => some 0
  | .failed fault => if fault.isMendable then some 2 else none

end Logicless.CommandLine
