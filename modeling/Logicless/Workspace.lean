import Logicless.Config.Fields
import Logicless.Engine.Request
import Logicless.Pragma.ImplicitIterator
import Logicless.Resolver

namespace Logicless

/-!
Managers that work side by side over one file tree.

A manager has a chain of resolvers, a registry of pragmas and a token cache of its own, and renders
with a renderer. Renderers can be handed from manager to manager: a renderer looks up partials and
pragmas with the manager that it was given to last, its home, while several managers may go on
rendering with it. Names tell managers, and labels tell resolvers.

A `Work` is a computation over a workspace. What it changed before a failure stays changed.
-/

structure Renderer where
  /-- The number of the manager in which it looks up partials and pragmas. -/
  home : Nat
  escape : Escaper
  maxDepth : Option Int

structure Manager where
  chain : Chain
  pragmas : Registry
  cache : Cache
  /-- The number of its renderer. -/
  renderer : Nat

structure Workspace where
  managers : List Manager
  renderers : List Renderer
  names : Table Nat
  snapshots : Table Cache
  tree : FileTree
  base : Place
  /-- Reports, last first. -/
  reports : List Event
  documents : Documents := .standard
  /-- See `Library.chainLimit`. -/
  chainLimit : Nat := 1000
  /-- See `Setting.nestingLimit`. -/
  nestingLimit : Nat := 2000

inductive Failure where
  | fault (fault : Fault)
  | config (fault : ConfigFault)
  | noManager (name : String)
  | unknownName (name : String)
  deriving Repr, DecidableEq

def Failure.message : Failure → String
  | .fault cause => cause.message
  | .config cause => cause.message
  | .noManager name => "No manager is called " ++ name
  | .unknownName name => "Nothing is called " ++ name

abbrev Work := EStateM Failure Workspace

namespace Manager

def make (chain : Chain) (renderer : Nat) : Manager := ⟨chain, .standard, .empty, renderer⟩

end Manager

namespace Renderer

def make (home : Nat) : Renderer := ⟨home, .html, none⟩

end Renderer

namespace Workspace

def empty (tree : FileTree) (base : Place) : Workspace where
  managers := []
  renderers := []
  names := .empty
  snapshots := .empty
  tree := tree
  base := base
  reports := []

def addManager (workspace : Workspace) (name : String) (chain : Chain) : Workspace :=
  let number := workspace.managers.length
  { workspace with
    managers := workspace.managers ++ [Manager.make chain workspace.renderers.length]
    renderers := workspace.renderers ++ [Renderer.make number]
    names := workspace.names.insert name number }

def manager? (workspace : Workspace) (name : String) : Option (Nat × Manager) :=
  match workspace.names.get? name with
  | none => none
  | some number => (workspace.managers[number]?).map fun manager => (number, manager)

def setManager (workspace : Workspace) (number : Nat) (manager : Manager) : Workspace :=
  { workspace with managers := workspace.managers.set number manager }

def setRenderer (workspace : Workspace) (number : Nat) (renderer : Renderer) : Workspace :=
  { workspace with renderers := workspace.renderers.set number renderer }

def library (workspace : Workspace) (manager : Manager) : Library where
  source := manager.chain.ask workspace.tree
  chainLimit := workspace.chainLimit

def home (workspace : Workspace) (manager : Manager) : Home where
  pragmas := manager.pragmas
  library := workspace.library manager
  escape :=
    match workspace.renderers[manager.renderer]? with
    | some renderer => renderer.escape
    | none => Escaper.html

def setting (workspace : Workspace) (renderer : Renderer) : Setting where
  home := (workspace.managers[renderer.home]?).map workspace.home
  escape := renderer.escape
  maxDepth := renderer.maxDepth
  nestingLimit := workspace.nestingLimit

end Workspace

namespace Work

def report (event : Event) : Work Unit :=
  modify fun workspace => { workspace with reports := event :: workspace.reports }

def reportAll (events : List Event) : Work Unit :=
  modify fun workspace => { workspace with reports := events.reverse ++ workspace.reports }

def ofExcept {α : Type} : Except Fault α → Work α
  | .ok result => pure result
  | .error fault => throw (.fault fault)

def ofConfig {α : Type} : Except ConfigFault α → Work α
  | .ok result => pure result
  | .error fault => throw (.config fault)

def ofFiles {α : Type} : Except FileFlaw α → Work α
  | .ok result => pure result
  | .error flaw => throw (.fault (.file flaw))

def manager (name : String) : Work (Nat × Manager) := do
  match (← get).manager? name with
  | some found => return found
  | none => throw (.noManager name)

def donor (name : String) : Work (Nat × Manager) := do
  match (← get).manager? name with
  | some found => return found
  | none => throw (.unknownName name)

def changeManager (name : String) (change : Manager → Manager) : Work Unit := do
  let (number, manager) ← Work.manager name
  modify fun workspace => workspace.setManager number (change manager)

def rendererOf (name : String) : Work (Nat × Renderer) := do
  let (_, manager) ← Work.manager name
  match (← get).renderers[manager.renderer]? with
  | some renderer => return (manager.renderer, renderer)
  | none => throw (.noManager name)

def changeRenderer (name : String) (change : Renderer → Renderer) : Work Unit := do
  let (number, renderer) ← rendererOf name
  modify fun workspace => workspace.setRenderer number (change renderer)

def onCache {α : Type} (number : Nat) (action : Action α) : Work α := do
  let workspace ← get
  match workspace.managers[number]? with
  | none => throw (.noManager (toString number))
  | some manager =>
      let keep (store : Store) : Workspace :=
        { workspace.setManager number { manager with cache := store.cache } with
          reports := store.reports }
      match action.run ⟨manager.cache, .start, workspace.reports, 0⟩ with
      | .ok result store =>
          set (keep store)
          return result
      | .error fault store =>
          set (keep store)
          throw (.fault fault)

def tokenize (name : String) (keep : Bool) (template : String) : Work Tokens := do
  let (number, manager) ← Work.manager name
  let library := (← get).library manager
  onCache number (Logicless.tokenize library keep template)

def compile (name : String) (template : Option String) (text : String) : Work Tokens := do
  let (number, manager) ← Work.manager name
  let library := (← get).library manager
  onCache number (Logicless.compile library template text)

/-- Renders tokens with the renderer of a manager, in the cache of the renderer's home. -/
def renderTokens (name : String) (tokens : Tokens) (view : Value) (aliases : Table Tokens) :
    Work String := do
  let (_, renderer) ← rendererOf name
  let setting := (← get).setting renderer
  onCache renderer.home (Logicless.render setting tokens view aliases)

/-- Renders a template with a manager: its partials and its tokens are found by the manager, and
rendered by the manager's renderer. -/
def render (name : String) (template : String) (view : Value) (partials : Partials) :
    Work String := do
  let (number, manager) ← Work.manager name
  let library := (← get).library manager
  let (aliases, tokens) ← onCache number (prepare library template partials)
  renderTokens name tokens view aliases

def restore (name : String) (cache : Cache) : Work Unit :=
  changeManager name fun manager => { manager with cache }

def shareRenderer (name donor : String) : Work Unit := do
  let (home, _) ← Work.manager name
  discard <| Work.donor donor
  let (number, renderer) ← rendererOf donor
  modify fun workspace => workspace.setRenderer number { renderer with home }
  changeManager name fun manager => { manager with renderer := number }

def addPragma (name : String) (given : Given Pragma) : Work Unit := do
  let (_, manager) ← Work.manager name
  let (pragmas, events) ← ofExcept (manager.pragmas.add given)
  reportAll events
  changeManager name fun manager => { manager with pragmas }

def changeChains (change : Chain → Chain) : Work Unit :=
  modify fun workspace => { workspace with
    managers := workspace.managers.map fun manager =>
      { manager with chain := change manager.chain } }

/-- Attaches what is given to the chain of a manager. A label goes over from whatever has it. -/
def attach (name : String) (given : Given Resolver) (label : Option String) (priority : Int) :
    Work Unit := do
  let (_, manager) ← Work.manager name
  let chain ← ofExcept ((manager.chain.release label).attach given label priority)
  changeChains (Chain.release label)
  changeManager name fun manager => { manager with chain }

def labelled (label : String) : Work Resolver := do
  let found := (← get).managers.findSome? fun manager => manager.chain.labelled? label
  match found with
  | some resolver => return resolver
  | none => throw (.unknownName label)

def writeFile (path : Path) (content : List UInt8) : Work Unit := do
  let workspace ← get
  let tree ← ofFiles (workspace.tree.write workspace.base path content)
  set { workspace with tree }

def makeDirectory (path : Path) : Work Unit := do
  let workspace ← get
  let (tree, _) ← ofFiles (workspace.tree.makeDirectory workspace.base path)
  set { workspace with tree }

def folders (name : String) : Work Folders := do
  let (_, manager) ← Work.manager name
  return manager.chain.folders?.getD .standard

/-- Changes the template directories of a manager. A chain that has none is given some. -/
def changeFolders (name : String) (change : Folders → Except Fault Folders) : Work Folders := do
  let known ← folders name
  changeManager name fun manager => { manager with chain := manager.chain.putFolders known }
  let changed ← ofExcept (change known)
  changeManager name fun manager => { manager with chain := manager.chain.putFolders changed }
  return changed

def addFolder (name : String) (path : Path) : Work Unit := do
  let workspace ← get
  report (.consulted path.toString)
  discard <| changeFolders name fun folders => folders.add workspace.tree workspace.base path

def loadConfig (path : Path) : Work Config := do
  let workspace ← get
  report (.consulted path.toString)
  let config ← ofConfig (Config.load workspace.documents workspace.tree workspace.base path)
  report (Config.loaded path config)
  return config

def addConfigured (name : String) : List Path → Work Unit
  | [] => pure ()
  | path :: rest => do
      tryCatch (addFolder name path) fun failure =>
        match failure with
        | .fault (.notADirectory shown) => throw (.config (.notADirectory shown))
        | other => throw other
      addConfigured name rest

def escaperOf : EscapeMode → Escaper
  | .html => .html
  | .none => .none

/-- Configures a manager. Unknown pragmas are refused before anything is changed; a template path
that is no directory ends the configuration where it stands. -/
def applyConfig (name : String) (config : Config) : Work Unit := do
  let (_, manager) ← Work.manager name
  let missing := config.pragmas.filter fun pragma => !manager.pragmas.contains pragma
  if !missing.isEmpty then throw (.config (.unknownPragmas missing))
  discard <| changeFolders name fun folders =>
    .ok ((folders.withSuffix config.suffix).withSeparator config.separator)
  addConfigured name config.templatePaths
  changeRenderer name fun renderer =>
    { renderer with escape := escaperOf config.escape, maxDepth := config.maxDepth }

/-- Adds a manager with a configuration. A manager that cannot be configured gets no name. -/
def addConfiguredManager (name : String) (config : Config) : Work Unit := do
  let names := (← get).names
  modify fun workspace => workspace.addManager name .standard
  tryCatch (applyConfig name config) fun failure => do
    modify fun workspace => { workspace with names }
    throw failure

end Work

end Logicless
