import Logicless.Workspace

namespace Logicless

/-!
Sessions: sequences of operations on a workspace, as data.

A `Step` is an operation on the manager that goes by a name, or on what managers share. `perform`
carries it out and gives what there is to show for it.
-/

inductive Step where
  /-- A new manager, with an empty chain or with the standard one. -/
  | create (empty : Bool)
  | render (template : String) (view : Value) (partials : Partials)
  | tokenize (template : String) (keep : Bool)
  | compile (template : Option String) (text : String)
  | showCache
  | clearCopy
  | save (snapshot : String)
  | restore (snapshot : String)
  | setEscaper (given : Given Escaper)
  | setDepth (limit : Option Int)
  | shareRenderer (donor : String)
  | shareCompiler (donor : String)
  | addPragma (given : Given Pragma)
  | removePragma (pragma : String)
  | findPragma (pragma : String)
  | describePragmas (asked : List String)
  | attach (given : Given Resolver) (label : Option String := none) (priority : Int := 1)
  | setTemplate (label template text : String)
  | hasTemplate (label template : String)
  | resolve (template : String) (label : Option String)
  | showChain
  | findLink (kind : Option Resolver.Kind)
  | writeFile (path : Path) (content : List UInt8)
  | makeDirectory (path : Path)
  | addFolder (path : Path)
  | showFolders
  | setSuffix (suffix : String)
  | setSeparator (separator : String)
  | loadConfig (path : Path)
  | findConfig (path : Path)
  | applyConfig (path : Path)
  | createFrom (path : Path)

inductive Shown where
  | nothing
  | flag (flag : Bool)
  | text (text : String)
  | texts (texts : List String)
  | tokens (tokens : Tokens)
  | cache (cache : Cache)
  | answer (answer : Answer)
  | pragmas (names : List String) (known : List Bool)
  | links (links : List (Option String × Resolver.Kind))
  /-- Whether there is a link of a kind, and the first one. -/
  | link (known : Bool) (link : Option (Option String × Resolver.Kind))
  | config (config : Config)
  | path (path : Option Path)

namespace Session

def describe (link : Rank × Resolver) : Option String × Resolver.Kind :=
  (link.1.label, link.2.kind)

def withTemplate (template text : String) : Resolver → Resolver
  | .mapping templates => .mapping (templates.insert template text)
  | resolver => resolver

def mappingOf (label : String) : Work (Table String) := do
  match ← Work.labelled label with
  | .mapping templates => return templates
  | _ => throw (.fault (.trouble .missingMember))

def resolve (manager template : String) (label : Option String) : Work Answer := do
  let workspace ← get
  let retrieval ←
    match label with
    | some label => do
        let resolver ← Work.labelled label
        pure (resolver.ask workspace.tree template)
    | none => do
        let (_, state) ← Work.manager manager
        pure ((workspace.library state).source template)
  modify fun workspace =>
    { workspace with reports := retrieval.reports.reverse ++ workspace.reports }
  Work.ofExcept retrieval.answer

def perform (manager : String) : Step → Work Shown
  | .create empty => do
      modify fun workspace => workspace.addManager manager (if empty then .empty else .standard)
      return .nothing
  | .render template view partials => return .text (← Work.render manager template view partials)
  | .tokenize template keep => return .tokens (← Work.tokenize manager keep template)
  | .compile template text => return .tokens (← Work.compile manager template text)
  | .showCache => do
      let (_, state) ← Work.manager manager
      return .cache state.cache
  | .clearCopy => do
      discard <| Work.manager manager
      return .nothing
  | .save snapshot => do
      let (_, state) ← Work.manager manager
      modify fun workspace =>
        { workspace with snapshots := workspace.snapshots.insert snapshot state.cache }
      return .nothing
  | .restore snapshot => do
      discard <| Work.manager manager
      match (← get).snapshots.get? snapshot with
      | some cache => Work.restore manager cache
      | none => throw (.unknownName snapshot)
      return .nothing
  | .setEscaper given => do
      discard <| Work.manager manager
      let escape ← Work.ofExcept given.escaper
      Work.changeRenderer manager fun renderer => { renderer with escape }
      return .nothing
  | .setDepth maxDepth => do
      Work.changeRenderer manager fun renderer => { renderer with maxDepth }
      return .nothing
  | .shareRenderer donor => do
      Work.shareRenderer manager donor
      return .flag true
  | .shareCompiler donor => do
      discard <| Work.manager manager
      discard <| Work.donor donor
      return .nothing
  | .addPragma given => do
      Work.addPragma manager given
      return .nothing
  | .removePragma pragma => do
      Work.changeManager manager fun state => { state with pragmas := state.pragmas.erase pragma }
      return .nothing
  | .findPragma pragma => do
      let (_, state) ← Work.manager manager
      match state.pragmas.get? pragma with
      | some found => return .text found.name
      | none => throw (.fault (.unknownPragma pragma))
  | .describePragmas asked => do
      let (_, state) ← Work.manager manager
      return .pragmas state.pragmas.names (asked.map state.pragmas.contains)
  | .attach given label priority => do
      Work.attach manager given label priority
      return .nothing
  | .setTemplate label template text => do
      discard <| mappingOf label
      Work.changeChains (Chain.adjust label (withTemplate template text))
      return .nothing
  | .hasTemplate label template => return .flag ((← mappingOf label).contains template)
  | .resolve template label => return .answer (← resolve manager template label)
  | .showChain => do
      let (_, state) ← Work.manager manager
      return .links (state.chain.links.map describe)
  | .findLink kind => do
      let (_, state) ← Work.manager manager
      return .link (state.chain.hasKind kind) ((state.chain.findKind? kind).map describe)
  | .writeFile path content => do
      Work.writeFile path content
      return .nothing
  | .makeDirectory path => do
      Work.makeDirectory path
      return .nothing
  | .addFolder path => do
      Work.addFolder manager path
      return .nothing
  | .showFolders => do
      let folders ← Work.changeFolders manager .ok
      return .texts (folders.places.map fun place => (Path.ofPlace place).toString)
  | .setSuffix suffix => do
      let folders ← Work.changeFolders manager fun folders => .ok (folders.withSuffix suffix)
      return .text folders.suffix
  | .setSeparator separator => do
      discard <| Work.changeFolders manager fun folders => .ok (folders.withSeparator separator)
      return .nothing
  | .loadConfig path => return .config (← Work.loadConfig path)
  | .findConfig path => do
      let workspace ← get
      return .path (← Work.ofFiles (Config.find? workspace.tree workspace.base path))
  | .applyConfig path => do
      Work.applyConfig manager (← Work.loadConfig path)
      return .nothing
  | .createFrom path => do
      Work.addConfiguredManager manager (← Work.loadConfig path)
      return .nothing

end Session

end Logicless
