import Logicless.Proofs.Telling

namespace Logicless.CommandLine

/-- What the manager of a request is made of, and what has been reported. -/
structure Site where
  folders : Folders
  escape : Escaper
  maxDepth : Option Int
  cache : Cache
  reports : List Event

namespace Site

def start : Site := ⟨.standard, .html, none, .empty, []⟩

def chain (site : Site) : Chain := .only (.folders site.folders) none 0

def within (site : Site) (surroundings : Surroundings) (limits : Limits) : Workspace where
  managers := [⟨site.chain, .standard, site.cache, 0⟩]
  renderers := [⟨0, site.escape, site.maxDepth⟩]
  names := Table.empty.insert managerName 0
  snapshots := .empty
  tree := surroundings.tree
  base := surroundings.directory
  reports := site.reports
  documents := surroundings.documents
  chainLimit := limits.chain
  nestingLimit := limits.nesting

def report (site : Site) (event : Event) : Site := { site with reports := event :: site.reports }

theorem manager_within (site : Site) (surroundings : Surroundings) (limits : Limits) :
    (site.within surroundings limits).manager? managerName =
      some (0, ⟨site.chain, .standard, site.cache, 0⟩) := rfl

end Site

/-- A step that from a site ends in the same way for all limits from a bound on: in a result and a
site that meet a condition, or in a fault that is blamed. -/
inductive Steps {ε α : Type} (surroundings : Surroundings) (bound : Nat)
    (blamed : ε → List Event → Prop) (site : Site) (holds : α → Site → Prop)
    (step : EStateM ε Workspace α) : Prop where
  | ok (result : α) (next : Site) (here : holds result next)
      (runs : ∀ limits : Limits, bound ≤ limits.chain →
        step (site.within surroundings limits) = .ok result (next.within surroundings limits))
  | error (fault : ε) (next : Site) (blame : blamed fault next.reports)
      (runs : ∀ limits : Limits, bound ≤ limits.chain →
        step (site.within surroundings limits) = .error fault (next.within surroundings limits))

namespace Steps

variable {ε α β : Type} {surroundings : Surroundings} {bound : Nat}
  {blamed : ε → List Event → Prop} {site : Site} {holds : α → Site → Prop}

theorem gives {result : α} (here : holds result site) :
    Steps surroundings bound blamed site holds (pure result) :=
  .ok result site here fun _ _ => rfl

theorem fails {fault : ε} (blame : blamed fault site.reports) :
    Steps surroundings bound blamed site holds (throw fault) :=
  .error fault site blame fun _ _ => rfl

theorem andThen {first : EStateM ε Workspace α} {next : α → EStateM ε Workspace β}
    {after : β → Site → Prop} (begins : Steps surroundings bound blamed site holds first)
    (continues : ∀ result reached, holds result reached →
      Steps surroundings bound blamed reached after (next result)) :
    Steps surroundings bound blamed site after (first >>= next) := by
  cases begins with
  | ok result reached here runs =>
      cases continues result reached here with
      | ok last final there later =>
          exact .ok last final there fun limits enough =>
            (bind_of_ok (runs limits enough)).trans (later limits enough)
      | error fault final blame later =>
          exact .error fault final blame fun limits enough =>
            (bind_of_ok (runs limits enough)).trans (later limits enough)
  | error fault reached blame runs =>
      exact .error fault reached blame fun limits enough => bind_of_error (runs limits enough)

theorem weaken {step : EStateM ε Workspace α}
    (steps : Steps surroundings bound blamed site holds step) {weaker : α → Site → Prop}
    (implies : ∀ result reached, holds result reached → weaker result reached) :
    Steps surroundings bound blamed site weaker step := by
  cases steps with
  | ok result reached here runs => exact .ok result reached (implies result reached here) runs
  | error fault reached blame runs => exact .error fault reached blame runs

/-- A step that looks at the files and at the working directory only. -/
theorem reads {next : Workspace → EStateM ε Workspace α} {step : EStateM ε Workspace α}
    (same : ∀ limits, next (site.within surroundings limits) = step)
    (steps : Steps surroundings bound blamed site holds step) :
    Steps surroundings bound blamed site holds (get >>= next) := by
  have goesOn (limits : Limits) : (get >>= next) (site.within surroundings limits) =
      step (site.within surroundings limits) := by rw [get_bind, same]
  cases steps with
  | ok result reached here runs =>
      exact .ok result reached here fun limits enough => (goesOn limits).trans (runs limits enough)
  | error fault reached blame runs =>
      exact .error fault reached blame fun limits enough =>
        (goesOn limits).trans (runs limits enough)

theorem ignores {step : EStateM ε Workspace α} {holds : Unit → Site → Prop}
    (steps : Steps surroundings bound blamed site (fun _ => holds ()) step) :
    Steps surroundings bound blamed site holds (discard step) := by
  cases steps with
  | ok result reached here runs =>
      exact .ok () reached here fun limits enough => discard_of_ok (runs limits enough)
  | error fault reached blame runs =>
      exact .error fault reached blame fun limits enough => discard_of_error (runs limits enough)

theorem handled {step : Work α} {handle : Failure → Work α}
    {raised blamed : Failure → List Event → Prop}
    (steps : Steps surroundings bound raised site holds step)
    (handles : ∀ failure reached, raised failure reached.reports →
      Steps surroundings bound blamed reached holds (handle failure)) :
    Steps surroundings bound blamed site holds (tryCatch step handle) := by
  cases steps with
  | ok result reached here runs =>
      exact .ok result reached here fun limits enough => tryCatch_of_ok (runs limits enough)
  | error failure reached raise runs =>
      cases handles failure reached raise with
      | ok result last here later =>
          exact .ok result last here fun limits enough =>
            (tryCatch_of_error (runs limits enough)).trans (later limits enough)
      | error fault last blame later =>
          exact .error fault last blame fun limits enough =>
            (tryCatch_of_error (runs limits enough)).trans (later limits enough)

theorem ofWork {blamed : RunFault → List Event → Prop} {work : Work α}
    (steps : Steps surroundings bound (fun failure => blamed (.failure failure)) site holds work) :
    Steps surroundings bound blamed site holds (Run.ofWork work) := by
  cases steps with
  | ok result reached here runs =>
      refine .ok result reached here fun limits enough => ?_
      simp only [Run.ofWork, runs limits enough]
  | error failure reached blame runs =>
      refine .error (.failure failure) reached blame fun limits enough => ?_
      simp only [Run.ofWork, runs limits enough]

end Steps

/-- Faults that end a run with something to read. -/
structure RunFault.Told (fault : RunFault) : Prop where
  mendable : fault.isMendable = true
  speaks : Speaks fault.message

theorem RunFault.told_of_fault {fault : Fault} (told : fault.Told) :
    RunFault.Told (.failure (.fault fault)) := ⟨told.mendable, told.speaks⟩

/-- Whether a run ends in a fault that the user is told of, or that lies in a path that has been
looked at and is too long. -/
def Blamed (tree : FileTree) (fault : RunFault) (events : List Event) : Prop :=
  fault.Told ∨ fault = .failure (.fault (.file .tooLong)) ∧ tree.OverLong events

theorem blamed_of_blames {tree : FileTree} {fault : Fault} {events : List Event}
    (blames : tree.Blames fault events) : Blamed tree (.failure (.fault fault)) events := by
  rcases blames with told | ⟨rfl, overLong⟩
  · exact .inl (RunFault.told_of_fault told)
  · exact .inr ⟨rfl, overLong⟩

section

variable {surroundings : Surroundings} {bound : Nat} {site : Site}

/-- Work that is done at the site of the manager. -/
abbrev Works {α : Type} (surroundings : Surroundings) (bound : Nat) (site : Site)
    (holds : α → Site → Prop) (work : Work α) : Prop :=
  Steps surroundings bound (fun failure => Blamed surroundings.tree (.failure failure)) site holds
    work

theorem report_works (event : Event) :
    Works surroundings bound site (fun _ next => next = site.report event) (Work.report event) :=
  .ok () _ rfl fun _ _ => rfl

theorem changeFolders_works {change : Folders → Except Fault Folders}
    {holds : Folders → Site → Prop}
    (changes : ∀ changed, change site.folders = .ok changed →
      holds changed { site with folders := changed })
    (blames : ∀ fault, change site.folders = .error fault →
      surroundings.tree.Blames fault site.reports) :
    Works surroundings bound site holds (Work.changeFolders managerName change) := by
  cases changed : change site.folders with
  | ok folders =>
      refine .ok folders _ (changes folders changed) fun limits _ => ?_
      exact Work.changeFolders_of_ok (site.manager_within surroundings limits) rfl change changed
  | error fault =>
      refine .error (.fault fault) site (blamed_of_blames (blames fault changed)) fun limits _ => ?_
      exact Work.changeFolders_of_error (site.manager_within surroundings limits) rfl change changed

theorem changeRenderer_works {change : Renderer → Renderer} {escape : Escaper}
    {maxDepth : Option Int}
    (changes : change ⟨0, site.escape, site.maxDepth⟩ = ⟨0, escape, maxDepth⟩) :
    Works surroundings bound site (fun _ next => next = { site with escape, maxDepth })
      (Work.changeRenderer managerName change) := by
  refine .ok () _ rfl fun limits _ => ?_
  have known := Work.rendererOf_of_known (site.manager_within surroundings limits) rfl
  refine (bind_of_ok known).trans ?_
  change EStateM.Result.ok () ((site.within surroundings limits).setRenderer 0 (change _)) = _
  rw [changes]
  rfl

/-- A site at which nothing has been compiled, with escaping that gives texts. -/
structure Site.Ready (site : Site) : Prop where
  cache : site.cache = .empty
  escape : site.escape.Writes

theorem Site.Ready.report (ready : site.Ready) (event : Event) : (site.report event).Ready :=
  ⟨ready.cache, ready.escape⟩

theorem Site.Ready.folders (ready : site.Ready) (folders : Folders) :
    { site with folders }.Ready :=
  ⟨ready.cache, ready.escape⟩

theorem addFolder_works (path : Path) (ready : site.Ready) :
    Works surroundings bound site (fun _ next => next.Ready) (Work.addFolder managerName path) := by
  have added : Works surroundings bound site (fun _ next => next.Ready) (do
      Work.report (.consulted path.toString)
      discard <| Work.changeFolders managerName fun folders =>
        folders.add surroundings.tree surroundings.directory path) := by
    refine Steps.andThen (report_works _) ?_
    rintro _ _ rfl
    refine .ignores (changeFolders_works (fun folders _ => (ready.report _).folders folders) ?_)
    exact fun fault failed => Folders.add_blames failed (.head _)
  exact .reads (fun _ => rfl) added

theorem addConfigured_works (paths : List Path) (ready : site.Ready) :
    Works surroundings bound site (fun _ next => next.Ready)
      (Work.addConfigured managerName paths) := by
  induction paths generalizing site with
  | nil => exact .gives ready
  | cons path rest ih =>
      refine Steps.andThen (.handled (addFolder_works path ready) ?_) fun _ _ later => ih later
      intro failure reached blame
      split
      · exact .fails (.inl ⟨rfl, .append (.ofList rfl) _⟩)
      · exact .fails blame

theorem RunFault.told_of_config {fault : ConfigFault}
    (mendable : RunFault.isMendableConfig fault = true)
    (whole : ∀ cause, fault ≠ .trouble cause) : RunFault.Told (.failure (.config fault)) := by
  refine ⟨mendable, ?_⟩
  cases fault with
  | unreadable path => exact .append (.ofList rfl) path
  | undecodable cause =>
      have told : (Fault.undecodable cause).Told := Fault.told_of_mendable rfl (by simp)
      exact told.speaks
  | noMapping path => exact .append (.ofList rfl) path
  | invalid path fields => exact .append (.ofList rfl) path
  | unknownPragmas names => exact .append (.ofList rfl) _
  | notADirectory path => exact .append (.ofList rfl) path
  | file flaw =>
      obtain rfl : flaw = .zero := by simpa [RunFault.isMendableConfig] using mendable
      rfl
  | trouble cause => exact absurd rfl (whole cause)

end

/-- The path at which a request has a configuration, if there is one. -/
def Request.configPath (request : Request) (surroundings : Surroundings) : Path :=
  match request.config.filter fun path => !path.isEmpty with
  | some path => .ofString path
  | none => (Path.ofPlace surroundings.directory).join (.ofString Config.fileName)

/-- Whether a file has a text. -/
def Surroundings.Holds (surroundings : Surroundings) (path : Path) (text : List Char) : Prop :=
  ∃ content chars, surroundings.tree.access surroundings.directory path = .ok (.file content) ∧
    Text.decodeUtf8 content = .ok chars ∧ text = Text.plainNewlines chars

theorem RunFault.told_of_documented {fault : ConfigFault} (documented : fault.Documented) :
    RunFault.Told (.failure (.config fault)) := by
  cases documented <;> exact RunFault.told_of_config rfl (by simp)

section

variable {surroundings : Surroundings} {bound : Nat} {site : Site} {request : Request}
  (checks : surroundings.documents.Checks)

include checks

theorem ofContent_told {path : Path} {content : List UInt8} {fault : ConfigFault}
    (tame : ∀ chars, Text.decodeUtf8 content = .ok chars →
      surroundings.documents.Tames (Text.plainNewlines chars))
    (failed : Config.ofContent surroundings.documents path content = .error fault) :
    RunFault.Told (.failure (.config fault)) := by
  unfold Config.ofContent at failed
  cases decoded : Text.decodeUtf8 content with
  | error flaw =>
      rw [decoded] at failed
      cases failed
      exact RunFault.told_of_config rfl (by simp)
  | ok chars =>
      rw [decoded] at failed
      rcases tame chars decoded with ⟨value, read, -⟩ | malformed
      · simp only [read] at failed
        exact RunFault.told_of_documented (Config.ofValue_documented checks failed)
      · simp only [malformed] at failed
        cases failed
        exact RunFault.told_of_config rfl (by simp)

theorem load_told {path : Path}
    (tame : ∀ text, surroundings.Holds path text → surroundings.documents.Tames text)
    {fault : ConfigFault}
    (failed : Config.load surroundings.documents surroundings.tree surroundings.directory path =
      .error fault) :
    RunFault.Told (.failure (.config fault)) := by
  unfold Config.load at failed
  cases found : surroundings.tree.access surroundings.directory path with
  | error flaw =>
      rw [found] at failed
      cases flaw <;> cases failed <;> exact RunFault.told_of_config rfl (by simp)
  | ok entry =>
      rw [found] at failed
      cases entry with
      | missing | directory =>
          cases failed
          exact RunFault.told_of_config rfl (by simp)
      | file content =>
          simp only at failed
          cases read : Config.ofContent surroundings.documents path content with
          | ok config =>
              rw [read] at failed
              cases failed
          | error raised =>
              rw [read] at failed
              cases failed
              refine ofContent_told checks (fun chars decoded => ?_) read
              exact tame _ ⟨content, chars, found, decoded, rfl⟩

theorem loadConfig_works {path : Path}
    (tame : ∀ text, surroundings.Holds path text → surroundings.documents.Tames text)
    (ready : site.Ready) :
    Works surroundings bound site (fun _ next => next.Ready) (Work.loadConfig path) := by
  have loaded : Works surroundings bound site (fun _ next => next.Ready) (do
      Work.report (.consulted path.toString)
      let config ← Work.ofConfig
        (Config.load surroundings.documents surroundings.tree surroundings.directory path)
      Work.report (Config.loaded path config)
      return config) := by
    refine Steps.andThen (report_works _) ?_
    rintro _ _ rfl
    have read : Works surroundings bound (site.report (.consulted path.toString))
        (fun _ next => next.Ready)
        (Work.ofConfig
          (Config.load surroundings.documents surroundings.tree surroundings.directory path)) := by
      cases given :
          Config.load surroundings.documents surroundings.tree surroundings.directory path with
      | error fault => exact .fails (.inl (load_told checks tame given))
      | ok config => exact .gives (ready.report _)
    refine Steps.andThen read fun config reached here => Steps.andThen (report_works _) ?_
    rintro _ _ rfl
    exact .gives (here.report _)
  exact .reads (fun _ => rfl) loaded

omit checks in
theorem applyConfig_works (config : Config) (ready : site.Ready) :
    Works surroundings bound site (fun _ next => next.Ready)
      (Work.applyConfig managerName config) := by
  have configured : Works surroundings bound site (fun _ next => next.Ready) (do
      discard <| Work.changeFolders managerName fun folders =>
        .ok ((folders.withSuffix config.suffix).withSeparator config.separator)
      Work.addConfigured managerName config.templatePaths
      Work.changeRenderer managerName fun renderer =>
        { renderer with escape := Work.escaperOf config.escape, maxDepth := config.maxDepth }) := by
    have wanted : Works surroundings bound site (fun _ next => next.Ready)
        (discard <| Work.changeFolders managerName fun folders =>
          .ok ((folders.withSuffix config.suffix).withSeparator config.separator)) :=
      .ignores (changeFolders_works (fun folders _ => ready.folders folders) (by simp))
    refine Steps.andThen wanted fun _ _ here => ?_
    refine Steps.andThen (addConfigured_works _ here) fun _ _ there => ?_
    refine Steps.weaken (changeRenderer_works rfl) ?_
    rintro _ _ rfl
    refine ⟨there.cache, ?_⟩
    cases config.escape with
    | html => exact Escaper.writes_html
    | none => exact Escaper.writes_none
  have known : Works surroundings bound site
      (fun found next => found = (0, ⟨site.chain, .standard, site.cache, 0⟩) ∧ site = next)
      (Work.manager managerName) :=
    .ok _ site ⟨rfl, rfl⟩ fun limits _ =>
      Work.manager_of_known (site.manager_within surroundings limits)
  refine Steps.andThen known ?_
  rintro _ _ ⟨rfl, rfl⟩
  dsimp only
  split
  · have refused (missing : List String) : Works surroundings bound site
        (fun (_ : PUnit) _ => False) (throw (.config (.unknownPragmas missing))) :=
      .fails (.inl (RunFault.told_of_config rfl (by simp)))
    exact Steps.andThen (refused _) fun _ _ none => none.elim
  · exact configured

/-- Finds the configuration that is asked for, or that of the working directory if it has one. -/
def Request.choose (request : Request) (surroundings : Surroundings) : Run (Option Path) :=
  match request.config.filter fun path => !path.isEmpty with
  | some path => pure (some (Path.ofString path))
  | none => do
      let directory := Path.ofPlace surroundings.directory
      Run.ofWork (Work.report (.consulted (directory.join (.ofString Config.fileName)).toString))
      Run.ofWork (Work.ofFiles (Config.find? surroundings.tree surroundings.directory directory))

def applyChosen (chosen : Option Path) : Run Unit := do
  if let some path := chosen then
    let config ← Run.ofWork (Work.loadConfig path)
    Run.ofWork (Work.applyConfig managerName config)

omit checks in
theorem choose_steps (ready : site.Ready) :
    Steps surroundings bound (Blamed surroundings.tree) site
      (fun chosen next => next.Ready ∧ ∀ path ∈ chosen, path = request.configPath surroundings)
      (request.choose surroundings) := by
  unfold Request.choose Request.configPath
  cases request.config.filter fun path => !path.isEmpty with
  | some path =>
      refine .gives ⟨ready, fun other same => ?_⟩
      exact (Option.mem_some.mp same).symm
  | none =>
      refine Steps.andThen (.ofWork (report_works _)) ?_
      rintro _ _ rfl
      refine .ofWork ?_
      unfold Config.find?
      extract_lets candidate
      cases known : surroundings.tree.entryAt surroundings.directory candidate with
      | error flaw =>
          cases FileTree.entryAt_refuses known
          exact .fails (.inr ⟨rfl, _, _, .head _, known⟩)
      | ok entry =>
          refine .gives ⟨ready.report _, fun path same => ?_⟩
          cases entry with
          | file => exact (Option.some.inj same).symm
          | missing | directory => cases same

theorem configure_steps
    (tame : ∀ text, surroundings.Holds (request.configPath surroundings) text →
      surroundings.documents.Tames text)
    (ready : site.Ready) :
    Steps surroundings bound (Blamed surroundings.tree) site (fun _ next => next.Ready)
      (configure request) := by
  have configured : Steps surroundings bound (Blamed surroundings.tree) site
      (fun _ next => next.Ready) (request.choose surroundings >>= applyChosen) := by
    refine Steps.andThen (choose_steps ready) fun chosen reached here => ?_
    obtain ⟨there, same⟩ := here
    cases chosen with
    | none => exact .gives there
    | some path =>
        obtain rfl := same path rfl
        exact Steps.andThen (.ofWork (loadConfig_works checks tame there)) fun config _ later =>
          .ofWork (applyConfig_works config later)
  refine .reads (fun limits => ?_) configured
  unfold Request.choose
  cases request.config.filter fun path => !path.isEmpty with
  | some path => rfl
  | none => exact (bind_assoc _ _ _).symm

omit checks in
theorem addPaths_steps (paths : List String) (ready : site.Ready) :
    Steps surroundings bound (Blamed surroundings.tree) site (fun _ next => next.Ready)
      (paths.forM fun path => Run.ofWork (Work.addFolder managerName (Path.ofString path))) := by
  induction paths generalizing site with
  | nil => exact .gives ready
  | cons path rest ih =>
      exact Steps.andThen (.ofWork (addFolder_works _ ready)) fun _ _ later => ih later

/-- A request makes its manager ready, or fails as the user is told or in a path that is too long.
-/
theorem prepareManager_steps
    (tame : ∀ text, surroundings.Holds (request.configPath surroundings) text →
      surroundings.documents.Tames text) :
    Steps surroundings bound (Blamed surroundings.tree) .start (fun _ next => next.Ready)
      (prepareManager request) := by
  have fresh : Site.start.Ready := ⟨rfl, Escaper.writes_html⟩
  refine Steps.andThen (configure_steps checks tame fresh) fun _ reached here => ?_
  have wired {site : Site} (ready : site.Ready) :
      Steps surroundings bound (Blamed surroundings.tree) site (fun _ next => next.Ready) (do
        request.paths.forM fun path =>
          Run.ofWork (Work.addFolder managerName (Path.ofString path))
        if request.raw then
          Run.ofWork (Work.changeRenderer managerName fun renderer =>
            { renderer with escape := .none })) := by
    refine Steps.andThen (addPaths_steps _ ready) fun _ _ there => ?_
    split
    · refine .ofWork (Steps.weaken (changeRenderer_works rfl) ?_)
      rintro _ _ rfl
      exact ⟨there.cache, Escaper.writes_none⟩
    · exact .gives there
  cases request.suffix with
  | none => exact wired here
  | some suffix =>
      have suffixed : Steps surroundings bound (Blamed surroundings.tree) reached
          (fun _ next => next.Ready)
          (discard <| Run.ofWork (Work.changeFolders managerName fun folders =>
            .ok (folders.withSuffix suffix))) :=
        .ignores (.ofWork (changeFolders_works (fun folders _ => here.folders folders) (by simp)))
      exact Steps.andThen suffixed fun _ _ later => wired later

end

end Logicless.CommandLine
