import Logicless.Proofs.Run
import Logicless.Session

namespace Logicless

/-- Which renderer each manager holds, and which manager is the home of each renderer. -/
structure Wiring where
  held : List Nat
  homes : List Nat

namespace Wiring

def empty : Wiring := ⟨[], []⟩

/-- One more manager, with a renderer of its own. -/
def extend (wiring : Wiring) : Wiring where
  held := wiring.held ++ [wiring.homes.length]
  homes := wiring.homes ++ [wiring.held.length]

/-- A renderer becomes that of a manager. -/
def install (wiring : Wiring) (renderer manager : Nat) : Wiring where
  held := wiring.held.set manager renderer
  homes := wiring.homes.set renderer manager

/-- Whether managers hold only renderers that exist. -/
def Sound (wiring : Wiring) : Prop := ∀ renderer ∈ wiring.held, renderer < wiring.homes.length

theorem sound_empty : empty.Sound := nofun

theorem Sound.extend {wiring : Wiring} (sound : wiring.Sound) : wiring.extend.Sound := by
  simp only [Sound, Wiring.extend, List.forall_mem_append, List.forall_mem_singleton,
    List.length_append, List.length_singleton]
  exact ⟨fun renderer member => Nat.lt_succ_of_lt (sound renderer member), Nat.lt_succ_self _⟩

theorem Sound.install {wiring : Wiring} (sound : wiring.Sound) {renderer : Nat}
    (present : renderer < wiring.homes.length) (manager : Nat) :
    (wiring.install renderer manager).Sound := by
  intro other member
  rw [Wiring.install, List.length_set]
  rcases List.mem_or_eq_of_mem_set member with before | rfl
  · exact sound other before
  · exact present

end Wiring

/-- Replacing an entry changes nothing that is the same of both. -/
theorem map_set_of_eq {α β : Type} {part : α → β} {entries : List α} {number : Nat}
    {former latter : α} (held : entries[number]? = some former) (same : part latter = part former) :
    (entries.set number latter).map part = entries.map part := by
  refine List.ext_getElem? fun index => ?_
  rw [List.getElem?_map, List.getElem?_map]
  by_cases here : index = number
  · rw [here, List.getElem?_set_self (List.getElem?_eq_some_iff.mp held).1, held, Option.map_some,
      Option.map_some, same]
  · rw [List.getElem?_set_ne (Ne.symm here)]

namespace Workspace

def wiring (workspace : Workspace) : Wiring where
  held := workspace.managers.map (·.renderer)
  homes := workspace.renderers.map (·.home)

variable {workspace : Workspace} {name : String} {number : Nat} {manager : Manager}

theorem manager?_eq_some_iff : workspace.manager? name = some (number, manager) ↔
    workspace.names.get? name = some number ∧ workspace.managers[number]? = some manager := by
  unfold manager?
  cases workspace.names.get? name with
  | none => simp
  | some found =>
      simp only [Option.map_eq_some_iff, Prod.mk.injEq, Option.some.injEq]
      constructor
      · rintro ⟨other, held, rfl, rfl⟩
        exact ⟨rfl, held⟩
      · rintro ⟨rfl, held⟩
        exact ⟨manager, held, rfl, rfl⟩

theorem held_of_manager? (known : workspace.manager? name = some (number, manager)) :
    workspace.managers[number]? = some manager :=
  (manager?_eq_some_iff.mp known).2

theorem wiring_setManager (held : workspace.managers[number]? = some manager) {other : Manager}
    (same : other.renderer = manager.renderer) :
    (workspace.setManager number other).wiring = workspace.wiring := by
  simp only [wiring, setManager, map_set_of_eq held same]

theorem wiring_setRenderer {renderer other : Renderer}
    (held : workspace.renderers[number]? = some renderer) (same : other.home = renderer.home) :
    (workspace.setRenderer number other).wiring = workspace.wiring := by
  simp only [wiring, setRenderer, map_set_of_eq held same]

theorem wiring_addManager (workspace : Workspace) (name : String) (chain : Chain) :
    (workspace.addManager name chain).wiring = workspace.wiring.extend := by
  simp only [wiring, addManager, Wiring.extend, List.map_append, List.map_cons, List.map_nil,
    Manager.make, Renderer.make, List.length_map]

end Workspace

/-- Whether an operation leaves a part of the workspace as it was, whatever it ends in. -/
def Retains {γ α : Type} (part : Workspace → γ) (action : Work α) : Prop :=
  ∀ workspace, part (final (action workspace)) = part workspace

namespace Retains

variable {γ α β : Type} {part : Workspace → γ}

theorem gives (result : α) : Retains part (pure result) := fun _ => rfl

theorem fails (failure : Failure) : Retains part (throw failure : Work α) := fun _ => rfl

theorem reads : Retains part get := fun _ => rfl

theorem modifies {change : Workspace → Workspace}
    (same : ∀ workspace, part (change workspace) = part workspace) : Retains part (modify change) :=
  same

theorem andThen {first : Work α} {next : α → Work β} (begins : Retains part first)
    (continues : ∀ result, Retains part (next result)) : Retains part (first >>= next) := by
  intro workspace
  have here := begins workspace
  cases run : first workspace with
  | error failure after =>
      rw [run] at here
      rwa [bind_of_error run]
  | ok result after =>
      rw [run] at here
      rw [bind_of_ok run]
      exact (continues result after).trans here

theorem orElse {first : Work α} {handle : Failure → Work α} (begins : Retains part first)
    (handles : ∀ failure, Retains part (handle failure)) :
    Retains part (tryCatch first handle) := by
  intro workspace
  have here := begins workspace
  change part (final (EStateM.tryCatch first handle workspace)) = part workspace
  delta EStateM.tryCatch
  cases run : first workspace with
  | error failure after =>
      rw [run] at here
      exact (handles failure after).trans here
  | ok result after => rwa [run] at here

theorem ignores {action : Work α} (retains : Retains part action) :
    Retains part (discard action : Work Unit) := by
  intro workspace
  have here := retains workspace
  simp only [discard, Functor.mapConst, Function.comp, EStateM.map]
  cases run : action workspace <;> rwa [run] at here

theorem ofExcept (result : Except Fault α) : Retains part (Work.ofExcept result) := by
  cases result <;> exact fun _ => rfl

theorem ofConfig (result : Except ConfigFault α) : Retains part (Work.ofConfig result) := by
  cases result <;> exact fun _ => rfl

theorem ofFiles (result : Except FileFlaw α) : Retains part (Work.ofFiles result) := by
  cases result <;> exact fun _ => rfl

/-- Looking up what goes by a name changes nothing. -/
theorem manager (name : String) : Retains part (Work.manager name) := by
  refine .andThen .reads fun workspace => ?_
  cases workspace.manager? name with
  | some found => exact .gives found
  | none => exact .fails _

theorem donor (name : String) : Retains part (Work.donor name) := by
  refine .andThen .reads fun workspace => ?_
  cases workspace.manager? name with
  | some found => exact .gives found
  | none => exact .fails _

theorem rendererOf (name : String) : Retains part (Work.rendererOf name) := by
  refine .andThen (.manager name) fun found => .andThen .reads fun workspace => ?_
  split
  · exact .gives _
  · exact .fails _

theorem labelled (label : String) : Retains part (Work.labelled label) := by
  refine .andThen .reads fun workspace => ?_
  extract_lets found
  cases found with
  | some resolver => exact .gives resolver
  | none => exact .fails _

theorem folders (name : String) : Retains part (Work.folders name) :=
  .andThen (.manager name) fun _ => .gives _

theorem mappingOf (label : String) : Retains part (Session.mappingOf label) := by
  refine .andThen (.labelled label) fun resolver => ?_
  split
  · exact .gives _
  · exact .fails _

end Retains

section

variable {ε σ α : Type} {action : EStateM ε σ α} {before after : σ}

theorem discard_of_ok {result : α} (run : action before = .ok result after) :
    (discard action : EStateM ε σ Unit) before = .ok () after := by
  simp only [discard, Functor.mapConst, Function.comp, EStateM.map, run]

theorem discard_of_error {failure : ε} (run : action before = .error failure after) :
    (discard action : EStateM ε σ Unit) before = .error failure after := by
  simp only [discard, Functor.mapConst, Function.comp, EStateM.map, run]

end

namespace Work

variable {workspace : Workspace} {name : String} {number : Nat} {manager : Manager}

theorem manager_of_known (known : workspace.manager? name = some (number, manager)) :
    Work.manager name workspace = .ok (number, manager) workspace := by
  rw [Work.manager, get_bind, known]
  rfl

theorem manager_of_unknown (unknown : workspace.manager? name = none) :
    Work.manager name workspace = .error (.noManager name) workspace := by
  rw [Work.manager, get_bind, unknown]
  rfl

theorem donor_of_known (known : workspace.manager? name = some (number, manager)) :
    donor name workspace = .ok (number, manager) workspace := by
  rw [donor, get_bind, known]
  rfl

theorem donor_of_unknown (unknown : workspace.manager? name = none) :
    donor name workspace = .error (.unknownName name) workspace := by
  rw [donor, get_bind, unknown]
  rfl

theorem rendererOf_of_known {renderer : Renderer}
    (known : workspace.manager? name = some (number, manager))
    (held : workspace.renderers[manager.renderer]? = some renderer) :
    rendererOf name workspace = .ok (manager.renderer, renderer) workspace := by
  refine (bind_of_ok (manager_of_known known)).trans ((get_bind _).trans ?_)
  simp only [held]
  rfl

theorem changeManager_of_known (known : workspace.manager? name = some (number, manager))
    (change : Manager → Manager) :
    changeManager name change workspace =
      .ok () (workspace.setManager number (change manager)) :=
  bind_of_ok (manager_of_known known)

end Work

namespace Work

theorem changeManager_retains (name : String) {change : Manager → Manager}
    (same : ∀ manager, (change manager).renderer = manager.renderer) :
    Retains Workspace.wiring (changeManager name change) := by
  intro workspace
  rw [changeManager, manager, bind_assoc, get_bind]
  cases known : workspace.manager? name with
  | none => rfl
  | some found =>
      exact Workspace.wiring_setManager (Workspace.held_of_manager? known) (same found.2)

theorem changeRenderer_retains (name : String) {change : Renderer → Renderer}
    (same : ∀ renderer, (change renderer).home = renderer.home) :
    Retains Workspace.wiring (changeRenderer name change) := by
  intro workspace
  rw [changeRenderer, rendererOf, manager, bind_assoc, bind_assoc, get_bind]
  cases known : workspace.manager? name with
  | none => rfl
  | some found =>
      simp only [pure_bind, bind_assoc, get_bind]
      cases held : workspace.renderers[found.2.renderer]? with
      | none => rfl
      | some renderer => exact Workspace.wiring_setRenderer held (same renderer)

theorem onCache_retains {α : Type} (number : Nat) (action : Action α) :
    Retains Workspace.wiring (onCache number action) := by
  intro workspace
  rw [onCache, get_bind]
  cases held : workspace.managers[number]? with
  | none => rfl
  | some manager =>
      have same (cache : Cache) :=
        Workspace.wiring_setManager held (show { manager with cache }.renderer = _ from rfl)
      simp only [EStateM.run]
      cases action ⟨manager.cache, .start, workspace.reports, 0⟩ with
      | ok result store => exact same store.cache
      | error fault store => exact same store.cache

theorem report_retains (event : Event) : Retains Workspace.wiring (report event) := fun _ => rfl

theorem changeChains_retains (change : Chain → Chain) :
    Retains Workspace.wiring (changeChains change) := by
  refine .modifies fun workspace => ?_
  simp only [Workspace.wiring, List.map_map, Function.comp_def]

theorem tokenize_retains (name : String) (keep : Bool) (template : String) :
    Retains Workspace.wiring (tokenize name keep template) :=
  .andThen (.manager name) fun _ => .andThen .reads fun _ => onCache_retains _ _

theorem compile_retains (name : String) (template : Option String) (text : String) :
    Retains Workspace.wiring (compile name template text) :=
  .andThen (.manager name) fun _ => .andThen .reads fun _ => onCache_retains _ _

theorem renderTokens_retains (name : String) (tokens : Tokens) (view : Value)
    (aliases : Table Tokens) :
    Retains Workspace.wiring (renderTokens name tokens view aliases) :=
  .andThen (.rendererOf name) fun _ => .andThen .reads fun _ => onCache_retains _ _

theorem render_retains (name template : String) (view : Value) (partials : Partials) :
    Retains Workspace.wiring (render name template view partials) :=
  .andThen (.manager name) fun _ => .andThen .reads fun _ => .andThen (onCache_retains _ _)
    fun _ => renderTokens_retains _ _ _ _

theorem reportAll_retains (events : List Event) :
    Retains Workspace.wiring (reportAll events) := fun _ => rfl

theorem addPragma_retains (name : String) (given : Given Pragma) :
    Retains Workspace.wiring (addPragma name given) :=
  .andThen (.manager name) fun _ => .andThen (.ofExcept _) fun _ =>
    .andThen (reportAll_retains _) fun _ => changeManager_retains name fun _ => rfl

theorem attach_retains (name : String) (given : Given Resolver) (label : Option String)
    (priority : Int) : Retains Workspace.wiring (attach name given label priority) :=
  .andThen (.manager name) fun _ => .andThen (.ofExcept _) fun _ =>
    .andThen (changeChains_retains _) fun _ => changeManager_retains name fun _ => rfl

theorem writeFile_retains (path : Path) (content : List UInt8) :
    Retains Workspace.wiring (writeFile path content) := by
  intro workspace
  rw [writeFile, get_bind]
  cases workspace.tree.write workspace.base path content <;> rfl

theorem makeDirectory_retains (path : Path) :
    Retains Workspace.wiring (makeDirectory path) := by
  intro workspace
  rw [makeDirectory, get_bind]
  cases workspace.tree.makeDirectory workspace.base path <;> rfl

theorem changeFolders_retains (name : String) (change : Folders → Except Fault Folders) :
    Retains Workspace.wiring (changeFolders name change) := by
  have put (places : Folders) : Retains Workspace.wiring (changeManager name fun manager =>
      { manager with chain := manager.chain.putFolders places }) :=
    changeManager_retains name fun _ => rfl
  exact .andThen (.folders name) fun known => .andThen (put known) fun _ =>
    .andThen (.ofExcept _) fun changed => .andThen (put changed) fun _ => .gives _

theorem addFolder_retains (name : String) (path : Path) :
    Retains Workspace.wiring (addFolder name path) :=
  .andThen .reads fun _ => .andThen (report_retains _) fun _ =>
    .ignores (changeFolders_retains name _)

theorem loadConfig_retains (path : Path) : Retains Workspace.wiring (loadConfig path) :=
  .andThen .reads fun _ => .andThen (report_retains _) fun _ => .andThen (.ofConfig _) fun _ =>
    .andThen (report_retains _) fun _ => .gives _

theorem addConfigured_retains (name : String) (paths : List Path) :
    Retains Workspace.wiring (addConfigured name paths) := by
  induction paths with
  | nil => exact .gives ()
  | cons path rest ih =>
      refine .andThen (.orElse (addFolder_retains name path) fun failure => ?_) fun _ => ih
      split <;> exact .fails _

theorem applyConfig_retains (name : String) (config : Config) :
    Retains Workspace.wiring (applyConfig name config) := by
  have rendered : Retains Workspace.wiring (changeRenderer name fun renderer =>
      { renderer with escape := escaperOf config.escape, maxDepth := config.maxDepth }) :=
    changeRenderer_retains name fun _ => rfl
  refine .andThen (.manager name) fun found => ?_
  simp only
  split
  · exact .andThen (.fails _) fun _ => .andThen (.ignores (changeFolders_retains name _)) fun _ =>
      .andThen (addConfigured_retains name _) fun _ => rendered
  · exact .andThen (.ignores (changeFolders_retains name _)) fun _ =>
      .andThen (addConfigured_retains name _) fun _ => rendered

end Work

/-- Steps that add a manager or hand a renderer on. -/
def Step.rewires : Step → Bool
  | .create _ | .createFrom _ | .shareRenderer _ => true
  | _ => false

namespace Session

theorem resolve_retains (name template : String) (label : Option String) :
    Retains Workspace.wiring (resolve name template label) := by
  refine .andThen .reads fun workspace => ?_
  have asked (retrieval : Retrieval) : Retains Workspace.wiring (do
      modify fun workspace : Workspace =>
        { workspace with reports := retrieval.reports.reverse ++ workspace.reports }
      Work.ofExcept retrieval.answer) :=
    .andThen (.modifies fun _ => rfl) fun _ => .ofExcept _
  cases label with
  | some label => exact .andThen (.labelled label) fun resolver => .andThen (.gives _) asked
  | none => exact .andThen (.manager name) fun found => .andThen (.gives _) asked

theorem perform_retains (name : String) {step : Step} (plain : step.rewires = false) :
    Retains Workspace.wiring (perform name step) := by
  cases step with
  | create | createFrom | shareRenderer => cases plain
  | render template view partials =>
      exact .andThen (Work.render_retains name template view partials) fun _ => .gives _
  | tokenize template keep =>
      exact .andThen (Work.tokenize_retains name keep template) fun _ => .gives _
  | compile template text =>
      exact .andThen (Work.compile_retains name template text) fun _ => .gives _
  | showCache | describePragmas | showChain | findLink =>
      exact .andThen (.manager name) fun _ => .gives _
  | clearCopy => exact .andThen (.ignores (.manager name)) fun _ => .gives _
  | shareCompiler donor =>
      exact .andThen (.ignores (.manager name)) fun _ => .andThen (.ignores (.donor donor)) fun _ =>
        .gives _
  | save snapshot =>
      exact .andThen (.manager name) fun _ => .andThen (.modifies fun _ => rfl) fun _ => .gives _
  | restore snapshot =>
      refine .andThen (.ignores (.manager name)) fun _ => .andThen .reads fun workspace => ?_
      split
      · refine .andThen ?_ fun _ => .gives _
        exact Work.changeManager_retains name fun _ => rfl
      · exact .andThen (.fails _) fun _ => .gives _
  | setEscaper escape =>
      refine .andThen (.ignores (.manager name)) fun _ => .andThen (.ofExcept _) fun escape => ?_
      refine .andThen ?_ fun _ => .gives _
      exact Work.changeRenderer_retains name fun _ => rfl
  | setDepth limit =>
      refine .andThen ?_ fun _ => .gives _
      exact Work.changeRenderer_retains name fun _ => rfl
  | addPragma given => exact .andThen (Work.addPragma_retains name given) fun _ => .gives _
  | removePragma pragma =>
      refine .andThen ?_ fun _ => .gives _
      exact Work.changeManager_retains name fun _ => rfl
  | findPragma pragma =>
      refine .andThen (.manager name) fun found => ?_
      simp only
      split
      · exact .gives _
      · exact .fails _
  | attach given label priority =>
      exact .andThen (Work.attach_retains name given label priority) fun _ => .gives _
  | setTemplate label template text =>
      exact .andThen (.ignores (.mappingOf label)) fun _ =>
        .andThen (Work.changeChains_retains _) fun _ => .gives _
  | hasTemplate label template => exact .andThen (.mappingOf label) fun _ => .gives _
  | resolve template label => exact .andThen (resolve_retains name template label) fun _ => .gives _
  | writeFile path content => exact .andThen (Work.writeFile_retains path content) fun _ => .gives _
  | makeDirectory path => exact .andThen (Work.makeDirectory_retains path) fun _ => .gives _
  | addFolder path => exact .andThen (Work.addFolder_retains name path) fun _ => .gives _
  | showFolders | setSuffix suffix =>
      exact .andThen (Work.changeFolders_retains name _) fun _ => .gives _
  | setSeparator separator =>
      exact .andThen (.ignores (Work.changeFolders_retains name _)) fun _ => .gives _
  | loadConfig path => exact .andThen (Work.loadConfig_retains path) fun _ => .gives _
  | findConfig path =>
      exact .andThen .reads fun workspace => .andThen (.ofFiles _) fun _ => .gives _
  | applyConfig path =>
      exact .andThen (Work.loadConfig_retains path) fun config =>
        .andThen (Work.applyConfig_retains name config) fun _ => .gives _

/-- That a manager comes by a renderer. -/
structure Installation where
  renderer : Nat
  manager : Nat
  deriving Repr, DecidableEq

/-- The renderer that a step gives to a manager. A new manager is given a new renderer. -/
def installed (name : String) (step : Step) (before : Workspace) : List Installation :=
  match step with
  | .shareRenderer donor =>
      match before.manager? name, before.manager? donor with
      | some (number, _), some (_, giver) => [⟨giver.renderer, number⟩]
      | _, _ => []
  | step =>
      if before.managers.length < (final (perform name step before)).managers.length then
        [⟨before.renderers.length, before.managers.length⟩]
      else []

/-- What a step does to the wiring. -/
inductive Rewired (wiring : Wiring) : List Installation → Wiring → Prop where
  | same : Rewired wiring [] wiring
  | extended : Rewired wiring [⟨wiring.homes.length, wiring.held.length⟩] wiring.extend
  | handed {renderer manager : Nat} (present : renderer < wiring.homes.length)
      (known : manager < wiring.held.length) :
      Rewired wiring [⟨renderer, manager⟩] (wiring.install renderer manager)

theorem installed_eq {name : String} {step : Step} {before : Workspace}
    (other : ∀ donor, step ≠ .shareRenderer donor) (after : Wiring)
    (wired : (final (perform name step before)).wiring = after) :
    installed name step before =
      if before.wiring.held.length < after.held.length then
        [⟨before.wiring.homes.length, before.wiring.held.length⟩]
      else [] := by
  subst wired
  cases step with
  | shareRenderer donor => exact absurd rfl (other donor)
  | _ => simp only [installed, Workspace.wiring, List.length_map]

theorem addConfiguredManager_extends (name : String) (config : Config) (before : Workspace) :
    (final (Work.addConfiguredManager name config before)).wiring = before.wiring.extend := by
  have configured : Retains Workspace.wiring
      (tryCatch (Work.applyConfig name config) fun failure => do
        modify fun workspace : Workspace => { workspace with names := before.names }
        throw failure) :=
    .orElse (Work.applyConfig_retains name config) fun failure =>
      .andThen (.modifies fun _ => rfl) fun _ => .fails _
  exact (configured _).trans (before.wiring_addManager name .standard)

theorem final_bind_gives {α β : Type} {first : Work α} (next : α → β) (before : Workspace) :
    final ((first >>= fun result => pure (next result)) before) = final (first before) := by
  cases run : first before with
  | error failure after => rw [bind_of_error run, final_error, final_error]
  | ok result after => rw [bind_of_ok run]; rfl

theorem shareRenderer_wiring {before : Workspace} {name donor : String} {number former : Nat}
    {manager giver : Manager} (taker : before.manager? name = some (number, manager))
    (known : before.manager? donor = some (former, giver))
    (present : giver.renderer < before.renderers.length) :
    (final (Work.shareRenderer name donor before)).wiring =
      before.wiring.install giver.renderer number := by
  have given := List.getElem?_eq_getElem present
  let handed := before.setRenderer giver.renderer
    { before.renderers[giver.renderer] with home := number }
  have still : handed.manager? name = some (number, manager) := taker
  have run : Work.shareRenderer name donor before = .ok ()
      (handed.setManager number { manager with renderer := giver.renderer }) := by
    refine (bind_of_ok (Work.manager_of_known taker)).trans ?_
    refine (bind_of_ok (discard_of_ok (Work.donor_of_known known))).trans ?_
    refine (bind_of_ok (Work.rendererOf_of_known known given)).trans ?_
    exact Work.changeManager_of_known still fun manager =>
      { manager with renderer := giver.renderer }
  rw [run]
  simp only [final_ok, handed, Workspace.wiring, Wiring.install, Workspace.setManager,
    Workspace.setRenderer, List.map_set]

theorem shareRenderer_rewired {before : Workspace} (sound : before.wiring.Sound)
    (name donor : String) :
    Rewired before.wiring (installed name (.shareRenderer donor) before)
      (final (perform name (.shareRenderer donor) before)).wiring := by
  rw [perform, final_bind_gives fun _ => Shown.flag true]
  simp only [installed]
  cases taker : before.manager? name with
  | none =>
      rw [Work.shareRenderer, bind_of_error (Work.manager_of_unknown taker)]
      exact .same
  | some found =>
      obtain ⟨number, manager⟩ := found
      cases known : before.manager? donor with
      | none =>
          have failed : Work.shareRenderer name donor before =
              .error (.unknownName donor) before :=
            (bind_of_ok (Work.manager_of_known taker)).trans
              (bind_of_error (discard_of_error (Work.donor_of_unknown known)))
          rw [failed]
          exact .same
      | some other =>
          obtain ⟨_, giver⟩ := other
          have held := Workspace.held_of_manager? taker
          have present : giver.renderer < before.wiring.homes.length :=
            sound _ (List.mem_map_of_mem (List.mem_of_getElem? (Workspace.held_of_manager? known)))
          rw [shareRenderer_wiring taker known (by simpa [Workspace.wiring] using present)]
          refine .handed present ?_
          simpa [Workspace.wiring] using (List.getElem?_eq_some_iff.mp held).1

/-- Without handing renderers on, the wiring is only extended. -/
theorem perform_extends {step : Step} (other : ∀ donor, step ≠ .shareRenderer donor) (name : String)
    (before : Workspace) :
    (final (perform name step before)).wiring = before.wiring ∨
      (final (perform name step before)).wiring = before.wiring.extend := by
  by_cases plain : step.rewires = false
  · exact .inl (perform_retains name plain before)
  · cases step with
    | shareRenderer donor => exact absurd rfl (other donor)
    | create empty => exact .inr (before.wiring_addManager name _)
    | createFrom path =>
        have loads := Work.loadConfig_retains path before
        cases run : Work.loadConfig path before with
        | error failure after =>
            rw [run] at loads
            refine .inl ?_
            rwa [perform, bind_of_error run]
        | ok config after =>
            rw [run] at loads
            refine .inr ?_
            rw [perform, bind_of_ok run, final_bind_gives fun _ => Shown.nothing,
              addConfiguredManager_extends, ← loads, final_ok]
    | _ => exact absurd rfl plain

theorem perform_rewired {before : Workspace} (sound : before.wiring.Sound) (name : String)
    (step : Step) :
    Rewired before.wiring (installed name step before)
      (final (perform name step before)).wiring := by
  by_cases shares : ∃ donor, step = .shareRenderer donor
  · obtain ⟨donor, rfl⟩ := shares
    exact shareRenderer_rewired sound name donor
  · have other : ∀ donor, step ≠ .shareRenderer donor := fun donor same => shares ⟨donor, same⟩
    rcases perform_extends other name before with same | extended
    · rw [installed_eq other _ same, if_neg (Nat.lt_irrefl _), same]
      exact .same
    · have more : before.wiring.held.length < before.wiring.extend.held.length := by
        simp [Wiring.extend]
      rw [installed_eq other _ extended, if_pos more, extended]
      exact .extended

end Session

end Logicless
