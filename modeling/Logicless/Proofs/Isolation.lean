import Logicless.Proofs.Depth
import Logicless.Proofs.Requests
import Logicless.Proofs.Wiring

namespace Logicless

/-!
Managers are isolated from each other as far as their renderers are their own.

Tokenizing and compiling only ever concern the manager that is called: its resolvers answer, and its
cache is all that changes. Rendering also goes by the manager that its renderer belongs to, which is
the one that came by the renderer last (`Told`). So a manager renders by itself as long as no
other is given its renderer, and from then on with the pragmas, the resolvers and the cache of the
other (`calls_isolated`).
-/

namespace Session

/-- The manager that came by a renderer last. Installations stand last first. -/
def lastOwner (renderer : Nat) : List Installation → Option Nat
  | [] => none
  | taken :: earlier =>
      if renderer = taken.renderer then some taken.manager else lastOwner renderer earlier

/-- The renderer that a manager came by last. -/
def lastHeld (manager : Nat) : List Installation → Option Nat
  | [] => none
  | taken :: earlier =>
      if manager = taken.manager then some taken.renderer else lastHeld manager earlier

/-- Whether installations tell the wiring that they have led to. -/
structure Told (installations : List Installation) (wiring : Wiring) : Prop where
  sound : wiring.Sound
  held : ∀ manager, lastHeld manager installations = wiring.held[manager]?
  homes : ∀ renderer, lastOwner renderer installations = wiring.homes[renderer]?

theorem getElem?_concat {α : Type} (entries : List α) (last : α) (number : Nat) :
    (entries ++ [last])[number]? =
      if number = entries.length then some last else entries[number]? := by
  split
  · rename_i same
    rw [same, List.getElem?_concat_length]
  · rename_i different
    rcases Nat.lt_or_gt_of_ne different with before | behind
    · exact List.getElem?_append_left before
    · rw [List.getElem?_eq_none (by simp; omega), List.getElem?_eq_none (by omega)]

theorem getElem?_set_of_lt {α : Type} {entries : List α} {place : Nat}
    (within : place < entries.length) (entry : α) (number : Nat) :
    (entries.set place entry)[number]? = if number = place then some entry else entries[number]? := by
  split
  · rename_i same
    rw [same, List.getElem?_set_self within]
  · rename_i different
    exact List.getElem?_set_ne (Ne.symm different)

theorem Rewired.told {installations new : List Installation} {wiring after : Wiring}
    (rewired : Rewired wiring new after) (told : Told installations wiring) :
    Told (new ++ installations) after := by
  cases rewired with
  | same => exact told
  | extended =>
      refine ⟨told.sound.extend, fun manager => ?_, fun renderer => ?_⟩
      · simp only [List.singleton_append, lastHeld, Wiring.extend, getElem?_concat, told.held]
      · simp only [List.singleton_append, lastOwner, Wiring.extend, getElem?_concat, told.homes]
  | handed present known =>
      refine ⟨told.sound.install present _, fun manager => ?_, fun renderer => ?_⟩
      · simp only [List.singleton_append, lastHeld, Wiring.install, getElem?_set_of_lt known,
          told.held]
      · simp only [List.singleton_append, lastOwner, Wiring.install, getElem?_set_of_lt present,
          told.homes]

/-- A workspace that a session has led to, and the installations on the way, last first. -/
structure History where
  workspace : Workspace
  installations : List Installation

namespace History

/-- One more step, on the manager of a name. What a step that fails has changed stays changed. -/
def next (history : History) (entry : String × Step) : History where
  workspace := final (perform entry.1 entry.2 history.workspace)
  installations := installed entry.1 entry.2 history.workspace ++ history.installations

/-- What steps, each on the manager of a name, lead to from nothing. -/
def run (tree : FileTree) (base : Place) (steps : List (String × Step)) : History :=
  steps.foldl next ⟨.empty tree base, []⟩

theorem told_run (tree : FileTree) (base : Place) (steps : List (String × Step)) :
    Told (run tree base steps).installations (run tree base steps).workspace.wiring := by
  have begun : Told [] (Workspace.empty tree base).wiring :=
    ⟨Wiring.sound_empty, fun _ => rfl, fun _ => rfl⟩
  suffices all : ∀ history : History, Told history.installations history.workspace.wiring →
      Told (steps.foldl next history).installations
        (steps.foldl next history).workspace.wiring from all _ begun
  induction steps with
  | nil => exact fun _ told => told
  | cons entry rest ih =>
      intro history told
      exact ih _ ((perform_rewired told.sound entry.1 entry.2).told told)

end History

end Session

namespace Workspace

/-- The workspace after a computation in the cache of a manager. -/
def keep (workspace : Workspace) (number : Nat) (manager : Manager) (store : Store) : Workspace :=
  { workspace.setManager number { manager with cache := store.cache } with reports := store.reports }

variable {workspace : Workspace} {number : Nat} {manager : Manager} {store : Store}

theorem keep_held (held : workspace.managers[number]? = some manager) :
    (workspace.keep number manager store).managers[number]? =
      some { manager with cache := store.cache } :=
  List.getElem?_set_self (List.getElem?_eq_some_iff.mp held).1

theorem keep_of_ne {other : Nat} (different : other ≠ number) :
    (workspace.keep number manager store).managers[other]? = workspace.managers[other]? :=
  List.getElem?_set_ne (Ne.symm different)

theorem keep_keep (later : Store) :
    (workspace.keep number manager store).keep number { manager with cache := store.cache } later =
      workspace.keep number manager later := by
  simp only [keep, setManager, List.set_set]

/-- What templates and pragmas there are does not depend on caches. -/
theorem setting_keep (held : workspace.managers[number]? = some manager) (renderer : Renderer) :
    (workspace.keep number manager store).setting renderer = workspace.setting renderer := by
  by_cases here : renderer.home = number
  · simp only [setting, here, keep_held held, held, Option.map_some]
    rfl
  · simp only [setting, keep_of_ne here]
    rfl

end Workspace

namespace Work

variable {α β : Type} {workspace : Workspace} {number : Nat} {manager : Manager}

theorem onCache_of_held (held : workspace.managers[number]? = some manager) (action : Action α) :
    onCache number action workspace =
      match action ⟨manager.cache, .start, workspace.reports, 0⟩ with
      | .ok result store => .ok result (workspace.keep number manager store)
      | .error fault store => .error (.fault fault) (workspace.keep number manager store) := by
  rw [onCache, get_bind, held]
  simp only [EStateM.run]
  cases action ⟨manager.cache, .start, workspace.reports, 0⟩ <;> rfl

/-- The workspace after a computation in a cache, whatever it ends in. -/
theorem exists_keep (held : workspace.managers[number]? = some manager) (action : Action α) :
    ∃ store, final (onCache number action workspace) = workspace.keep number manager store := by
  rw [onCache_of_held held]
  split
  · exact ⟨_, rfl⟩
  · exact ⟨_, rfl⟩

theorem onCache_others (number : Nat) (action : Action α) {other : Nat}
    (different : other ≠ number) (workspace : Workspace) :
    (final (onCache number action workspace)).managers[other]? = workspace.managers[other]? := by
  cases held : workspace.managers[number]? with
  | none =>
      rw [onCache, get_bind, held]
      rfl
  | some manager =>
      obtain ⟨store, after⟩ := exists_keep held action
      rw [after, Workspace.keep_of_ne different]

theorem onCache_gives (number : Nat) (action : Action α) (given : α → β) (workspace : Workspace) :
    (onCache number action >>= fun result => pure (given result)) workspace =
      onCache number (action >>= fun result => pure (given result)) workspace := by
  cases held : workspace.managers[number]? with
  | none =>
      have failed (γ : Type) (other : Action γ) : onCache number other workspace =
          .error (.noManager (toString number)) workspace := by
        rw [onCache, get_bind, held]
        rfl
      rw [bind_of_error (failed _ _), failed]
  | some manager =>
      rw [onCache_of_held held]
      have run := onCache_of_held held action
      cases ended : action ⟨manager.cache, .start, workspace.reports, 0⟩ with
      | ok result store =>
          rw [ended] at run
          rw [bind_of_ok run, bind_of_ok ended]
          rfl
      | error fault store =>
          rw [ended] at run
          rw [bind_of_error run, bind_of_error ended]

/-- Computations of which the first neither uses the view nor begins a block, one after the other in
the cache of the same manager. -/
theorem onCache_andThen {first : Action α}
    (keeps : KeepsMemory α first first) (flat : Flat α first first) (next : α → Action β)
    (held : workspace.managers[number]? = some manager) :
    (onCache number first >>= fun result => onCache number (next result)) workspace =
      onCache number (first >>= next) workspace := by
  have run := onCache_of_held held first
  have unused := keeps ⟨manager.cache, .start, workspace.reports, 0⟩
  have shallow := flat ⟨manager.cache, .start, workspace.reports, 0⟩
  rw [onCache_of_held held (first >>= next)]
  cases ended : first ⟨manager.cache, .start, workspace.reports, 0⟩ with
  | error fault store =>
      rw [ended] at run
      rw [bind_of_error run, bind_of_error ended]
  | ok result store =>
      rw [ended] at run unused shallow
      have left : (⟨store.cache, .start, (workspace.keep number manager store).reports, 0⟩ :
          Store) = store := by
        cases store
        cases unused
        cases shallow
        rfl
      rw [bind_of_ok run, bind_of_ok ended, onCache_of_held (Workspace.keep_held held)]
      simp only [left, Workspace.keep_keep]

end Work

theorem prepare_related {R : ActionRelation} (searching : Searching R) (library : Library)
    (finds : ∀ template, R Tokens (tokenize library true template) (tokenize library true template))
    (template : String) (partials : Partials) :
    R (Table Tokens × Tokens) (prepare library template partials)
      (prepare library template partials) :=
  searching.andThen (preparePartials_related searching finds partials) fun _ =>
    searching.andThen (finds template) fun _ => searching.gives _

/-- A run that is a computation in the cache of one manager, and leaves all others as they were. -/
structure Workspace.Alone {α : Type} (before : Workspace) (number : Nat) (action : Action α)
    (run : EStateM.Result Failure Workspace α) : Prop where
  run_eq : run = Work.onCache number action before
  others : ∀ other, other ≠ number → (final run).managers[other]? = before.managers[other]?

theorem Workspace.Alone.of_eq {α : Type} {before : Workspace} {number : Nat} {action : Action α}
    {run : EStateM.Result Failure Workspace α} (same : run = Work.onCache number action before) :
    before.Alone number action run :=
  ⟨same, fun _ different => same ▸ Work.onCache_others number action different before⟩

namespace Session

section

variable {reached : Workspace} {name : String} {number : Nat} {manager : Manager}
  (known : reached.manager? name = some (number, manager))

include known

theorem tokenize_alone (template : String) (keep : Bool) :
    reached.Alone number
      (do return .tokens (← Logicless.tokenize (reached.library manager) keep template))
      (perform name (.tokenize template keep) reached) := by
  have called : Work.tokenize name keep template reached =
      Work.onCache number (Logicless.tokenize (reached.library manager) keep template) reached :=
    bind_of_ok (Work.manager_of_known known)
  exact .of_eq ((bind_of_eq called).trans (Work.onCache_gives _ _ _ _))

theorem compile_alone (template : Option String) (text : String) :
    reached.Alone number
      (do return .tokens (← Logicless.compile (reached.library manager) template text))
      (perform name (.compile template text) reached) := by
  have called : Work.compile name template text reached =
      Work.onCache number (Logicless.compile (reached.library manager) template text) reached :=
    bind_of_ok (Work.manager_of_known known)
  exact .of_eq ((bind_of_eq called).trans (Work.onCache_gives _ _ _ _))

variable {renderer : Renderer} (own : reached.renderers[manager.renderer]? = some renderer)

include own

/-- A template is found by the manager that is called, and rendered by the home of its renderer. -/
theorem render_homes (template : String) (view : Value) (partials : Partials) :
    Work.render name template view partials reached =
      (do
        let ready ← Work.onCache number (prepare (reached.library manager) template partials)
        Work.onCache renderer.home
          (Logicless.render (reached.setting renderer) ready.2 view ready.1)) reached := by
  have held := Workspace.held_of_manager? known
  refine (bind_of_ok (Work.manager_of_known known)).trans ((get_bind _).trans ?_)
  obtain ⟨store, after⟩ := Work.exists_keep held
    (prepare (reached.library manager) template partials)
  cases run : Work.onCache number (prepare (reached.library manager) template partials) reached with
  | error failure between => rw [bind_of_error run, bind_of_error run]
  | ok ready between =>
      rw [run, final_ok] at after
      subst after
      rw [bind_of_ok run, bind_of_ok run]
      have still : (reached.keep number manager store).manager? name =
          some (number, { manager with cache := store.cache }) :=
        Workspace.manager?_eq_some_iff.mpr
          ⟨(Workspace.manager?_eq_some_iff.mp known).1, Workspace.keep_held held⟩
      refine (bind_of_ok (Work.rendererOf_of_known still own)).trans ((get_bind _).trans ?_)
      simp only [Workspace.setting_keep held]

theorem render_alone (home : renderer.home = number) (template : String) (view : Value)
    (partials : Partials) :
    reached.Alone number
      (do return .text (← renderTemplate (reached.setting renderer) (reached.library manager)
        template view partials))
      (perform name (.render template view partials) reached) := by
  have keeps := prepare_related searching_keepsMemory (reached.library manager)
    (fun template => tokenizeWithin_keepsMemory _ _ true template) template partials
  have flat := prepare_related searching_flat (reached.library manager)
    (fun template => tokenizeWithin_flat _ _ true template) template partials
  have called : Work.render name template view partials reached =
      Work.onCache number (renderTemplate (reached.setting renderer) (reached.library manager)
        template view partials) reached := by
    rw [render_homes known own, home]
    exact Work.onCache_andThen keeps flat _ (Workspace.held_of_manager? known)
  exact .of_eq ((bind_of_eq called).trans (Work.onCache_gives _ _ _ _))

theorem render_others (template : String) (view : Value) (partials : Partials) {other : Nat}
    (different : other ≠ number) (away : other ≠ renderer.home) :
    (final (perform name (.render template view partials) reached)).managers[other]? =
      reached.managers[other]? := by
  have held := Workspace.held_of_manager? known
  rw [perform, final_bind_gives Shown.text, render_homes known own]
  obtain ⟨store, after⟩ := Work.exists_keep held
    (prepare (reached.library manager) template partials)
  cases run : Work.onCache number (prepare (reached.library manager) template partials) reached with
  | error failure between =>
      rw [run, final_error] at after
      rw [bind_of_error run, final_error, after, Workspace.keep_of_ne different]
  | ok ready between =>
      rw [run, final_ok] at after
      rw [bind_of_ok run, Work.onCache_others _ _ away, after, Workspace.keep_of_ne different]

end

/-- Without handing renderers on, every manager is the home of the renderer that it came with. -/
theorem home_of_unshared {tree : FileTree} {base : Place} {steps : List (String × Step)}
    (unshared : ∀ entry ∈ steps, ∀ donor, entry.2 ≠ .shareRenderer donor) {number held home : Nat}
    (holds : (History.run tree base steps).workspace.wiring.held[number]? = some held)
    (homes : (History.run tree base steps).workspace.wiring.homes[held]? = some home) :
    home = number := by
  suffices all : ∀ history : History,
      (∃ count, history.workspace.wiring = ⟨List.range count, List.range count⟩) →
      ∃ count, (steps.foldl History.next history).workspace.wiring =
        ⟨List.range count, List.range count⟩ by
    obtain ⟨count, wired⟩ := all ⟨.empty tree base, []⟩ ⟨0, rfl⟩
    rw [History.run, wired] at holds homes
    obtain ⟨_, rfl⟩ := List.getElem?_eq_some_iff.mp holds
    obtain ⟨_, rfl⟩ := List.getElem?_eq_some_iff.mp homes
    simp
  clear holds homes
  induction steps with
  | nil => exact fun _ wired => wired
  | cons entry rest ih =>
      rw [List.forall_mem_cons] at unshared
      rintro history ⟨count, wired⟩
      refine ih unshared.2 _ ?_
      rcases perform_extends unshared.1 entry.1 history.workspace with same | extended
      · exact ⟨count, same.trans wired⟩
      · refine ⟨count + 1, extended.trans ?_⟩
        simp [wired, Wiring.extend, List.range_succ]

/-- In whatever way a session has led to a manager: it tokenizes and compiles by itself. It renders
with the manager that came by its renderer last, whose pragmas, templates and cache are used for all
that comes behind the first look for tokens; no cache but these two changes. If that is the manager
itself, and it is wherever no renderer has been handed on, then it renders by itself, too. -/
theorem calls_isolated (tree : FileTree) (base : Place) (steps : List (String × Step))
    {name : String} {number : Nat} {manager : Manager}
    (known : (History.run tree base steps).workspace.manager? name = some (number, manager)) :
    let history := History.run tree base steps
    let reached := history.workspace
    let library := reached.library manager
    (∀ template keep, reached.Alone number
      (do return .tokens (← Logicless.tokenize library keep template))
      (perform name (.tokenize template keep) reached)) ∧
    (∀ template text, reached.Alone number
      (do return .tokens (← Logicless.compile library template text))
      (perform name (.compile template text) reached)) ∧
    ∃ renderer, reached.renderers[manager.renderer]? = some renderer ∧
      lastHeld number history.installations = some manager.renderer ∧
      lastOwner manager.renderer history.installations = some renderer.home ∧
      ((∀ entry ∈ steps, ∀ donor, entry.2 ≠ .shareRenderer donor) → renderer.home = number) ∧
      ∀ template view partials,
        let run := perform name (.render template view partials) reached
        run = (do
          let ready ← Work.onCache number (prepare library template partials)
          let text ← Work.onCache renderer.home
            (Logicless.render (reached.setting renderer) ready.2 view ready.1)
          return Shown.text text) reached ∧
        (∀ other, other ≠ number → other ≠ renderer.home →
          (final run).managers[other]? = reached.managers[other]?) ∧
        (renderer.home = number →
          (reached.setting renderer).home = some (reached.home manager) ∧
          reached.Alone number
            (do return .text (← renderTemplate (reached.setting renderer) library template view
              partials)) run) := by
  intro history reached library
  have told := History.told_run tree base steps
  have held := Workspace.held_of_manager? known
  have holds : reached.wiring.held[number]? = some manager.renderer := by
    simp only [Workspace.wiring, List.getElem?_map, held, Option.map_some, reached, history]
  have present := told.sound _ (List.mem_of_getElem? holds)
  obtain ⟨renderer, own⟩ : ∃ renderer, reached.renderers[manager.renderer]? = some renderer :=
    ⟨_, List.getElem?_eq_getElem (by simpa [Workspace.wiring] using present)⟩
  have homes : reached.wiring.homes[manager.renderer]? = some renderer.home := by
    simp only [Workspace.wiring, List.getElem?_map, own, Option.map_some]
  refine ⟨tokenize_alone known, compile_alone known, renderer, own, (told.held _).trans holds,
    (told.homes _).trans homes, fun unshared => home_of_unshared unshared holds homes,
    fun template view partials => ⟨?_, fun other => render_others known own _ _ _, fun home => ?_⟩⟩
  · refine (bind_of_eq (render_homes known own template view partials)).trans ?_
    simp only [bind_assoc]
    rfl
  · refine ⟨?_, render_alone known own home template view partials⟩
    simp only [Workspace.setting, home, reached, history, held, Option.map_some]

/-- Two managers that each know a template by the same name, and of which the second is given the
renderer of the first. -/
def handedOn : List (String × Step) :=
  [("m", .create true), ("n", .create true),
    ("m", .attach (.fitting (.mapping ⟨[("p", "mine")]⟩))),
    ("n", .attach (.fitting (.mapping ⟨[("p", "theirs")]⟩))),
    ("n", .shareRenderer "m")]

/-- The manager that came by the renderer last renders by itself. -/
theorem calls_isolated_taker :
    let reached := (History.run .empty [] handedOn).workspace
    ∃ manager renderer, reached.manager? "n" = some (1, manager) ∧
      reached.renderers[manager.renderer]? = some renderer ∧ renderer.home = 1 ∧
      ∀ template view partials, reached.Alone 1
        (do return .text (← renderTemplate (reached.setting renderer) (reached.library manager)
          template view partials))
        (perform "n" (.render template view partials) reached) := by
  intro reached
  obtain ⟨manager, known⟩ : ∃ manager, reached.manager? "n" = some (1, manager) := ⟨_, rfl⟩
  obtain ⟨_, _, renderer, own, holds, owns, _, calls⟩ := calls_isolated .empty [] handedOn known
  have told : (History.run .empty [] handedOn).installations = [⟨0, 1⟩, ⟨1, 1⟩, ⟨0, 0⟩] := rfl
  rw [told] at holds owns
  have first : manager.renderer = 0 := (Option.some.inj holds).symm
  rw [first] at owns
  have home : renderer.home = 1 := (Option.some.inj owns).symm
  exact ⟨manager, renderer, known, own, home, fun template view partials =>
    ((calls template view partials).2.2 home).2⟩

/-- The manager that the renderer came from renders with a template of the other, in its cache. -/
theorem calls_shared :
    let reached := (History.run .empty [] handedOn).workspace
    let run := perform "m" (.render "\x7b\x7b>p\x7d\x7d" (.mapping []) .none) reached
    let cached (workspace : Workspace) := workspace.managers.map (·.cache.entries.length)
    reached.wiring.held = [0, 0] ∧ reached.wiring.homes = [1, 1] ∧
      ((reached.manager? "m").map fun found => ((reached.library found.2).source "p").answer) =
        some (.ok (.text "mine")) ∧
      (match run with | .ok (.text text) _ => some text | _ => none) = some "theirs" ∧
      cached reached = [0, 0] ∧ cached (final run) = [0, 1] := by
  intro reached run cached
  have wired : reached = { Workspace.empty .empty [] with
      managers := [⟨.only (.mapping ⟨[("p", "mine")]⟩) none 1, .standard, .empty, 0⟩,
        ⟨.only (.mapping ⟨[("p", "theirs")]⟩) none 1, .standard, .empty, 0⟩]
      renderers := [⟨1, .html, none⟩, ⟨1, .html, none⟩]
      names := ⟨[("m", 0), ("n", 1)]⟩ } := by
    rw [← Chain.push_empty (.mapping ⟨[("p", "mine")]⟩), ← Chain.push_empty]
    rfl
  clear_value reached
  subst wired
  refine ⟨rfl, rfl, rfl, ?_, rfl, ?_⟩
  · decide +kernel
  · decide +kernel

end Session

end Logicless
