import Logicless.Proofs.Caching
import Logicless.Proofs.Lineage
import Logicless.Proofs.Wiring

namespace Logicless

/-!
A manager that has been used answers like a new one.

The steps considered here are calls of a manager, looking at its cache, saving it and putting back a
saved one (`Step.Use`). All that they change is the cache, the saved caches and the reports, and all
caches stay coherent (`Used`). A call ends in the same way from all such workspaces, the first among
them (`call_settled`).
-/

/-- Calls of a manager. A request for partials is none, as these stay in the cache under their
aliases. -/
inductive Step.Call : Step → Prop where
  | tokenize (template : String) (keep : Bool) : Call (.tokenize template keep)
  | compile (template : Option String) (text : String) : Call (.compile template text)
  | render (template : String) (view : Value) : Call (.render template view .none)

inductive Step.Use : Step → Prop where
  | call {step : Step} (call : step.Call) : Use step
  | showCache : Use .showCache
  | clearCopy : Use .clearCopy
  | save (snapshot : String) : Use (.save snapshot)
  | restore (snapshot : String) : Use (.restore snapshot)

/-- Where steps on a manager lead. What a step that fails has changed stays changed. -/
def Session.after (name : String) (steps : List Step) (start : Workspace) : Workspace :=
  steps.foldl (fun reached step => final (perform name step reached)) start

namespace Workspace

/-- A manager that nobody has used yet, and that is the home of its renderer. -/
structure Unused (start : Workspace) (name : String) (number : Nat) (manager : Manager)
    (renderer : Renderer) : Prop where
  known : start.manager? name = some (number, manager)
  empty : manager.cache = .empty
  own : start.renderers[manager.renderer]? = some renderer
  home : renderer.home = number
  unsaved : start.snapshots = .empty

def withCache (start : Workspace) (number : Nat) (manager : Manager) (cache : Cache)
    (snapshots : Table Cache) (reports : List Event) : Workspace :=
  { start.setManager number { manager with cache } with snapshots, reports }

/-- A workspace that differs from the first in coherent caches and in reports. -/
inductive Used (start : Workspace) (number : Nat) (manager : Manager) : Workspace → Prop where
  | caches {cache : Cache} {snapshots : Table Cache} {reports : List Event}
      (coherent : cache.Coherent (start.library manager))
      (saved : ∀ snapshot cache, snapshots.get? snapshot = some cache →
        cache.Coherent (start.library manager)) :
      Used start number manager (start.withCache number manager cache snapshots reports)

end Workspace

namespace Session

section

variable {start : Workspace} {name : String} {number : Nat} {manager : Manager}
  {renderer : Renderer} (unused : start.Unused name number manager renderer)
  {cache : Cache} {snapshots : Table Cache} {reports : List Event}

include unused

theorem found : start.names.get? name = some number ∧ start.managers[number]? = some manager :=
  Workspace.manager?_eq_some_iff.mp unused.known

theorem held_withCache :
    (start.withCache number manager cache snapshots reports).managers[number]? =
      some { manager with cache } := by
  have held := (found unused).2
  exact List.getElem?_set_self (List.getElem?_eq_some_iff.mp held).1

theorem known_withCache :
    (start.withCache number manager cache snapshots reports).manager? name =
      some (number, { manager with cache }) :=
  Workspace.manager?_eq_some_iff.mpr ⟨(found unused).1, held_withCache unused⟩

theorem manager_withCache :
    Work.manager name (start.withCache number manager cache snapshots reports) =
      .ok (number, { manager with cache })
        (start.withCache number manager cache snapshots reports) :=
  Work.manager_of_known (known_withCache unused)

theorem setting_withCache :
    (start.withCache number manager cache snapshots reports).setting renderer =
      start.setting renderer := by
  simp only [Workspace.setting, unused.home, held_withCache unused, (found unused).2,
    Option.map_some]
  rfl

theorem onCache_withCache {α : Type} (action : Action α) :
    Work.onCache number action (start.withCache number manager cache snapshots reports) =
      match action ⟨cache, .start, reports, 0⟩ with
      | .ok result store =>
          .ok result (start.withCache number manager store.cache snapshots store.reports)
      | .error fault store =>
          .error (.fault fault)
            (start.withCache number manager store.cache snapshots store.reports) := by
  have begun : (start.withCache number manager cache snapshots reports).reports = reports := rfl
  have again (later : Cache) (events : List Event) :
      { (start.withCache number manager cache snapshots reports).setManager number
          { manager with cache := later } with reports := events } =
        start.withCache number manager later snapshots events := by
    simp only [Workspace.withCache, Workspace.setManager, List.set_set]
  rw [Work.onCache, get_bind]
  simp only [held_withCache unused, EStateM.run, begun]
  cases action ⟨cache, .start, reports, 0⟩ with
  | ok result store => exact congrArg (EStateM.Result.ok result) (again store.cache store.reports)
  | error fault store =>
      exact congrArg (EStateM.Result.error (Failure.fault fault)) (again store.cache store.reports)

theorem renderTokens_withCache (tokens : Tokens) (view : Value) (aliases : Table Tokens) :
    Work.renderTokens name tokens view aliases
        (start.withCache number manager cache snapshots reports) =
      Work.onCache number (Logicless.render (start.setting renderer) tokens view aliases)
        (start.withCache number manager cache snapshots reports) := by
  have own : (start.withCache number manager cache snapshots reports).renderers[manager.renderer]? =
      some renderer := unused.own
  have rendered := Work.rendererOf_of_known (known_withCache unused) own
  refine (bind_of_ok rendered).trans ((get_bind _).trans ?_)
  simp only [setting_withCache unused, unused.home]

theorem onCache_used {α : Type} {action : Action α}
    (agree : Agree (start.library manager) α action action) {reached : Workspace}
    (used : start.Used number manager reached) :
    outcome (Work.onCache number action reached) =
        (outcome (action .fresh)).mapError Failure.fault ∧
      start.Used number manager (final (Work.onCache number action reached)) := by
  obtain @⟨cache, snapshots, reports, coherent, saved⟩ := used
  have alike : Alike (start.library manager) ⟨cache, .start, reports, 0⟩ .fresh :=
    ⟨coherent, Cache.coherent_empty _, rfl⟩
  obtain ⟨ended, after⟩ := agree _ _ alike
  rw [onCache_withCache unused, ← ended]
  cases run : action ⟨cache, .start, reports, 0⟩ with
  | ok result store =>
      rw [run] at after
      exact ⟨rfl, .caches after.cache saved⟩
  | error fault store =>
      rw [run] at after
      exact ⟨rfl, .caches after.cache saved⟩

theorem onCache_settled {α : Type} {action : Action α}
    (agree : Agree (start.library manager) α action action) :
    Settled (fun _ : Unit => start.Used number manager) (Work.onCache number action) :=
  ⟨_, fun _ _ used => onCache_used unused agree used⟩

theorem tokenize_used {reached : Workspace} (used : start.Used number manager reached) (keep : Bool)
    (template : String) :
    Work.tokenize name keep template reached =
      Work.onCache number (Logicless.tokenize (start.library manager) keep template) reached := by
  obtain ⟨coherent, saved⟩ := used
  exact bind_of_ok (manager_withCache unused)

theorem renderTokens_settled (bounded : (start.library manager).Bounded) (tokens : Tokens)
    (view : Value) (aliases : Table Tokens) :
    Settled (fun _ : Unit => start.Used number manager)
      (Work.renderTokens name tokens view aliases) := by
  have homes (home : Home) (known : (start.setting renderer).home = some home) :
      home.library = start.library manager := by
    simp only [Workspace.setting, unused.home, (found unused).2, Option.map_some,
      Option.some.injEq] at known
    rw [← known, Workspace.home]
  refine .of_eq (onCache_settled unused (render_agree bounded homes tokens view aliases)) ?_
  rintro _ _ ⟨coherent, saved⟩
  exact renderTokens_withCache unused tokens view aliases

/-- A call ends in the same way from every workspace in which the manager has been used. -/
theorem call_settled (bounded : (start.library manager).Bounded) {step : Step} (call : step.Call) :
    Settled (fun _ : Unit => start.Used number manager) (perform name step) := by
  cases call with
  | tokenize template keep =>
      have steady := tokenize_steady bounded keep template
      refine .andThen (.of_eq (onCache_settled unused steady.agree) ?_) fun tokens => .pure _
      exact fun _ _ used => tokenize_used unused used keep template
  | compile template text =>
      have steady := compile_steady bounded template text
      refine .andThen (.of_eq (onCache_settled unused steady.agree) ?_) fun tokens => .pure _
      rintro _ _ ⟨coherent, saved⟩
      exact bind_of_ok (manager_withCache unused)
  | render template view =>
      have prepared := onCache_settled unused (prepare_steady bounded template).agree
      refine .andThen (.of_eq (.andThen prepared fun ready =>
        renderTokens_settled unused bounded ready.2 view ready.1) ?_) fun text => .pure _
      rintro _ _ ⟨coherent, saved⟩
      exact bind_of_ok (manager_withCache unused)

theorem discard_withCache :
    (discard (Work.manager name) : Work Unit)
        (start.withCache number manager cache snapshots reports) =
      .ok () (start.withCache number manager cache snapshots reports) :=
  discard_of_ok (manager_withCache unused)

theorem restore_withCache (former : Cache) :
    Work.restore name former (start.withCache number manager cache snapshots reports) =
      .ok () (start.withCache number manager former snapshots reports) := by
  refine (Work.changeManager_of_known (known_withCache unused) _).trans ?_
  refine congrArg (EStateM.Result.ok ()) ?_
  simp only [Workspace.withCache, Workspace.setManager, List.set_set]

/-- What one step does to the caches. -/
theorem use_used (bounded : (start.library manager).Bounded) {step : Step} (use : step.Use)
    {reached : Workspace} (used : start.Used number manager reached) :
    start.Used number manager (final (perform name step reached)) := by
  cases use with
  | call call =>
      obtain ⟨_, ends⟩ := call_settled unused bounded call
      exact (ends () reached used).2
  | showCache =>
      obtain ⟨coherent, saved⟩ := used
      rw [perform, bind_of_ok (manager_withCache unused)]
      exact .caches coherent saved
  | clearCopy =>
      obtain ⟨coherent, saved⟩ := used
      rw [perform, bind_of_ok (discard_withCache unused)]
      exact .caches coherent saved
  | save snapshot =>
      obtain ⟨coherent, saved⟩ := used
      rw [perform, bind_of_ok (manager_withCache unused)]
      refine .caches coherent fun other cache known => ?_
      by_cases same : other = snapshot
      · rw [same, Table.get?_insert_self] at known
        cases known
        exact coherent
      · exact saved other cache ((Table.get?_insert_of_ne _ same _).symm.trans known)
  | restore snapshot =>
      obtain @⟨cache, snapshots, reports, coherent, saved⟩ := used
      have kept :
          (start.withCache number manager cache snapshots reports).snapshots = snapshots := rfl
      rw [perform, bind_of_ok (discard_withCache unused)]
      rw [get_bind, kept]
      cases known : snapshots.get? snapshot with
      | some former =>
          simp only [bind_of_ok (restore_withCache unused former)]
          exact .caches (saved snapshot former known) saved
      | none => exact .caches coherent saved

theorem after_used (bounded : (start.library manager).Bounded) {steps : List Step}
    (uses : ∀ step ∈ steps, step.Use) {reached : Workspace}
    (used : start.Used number manager reached) :
    start.Used number manager (after name steps reached) := by
  induction steps generalizing reached with
  | nil => exact used
  | cons step rest ih =>
      refine ih (fun other later => uses other (.tail _ later)) ?_
      exact use_used unused bounded (uses step (.head _)) used

theorem start_used : start.Used number manager start := by
  obtain ⟨within, held⟩ := List.getElem?_eq_some_iff.mp (found unused).2
  have unchanged : start.managers.set number { manager with cache := .empty } = start.managers := by
    rw [← unused.empty, ← held]
    exact List.set_getElem_self within
  have same : start.withCache number manager .empty .empty start.reports = start := by
    simp only [Workspace.withCache, Workspace.setManager, unchanged, ← unused.unsaved]
  have used : start.Used number manager
      (start.withCache number manager .empty .empty start.reports) :=
    .caches (Cache.coherent_empty _) fun _ _ known => by simp at known
  rwa [same] at used

end

/-- For finitely many files and no cycles of inheritance there is a bound on lines of inheritance
with which every call after any use ends as it would have at the start, and every cached name has
the tokens that the compiler would have made of it at the start. -/
theorem used_answers {tree : FileTree} (finite : tree.Finite) {chain : Chain}
    (acyclic : Acyclic (chain.ask tree)) :
    ∃ bound, ∀ (start : Workspace) (name : String) (number : Nat) (manager : Manager)
      (renderer : Renderer), start.Unused name number manager renderer → start.tree = tree →
      manager.chain = chain → bound ≤ start.chainLimit →
      ∀ steps : List Step, (∀ step ∈ steps, step.Use) →
        let reached := after name steps start
        (∀ step : Step, step.Call →
          outcome (perform name step reached) = outcome (perform name step start)) ∧
        ∃ cache, reached.manager? name = some (number, { manager with cache }) ∧
          ∀ key tokens, (key, tokens) ∈ cache.entries → ∃ template, key = .text template ∧
            outcome (perform name (.tokenize template true) start) = .ok (.tokens tokens) := by
  obtain ⟨bound, within⟩ := Chain.exists_limit finite acyclic
  refine ⟨bound, ?_⟩
  rintro start name number manager renderer unused rfl rfl enough steps uses reached
  have bounded : (start.library manager).Bounded := fun template =>
    (within template).mono (Nat.add_le_add_right enough template.length)
  have used : start.Used number manager reached :=
    after_used unused bounded uses (start_used unused)
  clear_value reached
  refine ⟨fun step call => ?_, ?_⟩
  · obtain ⟨_, ends⟩ := call_settled unused bounded call
    exact (ends () reached used).1.trans (ends () start (start_used unused)).1.symm
  · obtain @⟨cache, snapshots, reports, coherent, saved⟩ := used
    refine ⟨cache, known_withCache unused, fun key tokens member => ?_⟩
    obtain ⟨template, same, _, meant⟩ := coherent key tokens member
    have steady := tokenize_steady bounded true template
    refine ⟨template, same, ?_⟩
    rw [perform, outcome_bind_pure, tokenize_used unused (start_used unused),
      (onCache_used unused steady.agree (start_used unused)).1, ← Library.meaning, meant]
    rfl

/-- A page and the base that it inherits from: rendering the page after the base has been rendered
and a saved cache put back. -/
theorem used_answers_page :
    ∃ bound,
      let start :=
        { (Workspace.empty .empty []).addManager "m" pageChain with chainLimit := bound }
      let steps : List Step := [.tokenize "page" true, .save "tokens",
        .render "base" (.mapping []) .none, .restore "tokens"]
      let page : Step := .render "page" (.mapping []) .none
      start.Unused "m" 0 (.make pageChain 0) (.make 0) ∧ (∀ step ∈ steps, step.Use) ∧
        outcome (perform "m" page (after "m" steps start)) = outcome (perform "m" page start) := by
  obtain ⟨bound, answers⟩ := used_answers FileTree.finite_empty acyclic_pageChain
  refine ⟨bound, ?_⟩
  intro start steps page
  have unused : start.Unused "m" 0 (.make pageChain 0) (.make 0) := ⟨rfl, rfl, rfl, rfl, rfl⟩
  have uses : ∀ step ∈ steps, step.Use := by
    simp only [steps, List.forall_mem_cons]
    exact ⟨.call (.tokenize _ _), .save _, .call (.render _ _), .restore _, by simp⟩
  have same := (answers start "m" 0 _ _ unused rfl rfl (Nat.le_refl _) steps uses).1
  exact ⟨unused, uses, same page (.render _ _)⟩

end Session

end Logicless
