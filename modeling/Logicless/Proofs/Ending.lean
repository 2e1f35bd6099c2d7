import Logicless.Proofs.Depth
import Logicless.Proofs.Lineage

namespace Logicless

/-- A computation that is not cut off. The second computation is not looked at. -/
def Ends : ActionRelation := fun _ action _ => ∀ store after, action store ≠ .error .endless after

theorem searching_ends : Searching Ends where
  gives _ _ _ := ok_ne_error
  fails fault ends _ _ := by
    intro cut
    cases cut
    exact ends rfl
  andThen := by
    intro α β first _ next _ ends continued store after
    cases run : first store with
    | error fault state =>
        rw [bind_of_error run]
        intro cut
        cases cut
        exact ends store after run
    | ok result state =>
        rw [bind_of_ok run]
        exact continued result state after
  reports _ _ _ := ok_ne_error
  recalls _ _ _ := ok_ne_error
  remembers _ _ _ _ := ok_ne_error

theorem congruence_ends : Congruence Ends where
  toSequential := searching_ends.toSequential
  minds step store after := by
    simp only [Action.onMemory]
    split <;> simp

theorem tokenizeWithin_ends {source : Source} (stocked : source.Stocked) {fuel : Nat}
    {template : String} (ends : EndsWithin source fuel template) (keep : Bool) :
    Ends Tokens (tokenizeWithin source fuel keep template)
      (tokenizeWithin source fuel keep template) := by
  induction fuel generalizing template keep with
  | zero => exact ends.elim
  | succ fuel ih =>
      refine tokenizeWithin_related ?_ searching_ends (fun parent inherits => ?_) keep
      · intro fault answered
        refine searching_ends.fails fault fun endless => stocked.ends template ?_
        rw [answered, endless]
      · exact ih (ends parent inherits) true

namespace Setting

/-- The same setting with another bound on lines of inheritance. -/
def withChainLimit (setting : Setting) (chainLimit : Nat) : Setting :=
  { setting with
    home := setting.home.map fun home => { home with library := { home.library with chainLimit } } }

theorem withChainLimit_related {R : ActionRelation} (congruence : Congruence R) {setting : Setting}
    {source : Source} (homes : ∀ home, setting.home = some home → home.library.source = source)
    {chainLimit longer : Nat}
    (finds : ∀ keep name, R Tokens (tokenize ⟨source, chainLimit⟩ keep name)
      (tokenize ⟨source, longer⟩ keep name)) :
    (setting.withChainLimit chainLimit).Related R (setting.withChainLimit longer) := by
  refine ⟨rfl, ?_⟩
  simp only [withChainLimit]
  cases known : setting.home with
  | none => exact .absent
  | some home =>
      have same := homes home known
      subst same
      exact .ofLibraries congruence rfl rfl finds fun text =>
        compileText_related congruence.toSequential none fun name _ => finds true name

end Setting

/-- Under a depth limit, renderings are related with as many levels as the limit needs and with
more. -/
theorem renderWithin_guarded {R : ActionRelation} (congruence : Congruence R)
    (enters : ∀ depth, R Unit (Action.enter depth) (Action.enter depth)) {left right : Setting}
    (related : left.Related R right) {limit : Int} (guarded : left.maxDepth = some limit)
    (limited : right.maxDepth = some limit) {fuel more : Nat} {scope : Scope} (some : 0 < fuel)
    (enough : limit + 1 < scope.depth + fuel) (atLeast : fuel ≤ more) (tokens : Tokens) :
    R Rendered (renderWithin left fuel scope tokens) (renderWithin right more scope tokens) := by
  induction fuel generalizing more scope tokens with
  | zero => exact absurd some (Nat.lt_irrefl 0)
  | succ fuel ih =>
      obtain ⟨more, rfl⟩ : ∃ less, more = less + 1 := ⟨more - 1, by omega⟩
      by_cases within : (scope.depth : Int) ≤ limit
      · rw [renderWithin_entered (Setting.exceeds_eq_none guarded within),
          renderWithin_entered (Setting.exceeds_eq_none limited within)]
        refine congruence.andThen (enters scope.depth) fun _ => ?_
        refine renderTokens_related congruence related tokens fun inner tokens deeper => ?_
        exact ih (by omega) (by omega) (by omega) tokens
      · rw [renderWithin_refused (Setting.exceeds_eq_some guarded (by omega)),
          renderWithin_refused (Setting.exceeds_eq_some limited (by omega))]
        exact congruence.fails _ (by simp)

/-- Rendering with blocks nested to a number of levels; `render` takes the number of its setting. -/
def renderTo (setting : Setting) (levels : Nat) (tokens : Tokens) (view : Value)
    (aliases : Table Tokens) : Action String := do
  let rendered ← renderWithin setting levels ⟨view, aliases, .empty, 0⟩ tokens
  return rendered.text

theorem renderTo_guarded {R : ActionRelation} (congruence : Congruence R)
    (enters : ∀ depth, R Unit (Action.enter depth) (Action.enter depth)) {left right : Setting}
    (related : left.Related R right) {limit : Int} (guarded : left.maxDepth = some limit)
    (limited : right.maxDepth = some limit) {levels : Nat} (enough : left.levels ≤ levels)
    (tokens : Tokens) (view : Value) (aliases : Table Tokens) :
    R String (renderTo left left.levels tokens view aliases)
      (renderTo right levels tokens view aliases) := by
  have least : left.levels = (limit + 1).toNat + 1 := by simp only [Setting.levels, guarded]
  refine congruence.andThen ?_ fun rendered => congruence.gives _
  exact renderWithin_guarded congruence enters related guarded limited (by omega)
    (by simp only; omega) enough tokens

/-- For a finite store without cycles of inheritance there is a bound on lines of inheritance with
which every rendering under a depth limit ends in a text or an error of its own, and with which
raising that bound, or the number of levels, changes nothing. -/
theorem render_ends {source : Source} (stocked : source.Stocked) (acyclic : Acyclic source) :
    ∃ bound, ∀ (setting : Setting) (limit : Int), setting.maxDepth = some limit →
      (∀ home, setting.home = some home → home.library.source = source) →
      ∀ (tokens : Tokens) (view : Value) (aliases : Table Tokens) (store : Store),
        ∃ result, (∀ after, result ≠ .error .endless after) ∧
          ∀ chainLimit, bound ≤ chainLimit →
            render (setting.withChainLimit chainLimit) tokens view aliases store = result ∧
            ∀ levels, setting.levels ≤ levels →
              renderTo (setting.withChainLimit chainLimit) levels tokens view aliases store =
                result := by
  obtain ⟨bound, within⟩ := exists_limit acyclic stocked.finite
  refine ⟨bound, fun setting limit guarded homes tokens view aliases store => ?_⟩
  have ends := renderTo_guarded congruence_ends (fun _ _ _ => ok_ne_error)
    (Setting.withChainLimit_related congruence_ends homes fun keep name =>
      tokenizeWithin_ends stocked (within name) keep)
    guarded guarded (Nat.le_refl _) tokens view aliases
  have grown {chainLimit levels : Nat} (longer : bound ≤ chainLimit)
      (more : setting.levels ≤ levels) :
      renderTo (setting.withChainLimit chainLimit) levels tokens view aliases store =
        renderTo (setting.withChainLimit bound) setting.levels tokens view aliases store := by
    have related := Setting.withChainLimit_related congruence_eq homes
      fun keep name => tokenizeWithin_eq (within name)
        ((within name).mono (Nat.add_le_add_right longer name.length)) keep
    have same := renderTo_guarded congruence_eq (fun _ => rfl) related guarded guarded more tokens
      view aliases
    exact (congrFun same store).symm
  refine ⟨_, ends store, fun chainLimit longer => ⟨?_, fun levels more => grown longer more⟩⟩
  exact grown longer (Nat.le_refl _)

/-- A page that includes itself without end. -/
theorem render_ends_page :
    let setting : Setting :=
      ⟨some ⟨.empty, ⟨pageChain.ask .empty, 1000⟩, .html⟩, .html, some 3, 2000⟩
    ∃ bound, ∃ result : EStateM.Result Fault Store String,
      (∀ after, result ≠ .error .endless after) ∧
        ∀ chainLimit, bound ≤ chainLimit →
          render (setting.withChainLimit chainLimit) [.partialNamed "page"] (.mapping []) .empty
            .fresh = result := by
  intro setting
  obtain ⟨bound, settles⟩ := render_ends (pageChain.stocked FileTree.finite_empty) acyclic_pageChain
  have homes (home : Home) (known : setting.home = some home) :
      home.library.source = pageChain.ask .empty := by
    cases known
    rfl
  obtain ⟨result, ends, same⟩ :=
    settles setting 3 rfl homes [.partialNamed "page"] (.mapping []) .empty .fresh
  exact ⟨bound, result, ends, fun chainLimit longer => (same chainLimit longer).1⟩

end Logicless
