import Logicless.Proofs.Inheritance

namespace Logicless

/-!
The depth limit is exact, and changes nothing but that.

`Allows` compares rendering under a limit with rendering under a wider one or under none: both end
in the same way, unless the limit is met. `Guards` adds which of the two it is. While no limit is
set, the store measures how deep blocks were nested; up to the limit the outcome is the same, and
beyond it the rendering is refused. Both pass through whole renderings, because every nested block
is one level deeper and is refused before anything else is done (`renderWithin_refused`).
-/

namespace Setting

def limited (setting : Setting) (limit : Int) : Setting := { setting with maxDepth := some limit }

def unlimited (setting : Setting) (nestingLimit : Nat) : Setting :=
  { setting with maxDepth := none, nestingLimit }

theorem exceeds_of_forall {setting : Setting} {depth : Nat}
    (within : ∀ limit ∈ setting.maxDepth, (depth : Int) ≤ limit) :
    setting.exceeds depth = none := by
  cases guarded : setting.maxDepth with
  | none => simp only [exceeds, guarded]
  | some limit =>
      have notBeyond : ¬ Int.ofNat depth > limit := Int.not_lt.mpr (within limit guarded)
      simp only [exceeds, guarded, if_neg notBeyond]

theorem exceeds_eq_none {setting : Setting} {limit : Int} {depth : Nat}
    (guarded : setting.maxDepth = some limit) (within : (depth : Int) ≤ limit) :
    setting.exceeds depth = none :=
  exceeds_of_forall fun other known => by
    cases guarded.symm.trans known
    exact within

theorem exceeds_eq_some {setting : Setting} {limit : Int} {depth : Nat}
    (guarded : setting.maxDepth = some limit) (beyond : limit < depth) :
    setting.exceeds depth = some limit := by
  have further : Int.ofNat depth > limit := beyond
  simp only [exceeds, guarded, if_pos further]

end Setting

/-- A computation that begins no block. The second computation is not looked at. -/
def Flat : ActionRelation := fun _ action _ =>
  ∀ store, (final (action store)).deepest = store.deepest

theorem searching_flat : Searching Flat where
  gives _ _ := rfl
  fails _ _ _ := rfl
  andThen := by
    intro α β first _ next _ flat continued store
    have here := flat store
    cases run : first store with
    | error fault after => rw [bind_of_error run, ← here, run, final_error, final_error]
    | ok result after => rw [bind_of_ok run, continued result after, ← here, run, final_ok]
  reports _ _ := rfl
  recalls _ _ := rfl
  remembers _ _ _ := rfl

theorem tokenizeWithin_flat (source : Source) (fuel : Nat) (keep : Bool) (template : String) :
    Flat Tokens (tokenizeWithin source fuel keep template)
      (tokenizeWithin source fuel keep template) :=
  tokenizeWithin_self searching_flat (fun _ _ => rfl) source fuel keep template

theorem compile_flat (library : Library) (template : Option String) (text : String) :
    Flat Tokens (compile library template text) (compile library template text) :=
  compileText_related searching_flat.toSequential template
    fun _ _ => tokenizeWithin_flat library.source _ true _

/-- Settings that differ in their limits alone are related by whatever holds of computations that
begin no block. -/
theorem Setting.Related.ofFlat {R : ActionRelation} (congruence : Congruence R)
    (flat : ∀ action : Action Tokens, Flat Tokens action action → R Tokens action action)
    {left right : Setting} (escape : left.escape = right.escape) (homes : left.home = right.home) :
    left.Related R right :=
  .ofSame congruence escape homes
    (fun library keep _ => flat _ (tokenizeWithin_flat library.source _ keep _))
    fun library text => flat _ (compile_flat library none text)

theorem onMemory_flat {α : Type} (step : Memory → Except Trouble α × Memory) :
    Flat α (Action.onMemory step) (Action.onMemory step) := by
  intro store
  simp only [Action.onMemory]
  split <;> rfl

def Rises : ActionRelation := fun _ action _ =>
  ∀ store, store.deepest ≤ (final (action store)).deepest

theorem Flat.rises {α : Type} {action other : Action α} (flat : Flat α action other) :
    Rises α action other := fun store => Nat.le_of_eq (flat store).symm

theorem congruence_rises : Congruence Rises where
  gives result := Flat.rises (searching_flat.gives result)
  fails fault ends := Flat.rises (searching_flat.fails fault ends)
  andThen := by
    intro α β first _ next _ rises continued store
    have here := rises store
    cases run : first store with
    | error fault after => simpa only [bind_of_error run, run, final_error] using here
    | ok result after =>
        rw [run, final_ok] at here
        rw [bind_of_ok run]
        exact Nat.le_trans here (continued result after)
  reports events := Flat.rises (searching_flat.reports events)
  minds step := (onMemory_flat step).rises

theorem renderWithin_rises (setting : Setting) (fuel : Nat) (scope : Scope) (tokens : Tokens) :
    Rises Rendered (renderWithin setting fuel scope tokens)
      (renderWithin setting fuel scope tokens) :=
  renderWithin_related congruence_rises
    (.ofFlat congruence_rises (fun _ flat => flat.rises) rfl rfl) rfl (fun _ _ => Nat.le_max_left _ _) (fun _ => Nat.le_refl _) fuel scope tokens

theorem renderWithin_deepest {setting : Setting} {scope : Scope}
    (allowed : setting.exceeds scope.depth = none) (fuel : Nat) (tokens : Tokens) (store : Store) :
    scope.depth ≤ (final (renderWithin setting (fuel + 1) scope tokens store)).deepest := by
  rw [renderWithin_begun allowed]
  have later : Rises Rendered (renderTokens setting (renderWithin setting fuel) scope tokens)
      (renderTokens setting (renderWithin setting fuel) scope tokens) :=
    renderTokens_related congruence_rises
      (.ofFlat congruence_rises (fun _ flat => flat.rises) rfl rfl) tokens
      fun inner tokens _ => renderWithin_rises setting fuel inner tokens
  exact Nat.le_trans (Nat.le_max_right _ _)
    (later { store with deepest := max store.deepest scope.depth })

def Allows (limit : Int) : ActionRelation := fun _ guarded free =>
  ∀ store, guarded store = free store ∨ ∃ after, guarded store = .error (.tooDeep limit) after

theorem allows_refl (limit : Int) {α : Type} (action : Action α) : Allows limit α action action :=
  fun _ => .inl rfl

theorem congruence_allows (limit : Int) : Congruence (Allows limit) where
  gives _ := allows_refl limit _
  fails _ _ := allows_refl limit _
  andThen := by
    intro α β guarded free next later allows continued store
    rcases allows store with same | ⟨after, refused⟩
    · cases run : free store with
      | error fault after =>
          rw [run] at same
          exact .inl (by rw [bind_of_error run, bind_of_error same])
      | ok result after =>
          rw [run] at same
          rw [bind_of_ok run, bind_of_ok same]
          exact continued result after
    · exact .inr ⟨after, bind_of_error refused⟩
  reports _ := allows_refl limit _
  minds _ := allows_refl limit _

/-- Blocks that one setting refuses beyond a limit, and that another setting lets in up to it. The
levels that are left suffice for both. -/
theorem renderWithin_allows {left right : Setting} {limit : Int}
    (guarded : left.maxDepth = some limit) (escape : left.escape = right.escape)
    (homes : left.home = right.home)
    (wider : ∀ depth : Nat, (depth : Int) ≤ limit → right.exceeds depth = none)
    {fuel more : Nat} {scope : Scope} (some : 0 < fuel) (enough : limit + 1 < scope.depth + fuel)
    (room : limit < scope.depth + more) (tokens : Tokens) :
    Allows limit Rendered (renderWithin left fuel scope tokens)
      (renderWithin right more scope tokens) := by
  induction fuel generalizing more scope tokens with
  | zero => exact absurd some (Nat.lt_irrefl 0)
  | succ fuel ih =>
      by_cases within : (scope.depth : Int) ≤ limit
      · obtain ⟨more, rfl⟩ : ∃ less, more = less + 1 := ⟨more - 1, by omega⟩
        rw [renderWithin_entered (Setting.exceeds_eq_none guarded within),
          renderWithin_entered (wider _ within)]
        refine (congruence_allows limit).andThen (allows_refl limit _) fun _ => ?_
        refine renderTokens_related (congruence_allows limit) ?_ tokens
          fun inner tokens deeper => ?_
        · exact .ofFlat (congruence_allows limit) (fun _ _ => allows_refl limit _) escape homes
        · exact ih (by omega) (by omega) (by omega) tokens
      · rw [renderWithin_refused (Setting.exceeds_eq_some guarded (by omega))]
        exact fun store => .inr ⟨store, rfl⟩

inductive Cut (limit : Int) {α : Type} (guarded free : EStateM.Result Fault Store α) : Prop where
  | endless {after : Store} (nested : free = .error .endless after)
  | within (measured : ((final free).deepest : Int) ≤ limit) (same : guarded = free)
  | beyond {after : Store} (measured : limit < (final free).deepest)
      (refused : guarded = .error (.tooDeep limit) after)

def Guards (limit : Int) : ActionRelation := fun _ guarded free =>
  ∀ store, store.deepest ≤ (final (free store)).deepest ∧
    ((store.deepest : Int) ≤ limit → Cut limit (guarded store) (free store))

theorem Flat.guards {limit : Int} {α : Type} {action : Action α} (flat : Flat α action action) :
    Guards limit α action action :=
  fun store => ⟨flat.rises store, fun shallow => .within (by rwa [flat store]) rfl⟩

theorem congruence_guards (limit : Int) : Congruence (Guards limit) where
  gives result := Flat.guards (searching_flat.gives result)
  fails fault ends := Flat.guards (searching_flat.fails fault ends)
  andThen := by
    intro α β guarded free next later guards continued store
    obtain ⟨rises, cut⟩ := guards store
    cases run : free store with
    | error fault after =>
        rw [run] at rises cut
        rw [bind_of_error run]
        refine ⟨rises, fun shallow => ?_⟩
        cases cut shallow with
        | endless nested =>
            cases nested
            exact .endless rfl
        | within measured same => exact .within measured (bind_of_error same)
        | beyond measured refused => exact .beyond measured (bind_of_error refused)
    | ok result after =>
        rw [run] at rises cut
        rw [bind_of_ok run]
        obtain ⟨further, cutLater⟩ := continued result after
        refine ⟨Nat.le_trans rises further, fun shallow => ?_⟩
        cases cut shallow with
        | endless nested => contradiction
        | within measured same =>
            rw [bind_of_ok same]
            exact cutLater measured
        | beyond measured refused =>
            refine .beyond ?_ (bind_of_error refused)
            exact Int.lt_of_lt_of_le measured (Int.ofNat_le.mpr further)
  reports events := Flat.guards (searching_flat.reports events)
  minds step := (onMemory_flat step).guards

theorem renderWithin_guards {left right : Setting} {limit : Int}
    (guarded : left.maxDepth = some limit) (free : right.maxDepth = none)
    (escape : left.escape = right.escape) (homes : left.home = right.home)
    {fuel : Nat} (more : Nat) {scope : Scope} (some : 0 < fuel)
    (enough : limit + 1 < scope.depth + fuel) (tokens : Tokens) :
    Guards limit Rendered (renderWithin left fuel scope tokens)
      (renderWithin right more scope tokens) := by
  induction fuel generalizing more scope tokens with
  | zero => exact absurd some (Nat.lt_irrefl 0)
  | succ fuel ih =>
      cases more with
      | zero => exact fun store => ⟨Nat.le_refl _, fun _ => .endless rfl⟩
      | succ more =>
          have entered : right.exceeds scope.depth = none := by simp only [Setting.exceeds, free]
          by_cases within : (scope.depth : Int) ≤ limit
          · rw [renderWithin_entered (Setting.exceeds_eq_none guarded within),
              renderWithin_entered entered]
            refine (congruence_guards limit).andThen (fun store => ⟨Nat.le_max_left _ _, ?_⟩)
              fun _ => ?_
            · intro shallow
              have measured : (final (Action.enter scope.depth store)).deepest =
                  max store.deepest scope.depth := rfl
              exact .within (by omega) rfl
            · refine renderTokens_related (congruence_guards limit) ?_ tokens ?_
              · exact .ofFlat (congruence_guards limit) (fun _ flat => flat.guards) escape homes
              · exact fun inner tokens deeper => ih more (by omega) (by omega) tokens
          · rw [renderWithin_refused (Setting.exceeds_eq_some guarded (by omega))]
            intro store
            refine ⟨renderWithin_rises right _ scope tokens store, fun _ => ?_⟩
            have deep := renderWithin_deepest entered more tokens store
            exact .beyond (by omega) rfl

theorem render_allows {left right : Setting} {limit : Int} (guarded : left.maxDepth = some limit)
    (escape : left.escape = right.escape) (homes : left.home = right.home)
    (wider : ∀ depth : Nat, (depth : Int) ≤ limit → right.exceeds depth = none)
    (room : limit < right.levels) (tokens : Tokens) (view : Value) (aliases : Table Tokens) :
    Allows limit String (render left tokens view aliases) (render right tokens view aliases) := by
  have levels : left.levels = (limit + 1).toNat + 1 := by simp only [Setting.levels, guarded]
  refine (congruence_allows limit).andThen ?_ fun _ => allows_refl limit _
  exact renderWithin_allows guarded escape homes wider (by omega) (by simp only; omega)
    (by simp only; omega) tokens

theorem render_guards {left right : Setting} {limit : Int} (guarded : left.maxDepth = some limit)
    (free : right.maxDepth = none) (escape : left.escape = right.escape)
    (homes : left.home = right.home) (tokens : Tokens) (view : Value) (aliases : Table Tokens) :
    Guards limit String (render left tokens view aliases) (render right tokens view aliases) := by
  have levels : left.levels = (limit + 1).toNat + 1 := by simp only [Setting.levels, guarded]
  refine (congruence_guards limit).andThen ?_ fun _ => (congruence_guards limit).gives _
  exact renderWithin_guards guarded free escape homes _ (by omega) (by simp only; omega) tokens

/-- A rendering that a limit lets through ends in the same way under a wider limit, and without a
limit wherever that allows more levels. A rendering without a limit that ends is let through by
exactly the limits from the depth on that it measures. -/
theorem render_limited (setting : Setting) (tokens : Tokens) (view : Value) (aliases : Table Tokens)
    (store : Store) (unmeasured : store.deepest = 0) :
    (∀ limit : Int,
      (∀ after, render (setting.limited limit) tokens view aliases store ≠
        .error (.tooDeep limit) after) →
      (∀ wider : Int, limit ≤ wider → render (setting.limited wider) tokens view aliases store =
        render (setting.limited limit) tokens view aliases store) ∧
      ∀ nesting : Nat, limit < nesting →
        render (setting.unlimited nesting) tokens view aliases store =
          render (setting.limited limit) tokens view aliases store) ∧
    ∀ nesting : Nat, let free := render (setting.unlimited nesting) tokens view aliases store
      (∀ after, free ≠ .error .endless after) →
      ∀ limit : Int,
        ((final free).deepest ≤ limit →
          render (setting.limited limit) tokens view aliases store = free) ∧
        (limit < (final free).deepest →
          ∃ after, render (setting.limited limit) tokens view aliases store =
            .error (.tooDeep limit) after) := by
  refine ⟨fun limit passed => ⟨fun wider atMost => ?_, fun nesting further => ?_⟩, ?_⟩
  · have levels : (setting.limited wider).levels = (wider + 1).toNat + 1 := rfl
    have allows := @render_allows (setting.limited limit) (setting.limited wider) limit rfl rfl rfl
      (fun _ within => Setting.exceeds_eq_none rfl (Int.le_trans within atMost)) (by omega)
    rcases allows tokens view aliases store with same | ⟨after, refused⟩
    · exact same.symm
    · exact absurd refused (passed after)
  · have levels : (setting.unlimited nesting).levels = nesting := rfl
    have allows := @render_allows (setting.limited limit) (setting.unlimited nesting) limit rfl rfl
      rfl (fun _ _ => rfl) (by omega)
    rcases allows tokens view aliases store with same | ⟨after, refused⟩
    · exact same.symm
    · exact absurd refused (passed after)
  · intro nesting free ends limit
    have guards := @render_guards (setting.limited limit) (setting.unlimited nesting) limit rfl rfl
      rfl rfl tokens view aliases
    by_cases negative : limit < 0
    · refine ⟨fun within => by omega, fun _ => ⟨store, ?_⟩⟩
      exact bind_of_error (congrFun (renderWithin_refused
        (Setting.exceeds_eq_some rfl negative) _ tokens) store)
    · cases (guards store).2 (by omega) with
      | endless nested => exact absurd nested (ends _)
      | within measured same =>
          exact ⟨fun _ => same, fun beyond => absurd beyond (Int.not_lt.mpr measured)⟩
      | beyond measured refused =>
          exact ⟨fun within => absurd measured (Int.not_lt.mpr within), fun _ => ⟨_, refused⟩⟩

/-- Two blocks deep: the limit 1 is met, the limit 2 is not. -/
theorem render_limited_twice :
    let setting : Setting := ⟨none, .html, none, 3⟩
    let tokens : Tokens := [.inverted "a" [.inverted "b" [.content "c"]]]
    let free := render (setting.unlimited 3) tokens (.mapping []) .empty .fresh
    (∀ after, free ≠ .error .endless after) ∧ outcome free = .ok "c" ∧ (final free).deepest = 2 ∧
      render (setting.limited 2) tokens (.mapping []) .empty .fresh = free ∧
      ∃ after, render (setting.limited 1) tokens (.mapping []) .empty .fresh =
        .error (.tooDeep 1) after := by
  intro setting tokens free
  have result : outcome free = .ok "c" := rfl
  have measured : (final free).deepest = 2 := rfl
  have ends : ∀ after, free ≠ .error .endless after := by
    intro after endless
    rw [endless] at result
    contradiction
  have exact := (render_limited setting tokens (.mapping []) .empty .fresh rfl).2 3 ends
  refine ⟨ends, result, measured, (exact 2).1 ?_, (exact 1).2 ?_⟩
  · exact Int.le_of_eq (congrArg Int.ofNat measured)
  · exact Int.lt_of_lt_of_le (by decide) (Int.le_of_eq (congrArg Int.ofNat measured).symm)

end Logicless
