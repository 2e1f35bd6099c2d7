import Logicless.Proofs.Scoping
import Logicless.Proofs.Upholding

namespace Logicless

/-!
A placeholder is rendered as if its content stood in its place.

It opens a block of its own, with the view, the aliases and the pragmas that are active around it,
and hands on the pragmas that are active at the end of that block. So all that could tell it from
its content is where the content is joined, and how deep it is nested. Without a depth limit the
latter shows only where a rendering runs out of levels (`Reaches`), and a placeholder needs one
level more. The former shows where the content is rendered, but is no text (`Stuck`): behind a
placeholder nothing else is rendered then, whereas pieces that stand in a row are joined at the end
of the block (`renderWithin_splice`).
-/

/-- States that differ only in how deep blocks were nested. -/
structure Aligned (store other : Store) : Prop where
  cache : store.cache = other.cache
  memory : store.memory = other.memory
  reports : store.reports = other.reports

namespace Aligned

variable {store other third : Store}

theorem refl (store : Store) : Aligned store store := ⟨rfl, rfl, rfl⟩

theorem symm (aligned : Aligned store other) : Aligned other store :=
  ⟨aligned.cache.symm, aligned.memory.symm, aligned.reports.symm⟩

theorem withDepth (aligned : Aligned store other) (deepest : Nat) :
    Aligned { store with deepest } other :=
  ⟨aligned.cache, aligned.memory, aligned.reports⟩

end Aligned

/-- Runs that end in the same way, however deep blocks were nested. -/
structure Agrees {α : Type} (run other : EStateM.Result Fault Store α) : Prop where
  ended : outcome run = outcome other
  left : Aligned (final run) (final other)

/-- Computations of which the second matches the first, unless that runs out of levels. -/
def Reaches : ActionRelation := fun _ first second =>
  ∀ store other, Aligned store other → outcome (first store) ≠ .error .endless →
    Agrees (first store) (second other)

theorem reaches_endless {α : Type} (action : Action α) : Reaches α (throw .endless) action :=
  fun _ _ _ ends => absurd rfl ends

theorem Reaches.andThen {α β : Type} {first other : Action α} {next later : α → Action β}
    (begins : Reaches α first other) (continues : ∀ result, Reaches β (next result) (later result)) :
    Reaches β (first >>= next) (other >>= later) := by
  intro store second aligned ends
  cases run : first store with
  | error fault after =>
      rw [bind_of_error run] at ends ⊢
      have same := begins store second aligned fun endless => by
        rw [run] at endless
        cases endless
        exact ends rfl
      rw [run] at same
      obtain ⟨otherAfter, otherRun⟩ := error_of_outcome same.ended.symm
      rw [otherRun] at same
      rw [bind_of_error otherRun]
      exact ⟨rfl, same.left⟩
  | ok result after =>
      rw [bind_of_ok run] at ends ⊢
      have same := begins store second aligned (by rw [run]; exact nofun)
      rw [run] at same
      obtain ⟨otherAfter, otherRun⟩ := ok_of_outcome same.ended.symm
      rw [otherRun] at same
      rw [bind_of_ok otherRun]
      exact continues result after otherAfter same.left ends

theorem reaches_of_agrees {α : Type} {first second : Action α}
    (same : ∀ store other, Aligned store other → Agrees (first store) (second other)) :
    Reaches α first second :=
  fun store other aligned _ => same store other aligned

theorem searching_reaches : Searching Reaches where
  gives _ := reaches_of_agrees fun _ _ aligned => ⟨rfl, aligned⟩
  fails _ _ := reaches_of_agrees fun _ _ aligned => ⟨rfl, aligned⟩
  andThen := Reaches.andThen
  reports _ := reaches_of_agrees fun _ _ aligned =>
    ⟨rfl, aligned.cache, aligned.memory, congrArg (_ ++ ·) aligned.reports⟩
  recalls name := reaches_of_agrees fun _ _ aligned =>
    ⟨congrArg (fun cache => Except.ok (Cache.get? cache name)) aligned.cache, aligned⟩
  remembers _ _ := reaches_of_agrees fun _ _ aligned =>
    ⟨rfl, congrArg (Cache.insert · _ _) aligned.cache, aligned.memory, aligned.reports⟩

theorem congruence_reaches : Congruence Reaches where
  toSequential := searching_reaches.toSequential
  minds step := reaches_of_agrees fun store other aligned => by
    simp only [Action.onMemory, aligned.memory]
    cases step other.memory with
    | mk result memory => cases result <;> exact ⟨rfl, aligned.cache, rfl, aligned.reports⟩

theorem reaches_enter (depth other : Nat) :
    Reaches Unit (Action.enter depth) (Action.enter other) :=
  reaches_of_agrees fun _ _ aligned =>
    ⟨rfl, aligned.cache, aligned.memory, aligned.reports⟩

theorem Setting.related_reaches (setting : Setting) : setting.Related Reaches setting :=
  setting.related_self congruence_reaches searching_reaches fun _ =>
    reaches_of_agrees fun _ _ aligned => ⟨rfl, aligned⟩

/-- Renders blocks as if they were at a depth. -/
def atDepth (depth : Nat) (block : BlockRenderer) : BlockRenderer :=
  fun scope tokens => block { scope with depth } tokens

section

variable (setting : Setting) (block : BlockRenderer) (scope : Scope) (depth : Nat)

theorem renderItems_atDepth (content : Tokens) (items : List Value) :
    renderItems block { scope with depth } content items =
      renderItems (atDepth (depth + 1) block) scope content items := by
  induction items with
  | nil => rfl
  | cons item rest ih =>
      simp only [renderItems, ih]
      rfl

theorem renderBlock_atDepth (name : String) (content : Tokens) (template : String) :
    renderBlock setting block { scope with depth } name content template =
      renderBlock setting (atDepth (depth + 1) block) scope name content template := by
  unfold renderBlock
  simp only [renderItems_atDepth]
  rfl

theorem renderToken_atDepth (token : Token) :
    renderToken setting block { scope with depth } token =
      renderToken setting (atDepth (depth + 1) block) scope token := by
  have plain : renderPlain setting block { scope with depth } token =
      renderPlain setting (atDepth (depth + 1) block) scope token := by
    cases token with
    | block name content template => simp only [renderPlain, renderBlock_atDepth]; rfl
    | _ => rfl
  simp only [renderToken, plain]

theorem renderPieces_atDepth (tokens : Tokens) :
    renderPieces setting block { scope with depth } tokens =
      renderPieces setting (atDepth (depth + 1) block) scope tokens := by
  induction tokens generalizing scope with
  | nil => rfl
  | cons token rest ih =>
      simp only [renderPieces, renderToken_atDepth]
      refine bind_congr fun first => ?_
      rw [← ih { scope with active := first.active }]

end

section

variable {setting : Setting} (free : setting.maxDepth = none)

include free

theorem exceeds_of_free (depth : Nat) : setting.exceeds depth = none := by
  simp only [Setting.exceeds, free]

theorem renderOpen_succ (levels : Nat) (scope : Scope) (tokens : Tokens) :
    renderOpen setting (levels + 1) scope tokens = (do
      Action.enter scope.depth
      renderPieces setting (renderWithin setting levels) scope tokens) := by
  simp only [renderOpen, exceeds_of_free free]

omit free in
theorem joined_reaches (result : List Piece × ActivePragmas) :
    Reaches Rendered (joined result) (joined result) :=
  .andThen (searching_reaches.ofView _) fun _ => searching_reaches.gives _

/-- Neither more levels nor another depth make a difference to a block that ends. -/
theorem renderOpen_reaches {levels more : Nat} (atMost : levels ≤ more) (scope : Scope)
    (depth : Nat) (tokens : Tokens) :
    Reaches (List Piece × ActivePragmas) (renderOpen setting levels { scope with depth } tokens)
      (renderOpen setting more scope tokens) := by
  induction levels generalizing more scope depth tokens with
  | zero => exact reaches_endless _
  | succ levels ih =>
      obtain ⟨more, rfl⟩ : ∃ fewer, more = fewer + 1 := ⟨more - 1, by omega⟩
      rw [renderOpen_succ free, renderOpen_succ free]
      refine Reaches.andThen (reaches_enter _ _) fun _ => ?_
      rw [renderPieces_atDepth]
      refine renderPieces_related congruence_reaches setting.related_reaches tokens ?_
      intro inner tokens _
      simp only [atDepth, renderWithin_eq]
      exact .andThen (ih (Nat.le_of_succ_le_succ atMost) inner _ tokens) joined_reaches

end

/-- Whether all active pragmas are registered. -/
def Setting.Knows (setting : Setting) (active : ActivePragmas) : Prop :=
  ∀ home, setting.home = some home → ∀ name ∈ active.names, home.pragmas.contains name = true

theorem Table.mem_names_insert {α : Type} {table : Table α} {name other : String} {value : α}
    (member : other ∈ (table.insert name value).names) : other = name ∨ other ∈ table.names := by
  by_cases present : name ∈ table.names
  · exact .inr (table.names_insert_of_mem present value ▸ member)
  · rw [names, table.entries_insert_of_not_mem present, List.map_append, List.mem_append] at member
    exact member.symm.imp_left List.mem_singleton.mp

theorem lawful_ensures : Lawful fun _ holds action => Ensures holds action where
  gives := Ensures.pure
  andThen := Ensures.andThen
  report _ := .any _

theorem activate_knows {setting : Setting} {scope : Scope} (knows : setting.Knows scope.active)
    (name : String) (options : Options) :
    Ensures setting.Knows (activate setting scope name options) := by
  unfold activate
  extract_lets known
  cases registered : known with
  | false => exact .andThen (.throw : Ensures (fun _ => False) _) fun _ impossible => impossible.elim
  | true =>
      refine .andThen (.any _) fun _ _ => .pure ?_
      intro home here other member
      rcases Table.mem_names_insert member with rfl | before
      · simp only [known, here] at registered
        exact registered
      · exact knows home here other before

/-- All terms but that active pragmas are registered. -/
def knowingTerms (setting : Setting) (aliases : Table Tokens) : Terms where
  view _ := True
  token _ := True
  nested _ := True
  active := setting.Knows
  piece _ := True
  aliases := aliases

theorem upholds_knows (setting : Setting) (aliases : Table Tokens) :
    Upholds (fun _ holds action => Ensures holds action) setting
      (knowingTerms setting aliases) where
  toBinding := lawful_ensures.binding
  encloses _ _ := trivial
  inactive _ _ _ member := nomatch member
  silent := trivial
  content _ := trivial
  joins _ := trivial
  joinsPieces _ := fun _ _ _ _ => trivial
  offers _ _ := fun _ _ _ _ _ _ => trivial
  escapes _ _ := fun _ _ _ _ => trivial
  unescapes _ _ := fun _ _ _ _ => trivial
  finds _ _ _ := fun _ _ _ _ => trivial
  kinds _ := .ofView fun _ known => known
  takes _ _ := fun _ _ _ _ _ _ => trivial
  calls _ _ _ _ := fun _ _ _ _ => trivial
  includes _ _ := fun _ _ _ _ => trivial
  activates admits _ := activate_knows admits.active _ _

theorem renderOpen_knows {setting : Setting} {scope : Scope} (knows : setting.Knows scope.active)
    (levels : Nat) (tokens : Tokens) :
    Ensures (fun result => setting.Knows result.2) (renderOpen setting levels scope tokens) := by
  have upholds := upholds_knows setting scope.aliases
  cases levels with
  | zero => exact .throw
  | succ levels =>
      have nests := renderWithin_binds upholds rfl (fun _ => .throw) (fun _ => .any _)
        (fun _ _ _ _ => trivial) levels
      have admits : (knowingTerms setting scope.aliases).Admits scope := ⟨trivial, knows, rfl⟩
      have pieces : Ensures _ (renderPieces setting (renderWithin setting levels) scope tokens) :=
        renderPieces_binds upholds nests admits fun _ _ => trivial
      cases allowed : setting.exceeds scope.depth with
      | some limit =>
          rw [renderOpen, allowed]
          exact .throw
      | none =>
          rw [renderOpen, allowed]
          refine .andThen (.any _) fun _ _ => ?_
          exact lawful_ensures.weaken pieces fun _ within => within.2

/-- Registered pragmas that do not handle a token are passed over. -/
theorem offer_passed {setting : Setting} {kind : Token.Kind} (declines : setting.Declines kind)
    {active : ActivePragmas} (knows : setting.Knows active) (payload : Payload) (view : Value) :
    setting.offer active kind payload view = pure none := by
  unfold Setting.offer
  split
  · rfl
  · rename_i home here
    have registered := knows home here
    unfold Table.names at registered
    generalize active.entries = entries at registered
    induction entries with
    | nil => rfl
    | cons entry rest ih =>
        obtain ⟨name, options⟩ := entry
        simp only [List.map_cons, List.forall_mem_cons] at registered
        obtain ⟨pragma, known⟩ := Option.isSome_iff_exists.mp registered.1
        have unhandled : ¬ pragma.kinds.contains kind = true := by
          simpa using declines home here name pragma known
        simp only [offerTo, known, if_neg unhandled]
        exact ih registered.2

/-- Two blocks that have been rendered up to their ends, around one whose text is known. -/
def renderAround (setting : Setting) (levels : Nat) (inner : Scope → Action Rendered)
    (scope : Scope) (before after : Tokens) : Action (List Piece × ActivePragmas) := do
  let first ← renderOpen setting levels scope before
  let rendered ← inner { scope with active := first.2 }
  let last ← renderOpen setting levels { scope with active := rendered.active } after
  return (first.1 ++ .text rendered.text :: last.1, last.2)

theorem bind_congr_of_ensures {α β : Type} {holds : α → Prop} {first : Action α}
    {next later : α → Action β} (ensures : Ensures holds first)
    (same : ∀ result, holds result → next result = later result) :
    first >>= next = first >>= later := by
  funext store
  cases run : first store with
  | error fault after => rw [bind_of_error run, bind_of_error run]
  | ok result after => rw [bind_of_ok run, bind_of_ok run, same result (ensures _ _ _ run)]

theorem Reaches.around {setting : Setting} (free : setting.maxDepth = none) {levels more : Nat}
    (atMost : levels ≤ more) {inner other : Scope → Action Rendered}
    (inside : ∀ scope, Reaches Rendered (inner scope) (other scope)) (scope : Scope)
    (before after : Tokens) :
    Reaches _ (renderAround setting levels inner scope before after)
      (renderAround setting more other scope before after) := by
  refine .andThen (renderOpen_reaches free atMost scope scope.depth before) fun first => ?_
  refine .andThen (inside _) fun rendered => ?_
  let behind : Scope := { scope with active := rendered.active }
  refine .andThen (renderOpen_reaches free atMost behind scope.depth after) fun last => ?_
  exact searching_reaches.gives _

theorem Reaches.enterFirst {α : Type} {first other : Action α} (reaches : Reaches α first other)
    (depth : Nat) : Reaches α (do Action.enter depth; first) other :=
  fun store second aligned => reaches _ second (aligned.withDepth (max store.deepest depth))

theorem Reaches.enterOther {α : Type} {first other : Action α} (reaches : Reaches α first other)
    (depth : Nat) : Reaches α first (do Action.enter depth; other) :=
  fun store second aligned => reaches store _ (aligned.symm.withDepth (max second.deepest depth)).symm

section

variable {setting : Setting} (free : setting.maxDepth = none)

include free

theorem renderWithin_reaches {levels more : Nat} (atMost : levels ≤ more) (scope : Scope)
    (depth : Nat) (tokens : Tokens) :
    Reaches Rendered (renderWithin setting levels { scope with depth } tokens)
      (renderWithin setting more scope tokens) := by
  rw [renderWithin_eq, renderWithin_eq]
  exact .andThen (renderOpen_reaches free atMost scope depth tokens) joined_reaches

/-- The block of a placeholder, as its tokens are rendered among others. -/
def renderEnclosed (setting : Setting) (levels : Nat) (content : Tokens) (scope : Scope) :
    Action Rendered := do
  Action.enter scope.depth
  renderWithin setting levels (scope.descend scope.view) content

section

variable (placeholders : setting.Declines .placeholder) {scope : Scope}
  (knows : setting.Knows scope.active) (whole : scope.view.isScalar = false)

include placeholders whole knows

theorem renderOpen_placeholder (levels : Nat) (name : String) (content : Tokens) :
    renderOpen setting (levels + 1) scope [.placeholder name content] = (do
      let rendered ← renderEnclosed setting levels content scope
      return ([.text rendered.text], rendered.active)) := by
  have offered := offer_passed placeholders knows (.token (.placeholder name content)) scope.view
  rw [renderOpen_succ free]
  simp only [renderPieces, renderToken, Token.kind, Token.payload, offered, pure_bind, renderPlain,
    Scope.inLoop, whole, Bool.false_eq_true, if_false, renderEnclosed, bind_assoc]
  rfl

theorem renderOpen_around (levels : Nat) (before after : Tokens) (name : String)
    (content : Tokens) :
    renderOpen setting (levels + 1) scope (before ++ .placeholder name content :: after) =
      renderAround setting (levels + 1) (renderEnclosed setting levels content) scope before
        after := by
  rw [renderOpen_append]
  refine bind_congr_of_ensures (renderOpen_knows knows _ before) fun first known => ?_
  have here := @renderOpen_placeholder setting free placeholders { scope with active := first.2 }
    known whole levels name content
  have split : Token.placeholder name content :: after = [.placeholder name content] ++ after := rfl
  rw [split, renderOpen_append, here]
  simp only [bind_assoc, pure_bind, List.singleton_append]

theorem placeholder_reaches (levels : Nat) (before after : Tokens) (name : String)
    (content : Tokens) :
    Reaches Rendered
      (renderWithin setting levels scope (before ++ .placeholder name content :: after))
      (renderAround setting levels (renderWithin setting levels · content) scope before after >>=
        joined) := by
  cases levels with
  | zero => exact reaches_endless _
  | succ levels =>
      rw [renderWithin_eq, renderOpen_around free placeholders knows whole]
      refine .andThen (.around free (Nat.le_refl _) (fun inner => ?_) scope before after)
        joined_reaches
      refine Reaches.enterFirst ?_ _
      exact renderWithin_reaches free (Nat.le_succ levels) inner (inner.depth + 1) content

theorem reaches_placeholder (levels : Nat) (before after : Tokens) (name : String)
    (content : Tokens) :
    Reaches Rendered
      (renderAround setting levels (renderWithin setting levels · content) scope before after >>=
        joined)
      (renderWithin setting (levels + 1) scope (before ++ .placeholder name content :: after)) := by
  rw [renderWithin_eq, renderOpen_around free placeholders knows whole]
  refine .andThen (.around free (Nat.le_succ _) (fun inner => ?_) scope before after)
    joined_reaches
  refine Reaches.enterOther ?_ _
  exact renderWithin_reaches free (Nat.le_refl levels) (inner.descend inner.view) inner.depth content

end

end

/-- Whether all tokens of a content are rendered behind others, but not all its pieces are texts;
which pragmas are active then, and in which state. -/
def Stuck (setting : Setting) (levels : Nat) (scope : Scope) (before content : Tokens)
    (store : Store) (active : ActivePragmas) (middle : Store) : Prop :=
  ∃ first reached pieces, renderOpen setting levels scope before store = .ok first reached ∧
    renderOpen setting levels { scope with active := first.2 } content reached =
      .ok (pieces, active) middle ∧
    joinPieces pieces = .error .misuse

theorem joinPieces_insert {pieces : List Piece} {text : String} (texts : joinPieces pieces = .ok text)
    (before after : List Piece) :
    joinPieces (before ++ .text text :: after) = joinPieces (before ++ pieces ++ after) := by
  unfold joinPieces at texts ⊢
  split at texts
  · rename_i all
    cases texts
    simp only [List.all_append, List.all_cons, all, Value.isJoinable, Bool.true_and, Bool.and_true,
      List.map_append, List.map_cons, String.join_append, pieceText, String.join_cons,
      String.append_assoc]
  · contradiction

theorem joined_insert {pieces : List Piece} {text : String} (texts : joinPieces pieces = .ok text)
    (before after : List Piece) (last : ActivePragmas) :
    joined (before ++ .text text :: after, last) = joined (before ++ pieces ++ after, last) := by
  simp only [joined, joinPieces_insert texts]

theorem joinPieces_middle_of_error {pieces : List Piece} {trouble : Trouble}
    (failed : joinPieces pieces = .error trouble) (before after : List Piece) :
    joinPieces (before ++ pieces ++ after) = .error .misuse := by
  unfold joinPieces at failed ⊢
  split at failed
  · contradiction
  · rename_i other
    refine if_neg fun texts => other ?_
    simp only [List.all_append, Bool.and_eq_true] at texts
    exact texts.1.2

theorem joined_middle_of_error {pieces : List Piece} {trouble : Trouble}
    (failed : joinPieces pieces = .error trouble) (before after : List Piece)
    (last : ActivePragmas) :
    joined (before ++ pieces ++ after, last) = misused (joined (after, last)) := by
  simp only [joined, misused, joinPieces_middle_of_error failed]
  cases later : joinPieces after with
  | ok text => rfl
  | error other =>
      cases joinPieces_eq_error later
      rfl

section

variable {setting : Setting} {levels : Nat} {scope : Scope} {before content : Tokens}
  {store : Store}

theorem renderWithin_three (setting : Setting) (levels : Nat) (scope : Scope)
    (before content after : Tokens) :
    renderWithin setting levels scope (before ++ content ++ after) = (do
      let first ← renderOpen setting levels scope before
      let second ← renderOpen setting levels { scope with active := first.2 } content
      let last ← renderOpen setting levels { scope with active := second.2 } after
      joined (first.1 ++ second.1 ++ last.1, last.2)) := by
  simp only [renderWithin_eq, renderOpen_append, bind_assoc, pure_bind]

theorem renderAround_spliced
    (spared : ∀ active middle, ¬ Stuck setting levels scope before content store active middle)
    (after : Tokens) :
    (renderAround setting levels (renderWithin setting levels · content) scope before after >>=
        joined) store =
      renderWithin setting levels scope (before ++ content ++ after) store := by
  simp only [renderWithin_three, renderAround, bind_assoc, pure_bind]
  cases begun : renderOpen setting levels scope before store with
  | error fault reached => rw [bind_of_error begun, bind_of_error begun]
  | ok first reached =>
      rw [bind_of_ok begun, bind_of_ok begun]
      simp only [renderWithin_eq, bind_assoc]
      cases run : renderOpen setting levels { scope with active := first.2 } content reached with
      | error fault middle => rw [bind_of_error run, bind_of_error run]
      | ok result middle =>
          rw [bind_of_ok run, bind_of_ok run]
          cases texts : joinPieces result.1 with
          | error trouble =>
              cases joinPieces_eq_error texts
              exact absurd ⟨first, reached, result.1, begun, run, texts⟩ (spared result.2 middle)
          | ok text =>
              have rendered : joined result = pure ⟨text, result.2⟩ := by
                simp only [joined, texts]
                rfl
              simp only [rendered, pure_bind, joined_insert texts]

theorem renderAround_stuck {active : ActivePragmas} {middle : Store}
    (stuck : Stuck setting levels scope before content store active middle) (after : Tokens) :
    (renderAround setting levels (renderWithin setting levels · content) scope before after >>=
        joined) store = .error (.trouble .misuse) middle ∧
      renderWithin setting levels scope (before ++ content ++ after) store =
        misused (renderWithin setting levels { scope with active } after) middle := by
  obtain ⟨first, reached, pieces, begun, run, failed⟩ := stuck
  simp only [renderWithin_three, renderAround, bind_assoc, pure_bind]
  rw [bind_of_ok begun, bind_of_ok begun]
  simp only [renderWithin_eq, bind_assoc]
  rw [bind_of_ok run, bind_of_ok run]
  have textless : joined (pieces, active) = throw (.trouble .misuse) := by
    simp only [joined, failed]
    rfl
  simp only [textless, joined_middle_of_error failed, misused, bind_assoc]
  exact ⟨rfl, trivial⟩

end

/-- A placeholder is as good as its content in its place, where no limit is set and no pragma
handles it: renderings of which one does not run out of levels end in the same way, with the
placeholder at one level more. If the content is rendered, but is no text, that shows at once behind
a placeholder, and in its place after what follows it. -/
theorem renderWithin_splice {setting : Setting} (free : setting.maxDepth = none)
    (placeholders : setting.Declines .placeholder) {scope : Scope}
    (knows : setting.Knows scope.active) (whole : scope.view.isScalar = false) (levels : Nat)
    (before content after : Tokens) (name : String) (store : Store) :
    let enclosed (levels : Nat) :=
      renderWithin setting levels scope (before ++ [.placeholder name content] ++ after) store
    let spliced := renderWithin setting levels scope (before ++ content ++ after) store
    ((∀ active middle, ¬ Stuck setting levels scope before content store active middle) →
      (outcome (enclosed levels) ≠ .error .endless → Agrees (enclosed levels) spliced) ∧
      (outcome spliced ≠ .error .endless → Agrees spliced (enclosed (levels + 1)))) ∧
    (∀ active middle, Stuck setting levels scope before content store active middle →
      Agrees (.error (.trouble .misuse) middle) (enclosed (levels + 1)) ∧
      spliced = misused (renderWithin setting levels { scope with active } after) middle) ∧
    (setting.WritesText →
      ∀ active middle, ¬ Stuck setting levels scope before content store active middle) := by
  intro enclosed spliced
  have split : before ++ [.placeholder name content] ++ after =
      before ++ .placeholder name content :: after := List.append_assoc ..
  have begins := placeholder_reaches free placeholders knows whole levels before after name content
    store store (.refl store)
  have ends := reaches_placeholder free placeholders knows whole levels before after name content
    store store (.refl store)
  rw [← split] at begins ends
  refine ⟨fun spared => ?_, fun active middle stuck => ?_, fun writes active middle stuck => ?_⟩
  · rw [renderAround_spliced spared] at begins ends
    exact ⟨begins, ends⟩
  · obtain ⟨failed, same⟩ := renderAround_stuck stuck after
    rw [failed] at ends
    exact ⟨ends (by simp), same⟩
  · obtain ⟨first, reached, pieces, _, run, failed⟩ := stuck
    have all := renderOpen_writes writes levels _ content reached _ middle run
    simp only [joinPieces, if_pos all] at failed
    contradiction

/-- A placeholder in a placeholder makes the iterator known to the variable behind both. -/
theorem renderWithin_splice_twice :
    let setting := lonely .html
    let scope : Scope := ⟨.mapping [(.text "it", .list [.text "<"])], .empty, .empty, 0⟩
    let content : Tokens :=
      [.placeholder "q" [.pragma "IMPLICIT-ITERATOR" ⟨[("iterator", "it")]⟩], .content "-"]
    let enclosed := renderWithin setting 3 scope
      ([.content "a"] ++ [.placeholder "p" content] ++ [.escaped "it"]) .fresh
    let spliced := renderWithin setting 3 scope
      ([.content "a"] ++ content ++ [.escaped "it"]) .fresh
    setting.maxDepth = none ∧ setting.Declines .placeholder ∧ setting.Knows scope.active ∧
      Agrees enclosed spliced ∧ (outcome spliced).map (·.text) = .ok "a-['&lt;']" := by
  intro setting scope content enclosed spliced
  have declines : setting.Declines .placeholder := lonely_declines .html (by decide)
  have knows : setting.Knows scope.active := fun _ _ _ member => nomatch member
  have parts := renderWithin_splice rfl declines knows rfl 3 [.content "a"] content [.escaped "it"]
    "p" .fresh
  have spared (active : ActivePragmas) (middle : Store) :
      ¬ Stuck setting 3 scope [.content "a"] content .fresh active middle := by
    rintro ⟨first, reached, pieces, begun, run, failed⟩
    cases begun
    cases run
    contradiction
  have ended : (outcome enclosed).map (·.text) = .ok "a-['&lt;']" := rfl
  have ends : outcome enclosed ≠ .error .endless := fun endless => by
    rw [endless] at ended
    cases ended
  exact ⟨rfl, declines, knows, (parts.1 spared).1 ends, rfl⟩

/-- A placeholder whose content comes to a number, and a template that nobody knows behind it. -/
theorem renderWithin_splice_number :
    let setting := lonely (.calling (.builtin .length))
    let scope : Scope := ⟨.mapping [(.text "x", .text "ab")], .empty, .empty, 0⟩
    setting.maxDepth = none ∧ setting.Declines .placeholder ∧ setting.Knows scope.active ∧
      scope.view.isScalar = false ∧
      outcome (renderWithin setting 2 scope
        ([] ++ [.placeholder "p" [.escaped "x"]] ++ [.partialNamed "missing"]) .fresh) =
          .error (.trouble .misuse) ∧
      outcome (renderWithin setting 2 scope
        ([] ++ [.escaped "x"] ++ [.partialNamed "missing"]) .fresh) =
          .error (.templateNotFound "missing") :=
  ⟨rfl, lonely_declines _ (by decide), fun _ _ _ member => (nomatch member), rfl, rfl, rfl⟩

end Logicless
