import Logicless.Pragma.ImplicitIterator
import Logicless.Proofs.Depth

namespace Logicless

mutual

/-- The pragmas that are active behind a token of a block. -/
def Token.activates (view : Value) (active : ActivePragmas) : Token → ActivePragmas
  | .pragma name options => active.insert name options
  | .placeholder _ content =>
      if view.isScalar then active else Tokens.activates view active content
  | _ => active

def Tokens.activates (view : Value) (active : ActivePragmas) : Tokens → ActivePragmas
  | [] => active
  | token :: rest => Tokens.activates view (token.activates view active) rest

end

/-- Whether no registered pragma is offered tokens of a kind. -/
def Setting.Declines (setting : Setting) (kind : Token.Kind) : Prop :=
  ∀ home, setting.home = some home →
    ∀ name pragma, home.pragmas.get? name = some pragma → kind ∉ pragma.kinds

/-- Whether the escaper and all registered pragmas give texts, if anything. -/
def Setting.WritesText (setting : Setting) : Prop :=
  (∀ value piece, setting.escape value = .ok piece → piece.isJoinable = true) ∧
    ∀ home, setting.home = some home →
      ∀ name pragma, home.pragmas.get? name = some pragma →
        ∀ offer, (pragma.render offer).Gives fun piece => piece.isJoinable = true

/-- The end of a block: its pieces become its text. -/
def joined (result : List Piece × ActivePragmas) : Action Rendered := do
  let text ← Action.ofView (joinPieces result.1)
  return ⟨text, result.2⟩

/-- A block up to its end, where its pieces have not been joined yet. -/
def renderOpen (setting : Setting) :
    Nat → Scope → Tokens → Action (List Piece × ActivePragmas)
  | 0, _, _ => throw .endless
  | levels + 1, scope, tokens =>
      match setting.exceeds scope.depth with
      | some limit => throw (.tooDeep limit)
      | none => do
          Action.enter scope.depth
          renderPieces setting (renderWithin setting levels) scope tokens

theorem renderWithin_eq (setting : Setting) (levels : Nat) (scope : Scope) (tokens : Tokens) :
    renderWithin setting levels scope tokens =
      renderOpen setting levels scope tokens >>= joined := by
  cases levels with
  | zero => rfl
  | succ levels =>
      simp only [renderWithin, renderOpen]
      cases setting.exceeds scope.depth <;> rfl

theorem renderOpen_begun {setting : Setting} {scope : Scope}
    (allowed : setting.exceeds scope.depth = none) (levels : Nat) (tokens : Tokens)
    (store : Store) :
    renderOpen setting (levels + 1) scope tokens store =
      renderPieces setting (renderWithin setting levels) scope tokens
        { store with deepest := max store.deepest scope.depth } := by
  simp only [renderOpen, allowed]
  rfl

/-- What holds of the results of a computation. -/
def Ensures {α : Type} (holds : α → Prop) (action : Action α) : Prop :=
  ∀ store result after, action store = .ok result after → holds result

namespace Ensures

variable {α β : Type} {holds : α → Prop}

theorem pure {result : α} (here : holds result) : Ensures holds (Pure.pure result) := by
  intro store same after run
  cases run
  exact here

theorem throw {fault : Fault} : Ensures holds (MonadExcept.throw fault : Action α) :=
  fun _ _ _ run => nomatch run

theorem andThen {first : Action β} {next : β → Action α} {middle : β → Prop}
    (begun : Ensures middle first)
    (continued : ∀ result, middle result → Ensures holds (next result)) :
    Ensures holds (first >>= next) := by
  intro store result after run
  cases begins : first store with
  | error fault state =>
      rw [bind_of_error begins] at run
      cases run
  | ok given state =>
      rw [bind_of_ok begins] at run
      exact continued given (begun store given state begins) state result after run

theorem ofView {result : Except Trouble α} (here : ∀ value, result = .ok value → holds value) :
    Ensures holds (Action.ofView result) := by
  cases result with
  | ok value => exact .pure (here value rfl)
  | error trouble => exact .throw

theorem any (action : Action α) : Ensures (fun _ => True) action := fun _ _ _ _ => trivial

theorem run {holds : Piece → Prop} (library : Library) :
    {handling : Handling} → handling.Gives holds → Ensures holds (handling.run library)
  | .gives _, here => .pure here
  | .raises _, _ => .throw
  | .tokenizes _ _ _, here => .andThen (.any _) fun tokens _ => run library (here tokens)

end Ensures

theorem offerTo_declined {home : Home} {kind : Token.Kind}
    (declines : ∀ name pragma, home.pragmas.get? name = some pragma → kind ∉ pragma.kinds)
    (payload : Payload) (view : Value) (active : List (String × Options)) :
    Ensures (· = none) (offerTo home kind payload view active) := by
  induction active with
  | nil => exact .pure rfl
  | cons entry rest ih =>
      obtain ⟨name, options⟩ := entry
      simp only [offerTo]
      cases known : home.pragmas.get? name with
      | none => exact .throw
      | some pragma =>
          have unhandled : ¬ pragma.kinds.contains kind = true := by
            simpa using declines name pragma known
          simp only [if_neg unhandled]
          exact ih

theorem offer_declined {setting : Setting} {kind : Token.Kind} (declines : setting.Declines kind)
    (active : ActivePragmas) (payload : Payload) (view : Value) :
    Ensures (· = none) (setting.offer active kind payload view) := by
  unfold Setting.offer
  split
  · exact .pure rfl
  · rename_i home known
    exact offerTo_declined (declines home known) payload view active.entries

theorem activate_inserts (setting : Setting) (scope : Scope) (name : String) (options : Options) :
    Ensures (· = scope.active.insert name options) (activate setting scope name options) := by
  have activated : Ensures (· = scope.active.insert name options) (do
      Action.report (.activated name options)
      pure (scope.active.insert name options)) :=
    .andThen (.any _) fun _ _ => .pure rfl
  unfold activate
  extract_lets known
  cases known with
  | true => exact activated
  | false =>
      exact .andThen (.throw : Ensures (fun _ => False) _) fun _ impossible => impossible.elim

section

variable {setting : Setting} (pragmas : setting.Declines .pragma)
  (placeholders : setting.Declines .placeholder)

include pragmas placeholders

section

variable {block : BlockRenderer}
  (nested : ∀ scope tokens, Ensures
    (fun rendered => rendered.active = Tokens.activates scope.view scope.active tokens)
    (block scope tokens))

include nested

omit pragmas placeholders in
theorem renderPlain_activates (scope : Scope) (token : Token) :
    Ensures (fun written => written.active = token.activates scope.view scope.active)
      (renderPlain setting block scope token) := by
  have keep (text : Action String) :
      Ensures (fun written => written.active = scope.active) (renderPlain.keep scope text) :=
    .andThen (.any text) fun _ _ => .pure rfl
  cases token with
  | content text => exact .pure rfl
  | escaped name => exact .andThen (.any _) fun _ _ => .pure rfl
  | unescaped name => exact keep _
  | block name content template => exact keep _
  | inverted name content => exact keep _
  | placeholder name content =>
      simp only [renderPlain, Token.activates]
      cases loop : scope.view.isScalar with
      | true =>
          simp only [Scope.inLoop, loop, if_true]
          exact .pure rfl
      | false =>
          simp only [Scope.inLoop, loop, Bool.false_eq_true, if_false]
          exact .andThen (nested _ content) fun rendered active => .pure active
  | partialNamed name => exact keep _
  | partialKnown tokens => exact keep _
  | pragma name options =>
      exact .andThen (activate_inserts setting scope name options) fun active same => .pure same
  | delimiters opening closing => exact .pure rfl
  | comment text => exact .pure rfl

theorem renderToken_activates (scope : Scope) (token : Token) :
    Ensures (fun written => written.active = token.activates scope.view scope.active)
      (renderToken setting block scope token) := by
  -- a token that activates something is not handed to pragmas
  have offered : Ensures
      (fun offered => offered = none ∨ token.activates scope.view scope.active = scope.active)
      (setting.offer scope.active token.kind token.payload scope.view) := by
    intro store result after run
    cases token with
    | placeholder => exact .inl (offer_declined placeholders _ _ _ store result after run)
    | pragma => exact .inl (offer_declined pragmas _ _ _ store result after run)
    | _ => exact .inr rfl
  refine .andThen offered fun offered unchanged => ?_
  cases offered with
  | some piece => exact .pure (unchanged.resolve_left (by simp)).symm
  | none => exact renderPlain_activates nested scope token

theorem renderPieces_activates (scope : Scope) (tokens : Tokens) :
    Ensures (fun result => result.2 = Tokens.activates scope.view scope.active tokens)
      (renderPieces setting block scope tokens) := by
  induction tokens generalizing scope with
  | nil => exact .pure rfl
  | cons token rest ih =>
      have first := renderToken_activates pragmas placeholders nested scope token
      refine .andThen first fun written active => ?_
      refine .andThen (ih { scope with active := written.active }) fun result later => .pure ?_
      rw [Tokens.activates, ← active]
      exact later

end

theorem renderOpen_activates (levels : Nat) (scope : Scope) (tokens : Tokens) :
    Ensures (fun result => result.2 = Tokens.activates scope.view scope.active tokens)
      (renderOpen setting levels scope tokens) := by
  induction levels generalizing scope tokens with
  | zero => exact .throw
  | succ levels ih =>
      have nested (inner : Scope) (content : Tokens) :
          Ensures (fun rendered =>
              rendered.active = Tokens.activates inner.view inner.active content)
            (renderWithin setting levels inner content) := by
        rw [renderWithin_eq]
        refine .andThen (ih inner content) fun result active => ?_
        exact .andThen (.any _) fun text _ => .pure active
      cases allowed : setting.exceeds scope.depth with
      | some limit =>
          rw [renderOpen, allowed]
          exact .throw
      | none =>
          rw [renderOpen, allowed]
          refine .andThen (.any _) fun _ _ => ?_
          exact renderPieces_activates pragmas placeholders nested scope tokens

end

section

variable {setting : Setting} (writes : setting.WritesText)

include writes

theorem offer_writes (active : ActivePragmas) (kind : Token.Kind) (payload : Payload)
    (view : Value) :
    Ensures (fun offered => ∀ piece ∈ offered, piece.isJoinable = true)
      (setting.offer active kind payload view) := by
  unfold Setting.offer
  split
  · exact .pure (by simp)
  · rename_i home known
    generalize active.entries = entries
    induction entries with
    | nil => exact .pure (by simp)
    | cons entry rest ih =>
        obtain ⟨name, options⟩ := entry
        simp only [offerTo]
        split
        · exact .throw
        · rename_i pragma registered
          split
          · refine .andThen (.any _) fun now _ => ?_
            have given := writes.2 home known name pragma registered
              ⟨kind, payload, now, options, some home.escape⟩
            refine .andThen (.run home.library given) fun piece joinable => ?_
            split
            · exact .pure (by simpa using joinable)
            · exact ih
          · exact ih

theorem renderEscaped_writes (scope : Scope) (name : String) :
    Ensures (fun piece => piece.isJoinable = true) (renderEscaped setting scope name) := by
  refine .andThen (.any _) fun value _ => ?_
  split
  · split
    · exact .pure rfl
    · split
      · exact .pure rfl
      · exact .ofView fun piece given => writes.1 _ piece given
  · refine .andThen (offer_writes writes _ _ _ _) fun handled joinable => .pure ?_
    cases handled with
    | none => rfl
    | some piece => exact joinable piece rfl

theorem renderToken_writes (block : BlockRenderer) (scope : Scope) (token : Token) :
    Ensures (fun written => written.piece.isJoinable = true)
      (renderToken setting block scope token) := by
  have keep (text : Action String) :
      Ensures (fun written => written.piece.isJoinable = true) (renderPlain.keep scope text) :=
    .andThen (.any text) fun _ _ => .pure rfl
  refine .andThen (offer_writes writes _ _ _ _) fun offered joinable => ?_
  cases offered with
  | some piece => exact .pure (joinable piece rfl)
  | none =>
      cases token with
      | content text => exact .pure rfl
      | escaped name =>
          exact .andThen (renderEscaped_writes writes scope name) fun piece given => .pure given
      | unescaped name => exact keep _
      | block name content template => exact keep _
      | inverted name content => exact keep _
      | placeholder name content =>
          simp only [renderPlain]
          split
          · exact .pure rfl
          · exact .andThen (.any _) fun rendered _ => .pure rfl
      | partialNamed name => exact keep _
      | partialKnown tokens => exact keep _
      | pragma name options => exact .andThen (.any _) fun active _ => .pure rfl
      | delimiters opening closing => exact .pure rfl
      | comment text => exact .pure rfl

theorem renderPieces_writes (block : BlockRenderer) (scope : Scope) (tokens : Tokens) :
    Ensures (fun result => result.1.all Value.isJoinable = true)
      (renderPieces setting block scope tokens) := by
  induction tokens generalizing scope with
  | nil => exact .pure rfl
  | cons token rest ih =>
      refine .andThen (renderToken_writes writes block scope token) fun first here => ?_
      refine .andThen (ih { scope with active := first.active }) fun others later => .pure ?_
      simp only [List.all_cons, here, later, Bool.and_self]

end

theorem renderPieces_append (setting : Setting) (block : BlockRenderer) (scope : Scope)
    (before after : Tokens) :
    renderPieces setting block scope (before ++ after) = (do
      let first ← renderPieces setting block scope before
      let second ← renderPieces setting block { scope with active := first.2 } after
      return (first.1 ++ second.1, second.2)) := by
  induction before generalizing scope with
  | nil =>
      simp only [List.nil_append, renderPieces, pure_bind]
      exact (bind_pure _).symm
  | cons token rest ih => simp only [List.cons_append, renderPieces, ih, bind_assoc, pure_bind]

theorem renderOpen_deepest {setting : Setting} {scope : Scope}
    (allowed : setting.exceeds scope.depth = none) (levels : Nat) (tokens : Tokens)
    (store : Store) :
    scope.depth ≤ (final (renderOpen setting (levels + 1) scope tokens store)).deepest := by
  have rises : Rises _ (renderPieces setting (renderWithin setting levels) scope tokens)
      (renderPieces setting (renderWithin setting levels) scope tokens) :=
    renderPieces_related congruence_rises
      (.ofFlat congruence_rises (fun _ flat => flat.rises) rfl rfl) tokens
      fun inner tokens _ => renderWithin_rises setting levels inner tokens
  rw [renderOpen_begun allowed]
  exact Nat.le_trans (Nat.le_max_right _ _)
    (rises { store with deepest := max store.deepest scope.depth })

theorem renderOpen_append (setting : Setting) (levels : Nat) (scope : Scope)
    (before after : Tokens) :
    renderOpen setting levels scope (before ++ after) = (do
      let first ← renderOpen setting levels scope before
      let second ← renderOpen setting levels { scope with active := first.2 } after
      return (first.1 ++ second.1, second.2)) := by
  funext store
  cases levels with
  | zero => rfl
  | succ levels =>
      cases allowed : setting.exceeds scope.depth with
      | some limit =>
          simp only [renderOpen, allowed]
          rfl
      | none =>
          have deep := renderOpen_deepest allowed levels before store
          have begun := renderOpen_begun allowed levels before store
          rw [renderOpen_begun allowed, renderPieces_append]
          cases run : renderOpen setting (levels + 1) scope before store with
          | error fault middle => rw [bind_of_error run, bind_of_error (begun.symm.trans run)]
          | ok first middle =>
              rw [bind_of_ok run, bind_of_ok (begun.symm.trans run)]
              -- where the first tokens end, this depth has been measured
              rw [run, final_ok] at deep
              have again := @renderOpen_begun setting { scope with active := first.2 } allowed levels
                after middle
              simp only [Nat.max_eq_left deep] at again
              exact (bind_of_eq again).symm

theorem joinPieces_append {pieces : List Piece} {text : String}
    (joined : joinPieces pieces = .ok text) (others : List Piece) :
    joinPieces (pieces ++ others) = (joinPieces others).map (text ++ ·) := by
  unfold joinPieces at joined ⊢
  split at joined
  · rename_i texts
    cases joined
    simp only [List.all_append, texts, Bool.true_and, List.map_append, String.join_append]
    split <;> rfl
  · contradiction

theorem joinPieces_eq_error {pieces : List Piece} {trouble : Trouble}
    (failed : joinPieces pieces = .error trouble) : trouble = .misuse := by
  unfold joinPieces at failed
  split at failed
  · contradiction
  · exact (Except.error.inj failed).symm

theorem joinPieces_append_of_error {pieces : List Piece} {trouble : Trouble}
    (failed : joinPieces pieces = .error trouble) (others : List Piece) :
    joinPieces (pieces ++ others) = .error .misuse := by
  unfold joinPieces at failed ⊢
  split at failed
  · contradiction
  · rename_i other
    refine if_neg fun texts => other ?_
    simp only [List.all_append, Bool.and_eq_true] at texts
    exact texts.1

/-- A block behind a rendered one. -/
def Rendered.before (first : Rendered) (second : Action Rendered) : Action Rendered := do
  let rendered ← second
  return ⟨first.text ++ rendered.text, rendered.active⟩

/-- A block behind one that has no text. -/
def misused (second : Action Rendered) : Action Rendered := do
  let _ ← second
  throw (.trouble .misuse)

theorem joined_append {pieces : List Piece} {text : String} (texts : joinPieces pieces = .ok text)
    (active : ActivePragmas) (others : List Piece) (last : ActivePragmas) :
    joined (pieces ++ others, last) = Rendered.before ⟨text, active⟩ (joined (others, last)) := by
  simp only [joined, Rendered.before, joinPieces_append texts, bind_assoc, pure_bind]
  cases joinPieces others <;> rfl

theorem joined_append_of_error {pieces : List Piece} {trouble : Trouble}
    (failed : joinPieces pieces = .error trouble) (others : List Piece) (last : ActivePragmas) :
    joined (pieces ++ others, last) = misused (joined (others, last)) := by
  simp only [joined, misused, joinPieces_append_of_error failed]
  cases later : joinPieces others with
  | ok text => rfl
  | error other =>
      cases joinPieces_eq_error later
      rfl

/-- Whether all tokens of a block are rendered, but not all pieces are texts. -/
def Textless (setting : Setting) (levels : Nat) (scope : Scope) (tokens : Tokens)
    (store : Store) : Prop :=
  ∃ result middle, renderOpen setting levels scope tokens store = .ok result middle ∧
    joinPieces result.1 = .error .misuse

theorem renderOpen_writes {setting : Setting} (writes : setting.WritesText) (levels : Nat)
    (scope : Scope) (tokens : Tokens) :
    Ensures (fun result => result.1.all Value.isJoinable = true)
      (renderOpen setting levels scope tokens) := by
  cases levels with
  | zero => exact .throw
  | succ levels =>
      cases allowed : setting.exceeds scope.depth with
      | some limit =>
          rw [renderOpen, allowed]
          exact .throw
      | none =>
          rw [renderOpen, allowed]
          exact .andThen (.any _) fun _ _ => renderPieces_writes writes _ scope tokens

/-- Rendering tokens, and then others with the pragmas that are active behind the first. -/
def renderInTurn (setting : Setting) (levels : Nat) (scope : Scope) (before after : Tokens) :
    Action Rendered := do
  let first ← renderWithin setting levels scope before
  first.before (renderWithin setting levels
    { scope with active := Tokens.activates scope.view scope.active before } after)

section

variable {setting : Setting} (pragmas : setting.Declines .pragma)
  (placeholders : setting.Declines .placeholder) {levels : Nat} {scope : Scope} {before : Tokens}
  {store middle : Store}

theorem renderWithin_append_of_error {fault : Fault}
    (run : renderOpen setting levels scope before store = .error fault middle) (after : Tokens) :
    renderWithin setting levels scope before store = .error fault middle ∧
      renderWithin setting levels scope (before ++ after) store = .error fault middle := by
  rw [renderWithin_eq, renderWithin_eq, renderOpen_append, bind_assoc]
  exact ⟨bind_of_error run, bind_of_error run⟩

include pragmas placeholders

theorem renderWithin_append_of_ok {result : List Piece × ActivePragmas}
    (run : renderOpen setting levels scope before store = .ok result middle) (after : Tokens) :
    renderWithin setting levels scope before store = joined result middle ∧
      renderWithin setting levels scope (before ++ after) store = (do
        let other ← renderOpen setting levels
          { scope with active := Tokens.activates scope.view scope.active before } after
        joined (result.1 ++ other.1, other.2)) middle := by
  have reached := renderOpen_activates pragmas placeholders levels scope before store _ middle run
  rw [renderWithin_eq, renderWithin_eq, renderOpen_append, bind_assoc, ← reached]
  refine ⟨bind_of_ok run, (bind_of_ok run).trans ?_⟩
  simp only [bind_assoc, pure_bind]

end

/-- Tokens that follow one another are rendered in turn, each with the pragmas that are active at
it. Only where the first come to something that is no text, the others are rendered before that
shows, and their error counts. All blocks that a token opens begin with the pragmas that are
active at the token, and that of a partial with none. -/
theorem renderWithin_append {setting : Setting} (pragmas : setting.Declines .pragma)
    (placeholders : setting.Declines .placeholder) (levels : Nat) (scope : Scope)
    (before after : Tokens) (store : Store) :
    let first := renderWithin setting levels scope before
    let second := renderWithin setting levels
      { scope with active := Tokens.activates scope.view scope.active before } after
    let whole := renderWithin setting levels scope (before ++ after)
    (¬ Textless setting levels scope before store →
      whole store = renderInTurn setting levels scope before after store) ∧
    (Textless setting levels scope before store →
      ∃ middle, first store = .error (.trouble .misuse) middle ∧
        whole store = misused second middle) ∧
    (setting.WritesText → ¬ Textless setting levels scope before store) ∧
    ∀ (block other : BlockRenderer) (token : Token),
      (∀ inner tokens, inner.active = (if token.kind = .partials then .empty else scope.active) →
        block inner tokens = other inner tokens) →
      renderToken setting block scope token = renderToken setting other scope token := by
  intro first second whole
  refine ⟨fun spared => ?_, fun textless => ?_, fun writes textless => ?_, ?_⟩
  · have turns : renderInTurn setting levels scope before after =
        first >>= fun rendered => rendered.before second := rfl
    cases run : renderOpen setting levels scope before store with
    | error fault middle =>
        obtain ⟨failed, same⟩ := renderWithin_append_of_error run after
        exact same.trans (bind_of_error failed).symm
    | ok result middle =>
        obtain ⟨ended, same⟩ := renderWithin_append_of_ok pragmas placeholders run after
        cases texts : joinPieces result.1 with
        | error trouble =>
            cases joinPieces_eq_error texts
            exact absurd ⟨result, middle, run, texts⟩ spared
        | ok text =>
            have rendered : first store = .ok ⟨text, result.2⟩ middle := by
              refine ended.trans ?_
              simp only [joined, texts]
              rfl
            rw [turns, bind_of_ok rendered]
            refine same.trans ?_
            simp only [joined_append texts result.2, Rendered.before, second, renderWithin_eq,
              bind_assoc]
  · obtain ⟨result, middle, run, failed⟩ := textless
    obtain ⟨ended, same⟩ := renderWithin_append_of_ok pragmas placeholders run after
    refine ⟨middle, ended.trans ?_, same.trans ?_⟩
    · simp only [joined, failed]
      rfl
    · simp only [joined_append_of_error failed, misused, second, renderWithin_eq, bind_assoc]
  · obtain ⟨result, middle, run, failed⟩ := textless
    have all := renderOpen_writes writes levels scope before store result middle run
    simp only [joinPieces, if_pos all] at failed
    contradiction
  · intro block other token same
    refine renderToken_related congruence_eq ?_ token fun inner tokens opens =>
      same inner tokens opens.active_eq
    exact .ofSame congruence_eq rfl rfl (fun _ _ _ => rfl) fun _ _ => rfl

/-- The standard pragmas and no templates. -/
def lonely (escape : Escaper) : Setting where
  home := some ⟨.standard, ⟨fun _ => .absent, 1000⟩, escape⟩
  escape := escape
  maxDepth := none

theorem lonely_declines (escape : Escaper) {kind : Token.Kind} (other : kind ≠ .escaped) :
    (lonely escape).Declines kind := by
  intro home known name pragma registered
  cases known
  simp only [Registry.standard, Registry.register, Table.get?, Table.insert, Table.empty,
    Table.putEntry, Table.findEntry] at registered
  split at registered
  · cases registered
    simpa [ImplicitIterator.pragma] using other
  · contradiction

/-- A placeholder makes the iterator known to the variable behind it, whose list is then escaped. -/
theorem renderWithin_append_placeholder :
    let setting := lonely .html
    let scope : Scope := ⟨.mapping [(.text "it", .list [.text "<"])], .empty, .empty, 0⟩
    let before : Tokens :=
      [.placeholder "p" [.pragma "IMPLICIT-ITERATOR" ⟨[("iterator", "it")]⟩]]
    let whole := renderWithin setting 2 scope (before ++ [.escaped "it"]) .fresh
    whole = renderInTurn setting 2 scope before [.escaped "it"] .fresh ∧
      (outcome whole).map (·.text) = .ok "['&lt;']" := by
  intro setting scope before whole
  have spared : ¬ Textless setting 2 scope before .fresh := by
    rintro ⟨result, middle, run, failed⟩
    cases run
    contradiction
  have parts := renderWithin_append (lonely_declines .html (by decide))
    (lonely_declines .html (by decide)) 2 scope before [.escaped "it"] .fresh
  exact ⟨parts.1 spared, rfl⟩

/-- An escaper that gives a number, and a template that nobody knows behind it: that the block has
no text would have shown first if its tokens had been rendered one after the other. -/
theorem renderWithin_append_number :
    let setting := lonely (.calling (.builtin .length))
    let scope : Scope := ⟨.mapping [(.text "x", .text "ab")], .empty, .empty, 0⟩
    setting.Declines .pragma ∧ setting.Declines .placeholder ∧
      outcome (renderWithin setting 2 scope ([.escaped "x"] ++ [.partialNamed "missing"]) .fresh) =
        .error (.templateNotFound "missing") ∧
      outcome (renderInTurn setting 2 scope [.escaped "x"] [.partialNamed "missing"] .fresh) =
        .error (.trouble .misuse) :=
  ⟨lonely_declines _ (by decide), lonely_declines _ (by decide), rfl, rfl⟩

end Logicless
