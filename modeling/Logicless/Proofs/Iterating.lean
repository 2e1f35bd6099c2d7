import Logicless.Pragma.ImplicitIterator
import Logicless.Proofs.Declining
import Logicless.Proofs.Depth
import Logicless.Proofs.Paths
import Logicless.Proofs.Views

namespace Logicless

section

variable {setting : Setting} {home : Home} {name : String} {pragma : Pragma}
  (managed : setting.home = some home) (registered : home.pragmas.get? name = some pragma)

include managed registered

theorem offer_alone (options : Options) (kind : Token.Kind) (payload : Payload) (view : Value) :
    setting.offer ⟨[(name, options)]⟩ kind payload view =
      if pragma.kinds.contains kind then do
        let now ← look view
        let piece ← (pragma.render ⟨kind, payload, now, options, some home.escape⟩).run home.library
        return if piece.truthy then some piece else none
      else pure none := by
  simp only [Setting.offer, managed, offerTo, registered]
  split
  · refine bind_congr fun now => bind_congr fun piece => ?_
    split <;> rfl
  · rfl

end

namespace ImplicitIterator

/-- The pragma active and no other one. -/
def alone (options : Options) : ActivePragmas := ⟨[(ImplicitIterator.name, options)]⟩

theorem marker_of_option {options : Options} {marker : String}
    (named : options.get? "iterator" = some marker) (spelled : marker ≠ "") :
    ImplicitIterator.marker options = marker := by
  simp [ImplicitIterator.marker, named, spelled]

/-- What stands for a value. -/
def shown (escape : Escaper) (value : Value) : Except Trouble Value :=
  if isSilent value then .ok .null else escape value

theorem render_other {offer : Offer} {name : String} (payload : offer.payload = .text name)
    (other : name ≠ marker offer.options) : ImplicitIterator.render offer = .ok .null := by
  simp only [ImplicitIterator.render, payload, if_neg other]

theorem render_current {offer : Offer} {value : Value}
    (payload : offer.payload = .text (marker offer.options))
    (known : current (marker offer.options) offer.view = .ok (some value)) :
    ImplicitIterator.render offer = shown (offer.escape.getD Escaper.html) value := by
  simp only [ImplicitIterator.render, payload, if_true, known, shown]
  cases value with
  | bool b => cases b <;> rfl
  | _ => rfl

theorem render_absent {offer : Offer} {name : String} (payload : offer.payload = .text name)
    (absent : current (marker offer.options) offer.view = .ok none) :
    ImplicitIterator.render offer = .ok .null := by
  simp only [ImplicitIterator.render, payload, absent]
  split <;> rfl

theorem current_of_isScalar (marker : String) {view : Value} (scalar : view.isScalar = true) :
    current marker view = .ok (some view) := by
  simp only [current, scalar, if_true]

end ImplicitIterator

/-- A piece as it is joined with others. -/
def Value.asJoined (piece : Piece) : Piece :=
  if piece.isJoinable then .text (pieceText piece) else piece

theorem asJoined_of_not_truthy {piece : Piece} (empty : piece.truthy = false) :
    piece.asJoined = .text "" := by
  cases piece with
  | text s =>
      have none : s = "" := by simpa [Value.truthy] using empty
      subst none
      rfl
  | _ => simp [Value.asJoined, Value.isJoinable, empty, pieceText]

theorem joinPieces_asJoined (pieces : List Piece) :
    joinPieces (pieces.map Value.asJoined) = joinPieces pieces := by
  have joinable (piece : Piece) : Value.isJoinable piece.asJoined = Value.isJoinable piece := by
    unfold Value.asJoined
    split <;> simp_all [Value.isJoinable]
  have text (piece : Piece) : pieceText piece.asJoined = pieceText piece := by
    unfold Value.asJoined
    split <;> rfl
  simp [joinPieces, Function.comp_def, joinable, text]

theorem bind_joinPieces (pieces : Except Trouble (List Piece)) :
    pieces >>= joinPieces = pieces.map (List.map Value.asJoined) >>= joinPieces := by
  cases pieces with
  | error trouble => rfl
  | ok pieces => exact (joinPieces_asJoined pieces).symm

theorem ofView_bind {α β : Type} (first : Except Trouble α) (next : α → Except Trouble β) :
    Action.ofView (first >>= next) =
      (Action.ofView first >>= fun result => Action.ofView (next result)) := by
  cases first <;> rfl

/-- A token that is written as a piece is, and that leaves the pragmas active that were. -/
def WrittenAs (expected : Except Trouble Piece) (active : ActivePragmas)
    (action : Action Written) : Prop :=
  ∃ result : Except Trouble Piece, action = (do
      let piece ← Action.ofView result
      return ⟨piece, active⟩) ∧
    result.map Value.asJoined = expected.map Value.asJoined

theorem WrittenAs.piece (piece : Piece) (active : ActivePragmas) :
    WrittenAs (.ok piece) active (pure ⟨piece, active⟩) := ⟨.ok piece, rfl, rfl⟩

/-- The empty text is written as nothing at all. -/
theorem WrittenAs.empty (active : ActivePragmas) :
    WrittenAs (.ok .null) active (pure ⟨.text "", active⟩) := ⟨.ok (.text ""), rfl, rfl⟩

theorem joined_cons {first expected : Except Trouble Piece}
    (same : first.map Value.asJoined = expected.map Value.asJoined)
    {others rest : Except Trouble (List Piece)}
    (alike : others.map (List.map Value.asJoined) = rest.map (List.map Value.asJoined)) :
    (do return (← first) :: (← others)).map (List.map Value.asJoined) =
      (do return (← expected) :: (← rest)).map (List.map Value.asJoined) := by
  cases first <;> cases expected <;> cases others <;> cases rest <;>
    simp_all [Except.map, bind, Except.bind, pure, Except.pure]

section

variable {setting : Setting} {block : BlockRenderer} {scope : Scope} {tokens : Tokens}
  {piece : Token → Except Trouble Piece}
  (each : ∀ token ∈ tokens,
    WrittenAs (piece token) scope.active (renderToken setting block scope token))

include each

theorem renderPieces_still :
    ∃ result : Except Trouble (List Piece), renderPieces setting block scope tokens = (do
        let pieces ← Action.ofView result
        return (pieces, scope.active)) ∧
      result.map (List.map Value.asJoined) =
        (tokens.mapM piece).map (List.map Value.asJoined) := by
  induction tokens with
  | nil => exact ⟨.ok [], rfl, rfl⟩
  | cons token rest ih =>
      rw [List.forall_mem_cons] at each
      obtain ⟨⟨first, begun, same⟩, each⟩ := each
      obtain ⟨others, later, alike⟩ := ih each
      refine ⟨do return (← first) :: (← others), ?_, ?_⟩
      · simp only [renderPieces, begun, bind_assoc, pure_bind, later]
        cases first with
        | error trouble => rfl
        | ok piece => cases others <;> rfl
      · rw [List.mapM_cons]
        exact joined_cons same alike

/-- Tokens that are each written as a piece is are written as the pieces are together. -/
theorem renderTokens_still :
    renderTokens setting block scope tokens = (do
      let text ← Action.ofView (tokens.mapM piece >>= joinPieces)
      return ⟨text, scope.active⟩) := by
  obtain ⟨result, written, alike⟩ := renderPieces_still each
  have joined : result >>= joinPieces = tokens.mapM piece >>= joinPieces := by
    rw [bind_joinPieces, alike, ← bind_joinPieces]
  simp only [renderTokens, written, bind_assoc, pure_bind, ← joined, ofView_bind]

end

theorem joinPieces_text (text : String) : joinPieces [.text text] = .ok text := by
  simp [joinPieces, Value.isJoinable, pieceText, String.join]

/-- A block of one token is what the token is written as. -/
theorem renderTokens_single (setting : Setting) (block : BlockRenderer) (scope : Scope)
    (token : Token) :
    renderTokens setting block scope [token] = (do
      let written ← renderToken setting block scope token
      let text ← Action.ofView (joinPieces [written.piece])
      return ⟨text, written.active⟩) := by
  simp only [renderTokens, renderPieces, bind_assoc, pure_bind]

/-- What a token in the body of a loop is written as. -/
def itemPiece (marker : String) (escape : Escaper) (item : Value) : Token → Except Trouble Piece
  | .content text => .ok (.text text)
  | .escaped name => if name = marker ∧ isSilent item = false then escape item else .ok .null
  | _ => .ok .null

/-- What the body of a loop is written as. -/
def itemText (marker : String) (escape : Escaper) (body : Tokens) (item : Value) :
    Except Trouble String := do
  joinPieces (← body.mapM (itemPiece marker escape item))

theorem find_inLoop {view : Value} (scalar : view.isScalar = true) (name : String) :
    find view name = pure (.text "") := by
  have nothing : view.lookup name = .ok .nothing :=
    Value.lookupSteps_of_isClosed (Value.isClosed_of_isScalar scalar) (Value.steps_ne_nil name)
  funext store
  exact find_present (Value.isFixed_of_isScalar scalar) nothing store

section

variable {setting : Setting} {home : Home} (managed : setting.home = some home)
  (registered : home.pragmas.get? ImplicitIterator.name = some ImplicitIterator.pragma)

include managed registered

theorem offer_iterating_plain (options : Options) {kind : Token.Kind} (plain : kind ≠ .escaped)
    (payload : Payload) (view : Value) :
    setting.offer (ImplicitIterator.alone options) kind payload view = pure none := by
  have unhandled : ImplicitIterator.pragma.kinds.contains kind = false := by
    simp [ImplicitIterator.pragma, plain]
  rw [ImplicitIterator.alone, offer_alone managed registered, unhandled]
  rfl

theorem offer_iterating (options : Options) (payload : Payload) (view : Value) :
    setting.offer (ImplicitIterator.alone options) .escaped payload view = (do
      let now ← look view
      let piece ← Action.ofView
        (ImplicitIterator.render ⟨.escaped, payload, now, options, some home.escape⟩)
      return if piece.truthy then some piece else none) := by
  have handled : ImplicitIterator.pragma.kinds.contains .escaped = true := rfl
  rw [ImplicitIterator.alone, offer_alone managed registered, if_pos handled]
  simp only [ImplicitIterator.pragma, Handling.run_ofView]

omit managed registered in
/-- Without the pragma only content is written where no name stands for anything. -/
theorem renderPlain_item {scope : Scope} (looping : scope.view.isScalar = true)
    (block : BlockRenderer) {token : Token} (silent : token.kind ≠ .content)
    (keeps : token.kind ≠ .pragma) :
    WrittenAs (.ok .null) scope.active (renderPlain setting block scope token) := by
  have loop : scope.inLoop = true := looping
  cases token with
  | content text => exact absurd rfl silent
  | escaped name =>
      simp only [renderPlain, renderEscaped, find_inLoop looping, pure_bind]
      exact .piece .null scope.active
  | unescaped name =>
      simp only [renderPlain, renderPlain.keep, renderUnescaped, find_inLoop looping, pure_bind]
      exact .empty scope.active
  | block name content template =>
      simp only [renderPlain, renderPlain.keep, renderBlock, loop, if_true]
      exact .empty scope.active
  | inverted name content =>
      simp only [renderPlain, renderPlain.keep, renderInverted, loop, if_true]
      exact .empty scope.active
  | placeholder name content =>
      simp only [renderPlain, loop, if_true]
      exact .piece .null scope.active
  | partialNamed name | partialKnown tokens =>
      simp only [renderPlain, renderPlain.keep, renderPartial, loop, if_true]
      exact .empty scope.active
  | pragma name options => exact absurd rfl keeps
  | delimiters opening closing | comment text => exact .piece .null scope.active

variable {scope : Scope} {options : Options}
  (iterating : scope.active = ImplicitIterator.alone options)
  (looping : scope.view.isScalar = true) (block : BlockRenderer)

include iterating looping

theorem renderToken_marker (name : String) :
    WrittenAs (itemPiece (ImplicitIterator.marker options) home.escape scope.view (.escaped name))
      scope.active (renderToken setting block scope (.escaped name)) := by
  have offered : ImplicitIterator.render
      ⟨.escaped, .text name, scope.view, options, some home.escape⟩ =
        itemPiece (ImplicitIterator.marker options) home.escape scope.view (.escaped name) := by
    by_cases here : name = ImplicitIterator.marker options
    · rw [ImplicitIterator.render_current (congrArg Payload.text here)
        (ImplicitIterator.current_of_isScalar _ looping)]
      cases silent : isSilent scope.view <;>
        simp [itemPiece, ImplicitIterator.shown, here, silent]
    · rw [ImplicitIterator.render_other rfl here]
      simp [itemPiece, here]
  obtain ⟨plain, written, nothing⟩ := @renderPlain_item setting scope looping block (.escaped name)
    (by simp [Token.kind]) (by simp [Token.kind])
  simp only [renderToken, Token.kind, Token.payload, iterating, offer_iterating managed registered,
    look_of_isFixed (Value.isFixed_of_isScalar looping), offered, bind_assoc, pure_bind]
  rw [← iterating]
  cases itemPiece (ImplicitIterator.marker options) home.escape scope.view (.escaped name) with
  | error trouble => exact ⟨.error trouble, rfl, rfl⟩
  | ok piece =>
      simp only [Action.ofView, pure_bind]
      cases truth : piece.truthy with
      | true => exact .piece piece scope.active
      | false =>
          refine ⟨plain, written, nothing.trans ?_⟩
          exact congrArg Except.ok (asJoined_of_not_truthy truth).symm

/-- In a loop a token is written from the item alone. -/
theorem renderToken_item {token : Token} (keeps : token.kind ≠ .pragma) :
    WrittenAs (itemPiece (ImplicitIterator.marker options) home.escape scope.view token)
      scope.active (renderToken setting block scope token) := by
  by_cases marked : token.kind = .escaped
  · cases token <;> cases marked
    exact renderToken_marker managed registered iterating looping block _
  · have declined :=
      offer_iterating_plain managed registered options marked token.payload scope.view
    simp only [renderToken, iterating, declined, pure_bind]
    rw [← iterating]
    by_cases content : token.kind = .content
    · cases token <;> cases content
      exact .piece _ scope.active
    · have unwritten : itemPiece (ImplicitIterator.marker options) home.escape scope.view token =
          .ok .null := by
        cases token <;> first | rfl | exact absurd rfl marked | exact absurd rfl content
      rw [unwritten]
      exact renderPlain_item looping block content keeps

/-- The body of a loop is written from its tokens and the item alone. -/
theorem renderTokens_item {body : Tokens} (keeps : ∀ token ∈ body, token.kind ≠ .pragma) :
    renderTokens setting block scope body = (do
      let text ← Action.ofView
        (itemText (ImplicitIterator.marker options) home.escape body scope.view)
      return ⟨text, scope.active⟩) :=
  renderTokens_still fun token member =>
    renderToken_item managed registered iterating looping block (keeps token member)

end

/-- A computation that ends in one way in every state, and that caches nothing. -/
def Amounts {α : Type} (result : Except Trouble α) (action : Action α) : Prop :=
  ∀ store, outcome (action store) = result.mapError .trouble ∧
    (final (action store)).cache = store.cache

namespace Amounts

variable {α β : Type} {result : Except Trouble α} {first : Action α}
  {later : α → Except Trouble β} {next : α → Action β}

theorem ofView (result : Except Trouble α) : Amounts result (Action.ofView result) := by
  intro store
  cases result <;> exact ⟨rfl, rfl⟩

theorem andThen (begins : Amounts result first)
    (continues : ∀ value, Amounts (later value) (next value)) :
    Amounts (result >>= later) (first >>= next) := by
  intro store
  obtain ⟨ended, kept⟩ := begins store
  cases result with
  | error trouble =>
      obtain ⟨after, run⟩ := error_of_outcome ended
      rw [run] at kept
      rw [bind_of_error run]
      exact ⟨rfl, kept⟩
  | ok value =>
      obtain ⟨after, run⟩ := ok_of_outcome ended
      rw [run] at kept
      rw [bind_of_ok run]
      obtain ⟨last, same⟩ := continues value after
      exact ⟨last, same.trans kept⟩

theorem entered (amounts : Amounts result first) (depth : Nat) :
    Amounts result (do
      Action.enter depth
      first) :=
  fun store => amounts { store with deepest := max store.deepest depth }

end Amounts

section

variable {setting : Setting} {home : Home} (managed : setting.home = some home)
  (registered : home.pragmas.get? ImplicitIterator.name = some ImplicitIterator.pragma)
  {scope : Scope} {options : Options}
  (iterating : scope.active = ImplicitIterator.alone options)
  {body : Tokens} (keeps : ∀ token ∈ body, token.kind ≠ .pragma)

include managed registered iterating keeps

theorem renderItems_amounts (allowed : setting.exceeds (scope.depth + 1) = none) (levels : Nat)
    {items : List Value} (scalars : ∀ item ∈ items, item.isScalar = true) :
    Amounts (items.mapM (itemText (ImplicitIterator.marker options) home.escape body))
      (renderItems (renderWithin setting (levels + 1)) scope body items) := by
  induction items with
  | nil => exact .ofView (.ok [])
  | cons item rest ih =>
      rw [List.forall_mem_cons] at scalars
      have written := @renderTokens_item setting home managed registered (scope.descend item)
        options iterating scalars.1 (renderWithin setting levels) body keeps
      have inner : setting.exceeds (scope.descend item).depth = none := allowed
      rw [List.mapM_cons, renderItems]
      simp only [renderWithin_entered inner, written, bind_assoc, pure_bind]
      refine Amounts.entered (Amounts.andThen (.ofView _) fun text => ?_) _
      exact Amounts.andThen (ih scalars.2) fun texts => .ofView (.ok (text :: texts))

/-- The section over a list goes through its items. -/
theorem renderBlock_amounts (allowed : setting.exceeds (scope.depth + 1) = none) (levels : Nat)
    {name : String} (whole : ¬ Value.IsDotted name) {items : List Value}
    (viewed : scope.view = .mapping [(.text name, .list items)])
    (scalars : ∀ item ∈ items, item.isScalar = true) (template : String) :
    Amounts ((items.mapM (itemText (ImplicitIterator.marker options) home.escape body)).map
        String.join)
      (renderBlock setting (renderWithin setting (levels + 1)) scope name body template) := by
  have outside : scope.inLoop = false := by rw [Scope.inLoop, viewed]; rfl
  have found : scope.view.lookup name = .ok (.present (.list items)) := by
    rw [viewed, Value.lookup_of_mapping rfl whole]
    simp [Value.lookupMapping, Value.namedEntry, Value.findKey, Value.sameKey, Value.isMethodPair,
      Value.opened]
  have fixed : scope.view.isFixed = true := by
    have inside : Value.allFixed items = true := by
      clear viewed found
      induction items with
      | nil => rfl
      | cons item rest ih =>
          rw [List.forall_mem_cons] at scalars
          rw [Value.allFixed, Value.isFixed_of_isScalar scalars.1, ih scalars.2, Bool.and_self]
    rw [viewed]
    simp [Value.isFixed, Value.entriesFixed, inside]
  intro store
  have begun : renderBlock setting (renderWithin setting (levels + 1)) scope name body template
      store = (do
        let texts ← renderItems (renderWithin setting (levels + 1)) scope body items
        return String.join texts) store := by
    unfold renderBlock
    rw [outside, if_neg Bool.false_ne_true, bind_of_ok (find_present fixed found store)]
    cases items <;> rfl
  rw [begun]
  exact ((renderItems_amounts managed registered iterating keeps allowed levels scalars).andThen
    fun texts => .ofView (.ok (String.join texts))) store

omit iterating keeps in
theorem renderUnder_amounts (options : Options) (within : ∀ limit ∈ setting.maxDepth, 1 ≤ limit)
    (nests : 2 ≤ setting.nestingLimit) {name : String} (whole : ¬ Value.IsDotted name)
    {items : List Value} (scalars : ∀ item ∈ items, item.isScalar = true)
    (keeps : ∀ token ∈ body, token.kind ≠ .pragma) (template : String)
    (aliases : Table Tokens) :
    Amounts ((items.mapM (itemText (ImplicitIterator.marker options) home.escape body)).map
        String.join)
      (renderUnder setting (ImplicitIterator.alone options) [.block name body template]
        (.mapping [(.text name, .list items)]) aliases) := by
  have allowed {depth : Nat} (small : depth ≤ 1) : setting.exceeds depth = none :=
    Setting.exceeds_of_forall fun limit known => by
      have room := within limit known
      omega
  obtain ⟨levels, deep⟩ : ∃ levels, setting.levels = levels + 2 := by
    refine ⟨setting.levels - 2, (Nat.sub_add_cancel ?_).symm⟩
    unfold Setting.levels
    split
    · rename_i limit known
      have room := within limit known
      omega
    · exact nests
  let scope : Scope :=
    ⟨.mapping [(.text name, .list items)], aliases, ImplicitIterator.alone options, 0⟩
  have written := @renderBlock_amounts setting home managed registered scope options rfl body keeps
    (allowed (Nat.le_refl 1)) levels name whole items rfl scalars template
  have declined := offer_iterating_plain managed registered options
    (show Token.Kind.block ≠ .escaped by simp) (Token.block name body template).payload scope.view
  have begun : renderUnder setting (ImplicitIterator.alone options) [.block name body template]
      scope.view aliases = (do
        Action.enter 0
        renderBlock setting (renderWithin setting (levels + 1)) scope name body template) := by
    rw [renderUnder, deep, renderWithin_entered (allowed (Nat.zero_le 1)), renderTokens_single]
    simp only [renderToken, Token.kind, declined, scope, pure_bind, renderPlain, renderPlain.keep,
      bind_assoc, joinPieces_text, Action.ofView, bind_pure]
  rw [begun]
  exact written.entered 0

end

theorem mapM_eq_map {α β : Type} {given : α → Except Trouble β} {result : α → β} {values : List α}
    (each : ∀ value ∈ values, given value = .ok (result value)) :
    values.mapM given = .ok (values.map result) := by
  induction values with
  | nil => rfl
  | cons value rest ih =>
      rw [List.forall_mem_cons] at each
      rw [List.mapM_cons, each.1, ih each.2]
      rfl

/-- What a token in the body of a loop over scalars shows. -/
def itemShown (marker : String) (shown : Value → String) (item : Value) : Token → String
  | .content text => text
  | .escaped name => if name = marker ∧ isSilent item = false then shown item else ""
  | _ => ""

theorem itemText_of_texts {escape : Escaper} {shown : Value → String} {item : Value}
    (texts : isSilent item = false → escape item = .ok (.text (shown item))) (marker : String)
    (body : Tokens) :
    itemText marker escape body item =
      .ok (String.join (body.map (itemShown marker shown item))) := by
  have each (token : Token) : ∃ piece, itemPiece marker escape item token = .ok piece ∧
      piece.isJoinable = true ∧ pieceText piece = itemShown marker shown item token := by
    cases token with
    | content text => exact ⟨.text text, rfl, rfl, rfl⟩
    | escaped name =>
        simp only [itemPiece, itemShown]
        split
        · rename_i here
          exact ⟨.text (shown item), texts here.2, rfl, rfl⟩
        · exact ⟨.null, rfl, rfl, rfl⟩
    | _ => exact ⟨.null, rfl, rfl, rfl⟩
  obtain ⟨piece, each⟩ := Classical.skolem.mp each
  rw [itemText, mapM_eq_map fun token _ => (each token).1]
  simp [joinPieces, bind, Except.bind, each, Function.comp_def]

/-- A section over a list of scalars in a template that lets a marker stand for the item: for one
item after the other its body, in which the marker is written as the item, escaped, and nothing
else is written but content. -/
theorem render_loop {setting : Setting} {home : Home} (managed : setting.home = some home)
    (registered : home.pragmas.get? ImplicitIterator.name = some ImplicitIterator.pragma)
    (within : ∀ limit ∈ setting.maxDepth, 1 ≤ limit) (nests : 2 ≤ setting.nestingLimit)
    {options : Options} {marker : String} (named : options.get? "iterator" = some marker)
    (spelled : marker ≠ "") {name : String} (whole : ¬ Value.IsDotted name) {items : List Value}
    (scalars : ∀ item ∈ items, item.isScalar = true) {body : Tokens}
    (keeps : ∀ token ∈ body, token.kind ≠ .pragma) (template : String) (aliases : Table Tokens)
    (store : Store) :
    let run := render setting
      [.pragma ImplicitIterator.name options, .block name body template]
      (.mapping [(.text name, .list items)]) aliases store
    outcome run = ((items.mapM (itemText marker home.escape body)).map String.join).mapError
        .trouble ∧
      (∀ shown : Value → String, (∀ item ∈ items, isSilent item = false →
          home.escape item = .ok (.text (shown item))) →
        outcome run = .ok (String.join (items.map fun item =>
          String.join (body.map (itemShown marker shown item))))) ∧
      (final run).cache = store.cache := by
  intro run
  obtain ⟨reports, begun⟩ := render_activating managed (Table.contains_of_get? registered) options
    [.block name body template] (.mapping [(.text name, .list items)]) aliases store
  obtain ⟨ended, kept⟩ := renderUnder_amounts managed registered options within nests whole scalars
    keeps template aliases { store with reports }
  rw [ImplicitIterator.marker_of_option named spelled] at ended
  rw [ImplicitIterator.alone, ← begun] at ended kept
  refine ⟨ended, fun shown texts => ?_, kept⟩
  rw [ended, mapM_eq_map fun item member => itemText_of_texts (texts item member) marker body]
  rfl

/-- A dotted marker, an escaper that encloses what it is given, and scalars of every kind; nothing
is found in the body but the marker, and nobody knows the partial. -/
theorem render_loop_scalars :
    let setting : Setting := {
      home := some ⟨Registry.standard, ⟨fun _ => .absent, 1000⟩, .brackets⟩, escape := .brackets,
      maxDepth := some 1 }
    let view : Value := .mapping
      [(.text "xs", .list [.null, .bool false, .int 0, .text "", .bytes [], .bool true])]
    let body : Tokens :=
      [.content "-", .escaped "a.b", .escaped "xs", .unescaped "a.b", .partialNamed "missing",
       .block "xs" [.pragma "missing" .empty] "", .inverted "xs" [.content "none"],
       .placeholder "p" [.content "p"], .comment "c"]
    outcome (render setting
        [.pragma ImplicitIterator.name ⟨[("iterator", "a.b")]⟩, .block "xs" body ""] view .empty
        .fresh) = .ok "---<0>-<>-<b''>-<True>" := by
  intro setting view body
  have loop := @render_loop setting _ rfl rfl (by simp [setting]) (by decide)
    ⟨[("iterator", "a.b")]⟩ "a.b" rfl (by decide) "xs" (by decide)
    [.null, .bool false, .int 0, .text "", .bytes [], .bool true] (by decide) body (by decide) ""
    .empty .fresh
  have shown := loop.2.1 (fun item => "<" ++ item.printed ++ ">") fun _ _ _ => rfl
  exact shown.trans (congrArg Except.ok (by decide))

theorem Value.builtBy_of_isScalar (call : Nat) {value : Value} (scalar : value.isScalar = true) :
    value.builtBy call = value := by
  cases value <;> first | rfl | simp [isScalar] at scalar

theorem find_of_isScalar {view : Value} {name : String} {found : Found} {store : Store}
    (known : (store.memory.current view).lookup name = .ok found)
    (scalar : found.value.isScalar = true) :
    ∃ after, find view name store = .ok found.value after := by
  rw [find_of_ok known]
  simp only [Memory.settle, Memory.build]
  split
  · rw [Value.builtBy_of_isScalar _ scalar]
    exact ⟨_, rfl⟩
  · exact ⟨_, rfl⟩

/-- Pragmas are not asked for the text of a scalar. -/
theorem renderEscaped_of_isScalar {setting : Setting} {scope : Scope} {name : String}
    {found : Found} {store : Store}
    (known : (store.memory.current scope.view).lookup name = .ok found)
    (scalar : found.value.isScalar = true) (active : ActivePragmas) :
    renderEscaped setting { scope with active } name store =
      renderEscaped setting scope name store := by
  obtain ⟨after, run⟩ := find_of_isScalar known scalar
  rw [renderEscaped, renderEscaped, bind_of_ok run, bind_of_ok run, if_pos scalar, if_pos scalar]

theorem Value.isScalar_of_mapping {view : Value} {entries : List (Value × Value)}
    (mapped : view.plain = .mapping entries) : view.isScalar = false := by
  cases scalar : view.isScalar with
  | false => rfl
  | true =>
      rw [plain_of_isScalar scalar] at mapped
      subst mapped
      contradiction

/-- An entry whose name is not taken apart, and that is no method, is what its name stands for. -/
theorem Value.lookup_of_entry {view value : Value} {entries : List (Value × Value)} {name : String}
    {found : Found} (mapped : view.plain = .mapping entries)
    (known : view.lookup name = .ok found)
    (entry : findKey (.text name) entries = some value) (whole : ¬ IsDotted name)
    (uncalled : value.isMethodPair ≠ .ok true) :
    value = .null ∨ found = .present value := by
  rw [lookup_of_mapping mapped whole, lookupMapping, namedEntry, entry] at known
  cases pair : value.isMethodPair with
  | error trouble => cases value <;> simp_all
  | ok answer => cases value <;> cases answer <;> simp_all

namespace ImplicitIterator

/-- Entries that the pragma does not show: mappings, objects and what has no text. -/
def PassesOver (value : Value) : Prop :=
  value.kind = .ok .map ∨ value.kind = .ok .object ∨ isSilent value = true

section

variable {offer : Offer} {entries : List (Value × Value)}
  (mapped : offer.view.plain = .mapping entries) {value : Value}
  (payload : offer.payload = .text (marker offer.options))

include mapped payload

theorem render_missing (missing : Value.findKey (.text (marker offer.options)) entries = none) :
    ImplicitIterator.render offer = .ok .null := by
  refine render_absent payload ?_
  simp [current, Value.isScalar_of_mapping mapped, mapped, missing]

theorem render_scalar (entry : Value.findKey (.text (marker offer.options)) entries = some value)
    (scalar : value.isScalar = true) :
    ImplicitIterator.render offer = shown (offer.escape.getD Escaper.html) value := by
  refine render_current payload ?_
  simp [current, Value.isScalar_of_mapping mapped, mapped, entry, Value.kind_of_isScalar scalar]

theorem render_passing (entry : Value.findKey (.text (marker offer.options)) entries = some value)
    (passes : PassesOver value) : ImplicitIterator.render offer = .ok .null := by
  rcases passes with kind | kind | silent
  · refine render_absent payload ?_
    simp [current, Value.isScalar_of_mapping mapped, mapped, entry, kind]
  · refine render_absent payload ?_
    simp [current, Value.isScalar_of_mapping mapped, mapped, entry, kind]
  · have scalar : value.isScalar = true := by cases value <;> first | rfl | cases silent
    rw [render_scalar mapped payload entry scalar, shown, if_pos silent]

end

end ImplicitIterator

section

variable {setting : Setting} {home : Home} (managed : setting.home = some home)
  (registered : home.pragmas.get? ImplicitIterator.name = some ImplicitIterator.pragma)
  (escaping : home.escape = .html) {options : Options} {view now : Value}
  {entries : List (Value × Value)} (mapped : now.plain = .mapping entries) {name : String}
  {found : Found} (known : now.lookup name = .ok found) (scalar : found.value.isScalar = true)
  (spared : ImplicitIterator.marker options = name →
    ∀ value, Value.findKey (.text name) entries = some value →
      ImplicitIterator.PassesOver value ∨ ¬ Value.IsDotted name ∧ value.isMethodPair ≠ .ok true)

include escaping mapped known scalar spared

/-- The pragma declines a name of a mapping, or shows the scalar that it stands for. -/
theorem ImplicitIterator.render_ordinary (offer : Offer) (viewed : offer.view = now)
    (chosen : offer.options = options) (payload : offer.payload = .text name)
    (escapes : offer.escape = some home.escape) :
    ImplicitIterator.render offer = .ok .null ∨
      ∃ value, now.lookup name = .ok (.present value) ∧ value.isScalar = true ∧
        isSilent value = false ∧
        ImplicitIterator.render offer = .ok (.text (escapedHtml value)) := by
  subst viewed chosen
  by_cases here : marker offer.options = name
  · subst here
    cases entry : Value.findKey (.text (marker offer.options)) entries with
    | none => exact .inl (render_missing mapped payload entry)
    | some value =>
        rcases spared rfl value entry with passes | ⟨whole, uncalled⟩
        · exact .inl (render_passing mapped payload entry passes)
        · rcases Value.lookup_of_entry mapped known entry whole uncalled with rfl | rfl
          · exact .inl (render_passing mapped payload entry (.inr (.inr rfl)))
          · have shows := render_scalar mapped payload entry scalar
            rw [escapes, Option.getD_some, escaping, shown] at shows
            cases silent : isSilent value with
            | true => exact .inl (shows.trans (if_pos silent))
            | false =>
                rw [silent, if_neg Bool.false_ne_true] at shows
                exact .inr ⟨value, known, scalar, silent, shows⟩
  · exact .inl (render_other payload (Ne.symm here))

variable {store : Store} (here : store.memory.current view = now)

include managed registered here

theorem offer_ordinary :
    setting.offer (ImplicitIterator.alone options) .escaped (.text name) view store =
        .ok none store ∨
      ∃ value, now.lookup name = .ok (.present value) ∧ value.isScalar = true ∧
        isSilent value = false ∧ escapedHtml value ≠ "" ∧
        setting.offer (ImplicitIterator.alone options) .escaped (.text name) view store =
          .ok (some (.text (escapedHtml value))) store := by
  rw [offer_iterating managed registered, look, bind_assoc, get_bind, pure_bind, here]
  rcases ImplicitIterator.render_ordinary escaping mapped known scalar spared
      ⟨.escaped, .text name, now, options, some home.escape⟩ rfl rfl rfl rfl with
    declined | ⟨value, read, simple, loud, shows⟩
  · rw [declined]
    exact .inl rfl
  · rw [shows]
    by_cases blank : escapedHtml value = ""
    · rw [blank]
      exact .inl rfl
    · refine .inr ⟨value, read, simple, loud, blank, ?_⟩
      simp only [Action.ofView, pure_bind, Value.truthy]
      simp [blank, pure, EStateM.pure]

variable (same : setting.escape = .html)

include same

theorem renderToken_ordinary (block : BlockRenderer) (aliases : Table Tokens) :
    (Written.piece <$> renderToken setting block
        ⟨view, aliases, ImplicitIterator.alone options, 0⟩ (.escaped name)) store =
      (Written.piece <$> renderToken setting block ⟨view, aliases, .empty, 0⟩ (.escaped name))
        store := by
  let scope : Scope := ⟨view, aliases, .empty, 0⟩
  have here : store.memory.current scope.view = now := here
  have unasked : renderEscaped setting ⟨view, aliases, ImplicitIterator.alone options, 0⟩ name
      store = renderEscaped setting scope name store :=
    @renderEscaped_of_isScalar setting scope name found store (here ▸ known) scalar _
  simp only [renderToken, Token.kind, Token.payload, offer_empty, pure_bind, renderPlain, map_bind]
  rcases offer_ordinary managed registered escaping mapped known scalar spared here with
    declined | ⟨value, read, simple, loud, blank, taken⟩
  · rw [bind_of_ok declined, map_bind]
    exact bind_of_eq unasked
  · have shown : renderEscaped setting scope name store = .ok (.text (escapedHtml value)) store := by
      have finds : find view name store = .ok value store := find_of_ok (here ▸ read)
      rw [renderEscaped, bind_of_ok finds]
      simp only [simple, loud, same, if_true, Bool.false_eq_true, if_false]
      split
      · exact absurd rfl blank
      · rfl
    rw [bind_of_ok taken, bind_of_ok shown]
    rfl

theorem renderUnder_ordinary (aliases : Table Tokens) :
    renderUnder setting (ImplicitIterator.alone options) [.escaped name] view aliases store =
      renderUnder setting .empty [.escaped name] view aliases store := by
  unfold renderUnder
  cases setting.levels with
  | zero => rfl
  | succ levels =>
      cases allowed : setting.exceeds 0 with
      | some limit => rw [renderWithin_refused allowed, renderWithin_refused allowed]
      | none =>
          let entered : Store := { store with deepest := max store.deepest 0 }
          have here : entered.memory.current view = now := here
          have alike := renderToken_ordinary managed registered escaping mapped known scalar spared
            here same (renderWithin setting levels) aliases
          rw [renderWithin_entered allowed, renderWithin_entered allowed, renderTokens_single,
            renderTokens_single]
          have entering : Action.enter 0 store = .ok () entered := rfl
          simp only [bind_assoc, pure_bind]
          rw [bind_of_ok entering, bind_of_ok entering]
          refine LooksAlike.bind_eq_at alike fun result given alike => ?_
          rw [alike]

end

/-- A name that stands for a scalar in a mapping is written as without the pragma, unless it is the
marker and a key of the mapping that is taken apart when it is looked up, or whose entry is a method
that is called. -/
theorem render_marked {setting : Setting} {home : Home} (managed : setting.home = some home)
    (registered : home.pragmas.get? ImplicitIterator.name = some ImplicitIterator.pragma)
    (escaping : home.escape = .html) (same : setting.escape = .html) (options : Options)
    {view now : Value} {store : Store} (here : store.memory.current view = now)
    {entries : List (Value × Value)} (mapped : now.plain = .mapping entries)
    {name : String} {found : Found} (known : now.lookup name = .ok found)
    (scalar : found.value.isScalar = true)
    (spared : ImplicitIterator.marker options = name →
      ∀ value, Value.findKey (.text name) entries = some value →
        ImplicitIterator.PassesOver value ∨ ¬ Value.IsDotted name ∧ value.isMethodPair ≠ .ok true)
    (aliases : Table Tokens) :
    let run := render setting [.pragma ImplicitIterator.name options, .escaped name] view aliases
      store
    let other := render setting [.escaped name] view aliases store
    outcome run = outcome other ∧ UpToReports (final run) (final other) :=
  render_activating_alike managed (Table.contains_of_get? registered) fun reports =>
    @renderUnder_ordinary setting home managed registered escaping options view now entries mapped
      name found known scalar spared { store with reports } here same aliases

/-- A marker that is also a key of the view. -/
theorem render_marked_entry :
    let setting : Setting := {
      home := some ⟨Registry.standard, ⟨fun _ => .absent, 1000⟩, .html⟩, escape := .html,
      maxDepth := none }
    let view : Value := .mapping [(.text "x", .text "<b>"), (.text "y", .null)]
    outcome (render setting
        [.pragma ImplicitIterator.name ⟨[("iterator", "x")]⟩, .escaped "x"] view .empty .fresh) =
      .ok "&lt;b&gt;" := by
  intro setting view
  have spared (value : Value)
      (entry : Value.findKey (.text "x") [(.text "x", .text "<b>"), (.text "y", .null)] =
        some value) :
      ImplicitIterator.PassesOver value ∨
        ¬ Value.IsDotted "x" ∧ value.isMethodPair ≠ .ok true := by
    cases entry
    exact .inr ⟨by decide, by simp [Value.isMethodPair, Value.opened]⟩
  have alike := @render_marked setting _ rfl rfl rfl rfl ⟨[("iterator", "x")]⟩ view view
    .fresh rfl _ rfl "x" (.present (.text "<b>")) rfl rfl (fun _ => spared) .empty
  exact alike.1.trans rfl

/-- Two names that stand for scalars and are not written as such once they are the marker: one
whose entry is a method, and one that is also a key as it stands. -/
theorem marked_overridden :
    let setting : Setting := {
      home := some ⟨Registry.standard, ⟨fun _ => .absent, 1000⟩, .html⟩, escape := .html,
      maxDepth := none }
    let method : Member := .attribute (.function true (.mk ⟨0, 0, false⟩ (.gives (.text "hi"))))
    let owner : Value := .object (.mk "O" [("m", method)] none none none none none)
    let called : Value := .mapping [(.text "x", .tuple [owner, .text "m"])]
    let nested : Value := .mapping
      [(.text "a.b", .text "direct"), (.text "a", .mapping [(.text "b", .text "nested")])]
    let plain (view : Value) (name : String) :=
      outcome (render setting [.escaped name] view .empty .fresh)
    let marked (view : Value) (name : String) :=
      outcome (render setting
        [.pragma ImplicitIterator.name ⟨[("iterator", name)]⟩, .escaped name] view .empty .fresh)
    called.lookup "x" = .ok ⟨.text "hi", true, []⟩ ∧
      plain called "x" = .ok "hi" ∧ marked called "x" = .ok "(O, 'm')" ∧
      nested.lookup "a.b" = .ok (.present (.text "nested")) ∧
      plain nested "a.b" = .ok "nested" ∧ marked nested "a.b" = .ok "direct" := by
  intro setting method owner called nested plain marked
  refine ⟨rfl, rfl, rfl, rfl, rfl, rfl⟩

end Logicless
