import Logicless.Proofs.Congruence

namespace Logicless

/-!
What rendering holds its results to.

A `Warrant` says of a computation that it is held to a condition on what it gives: that whatever it
gives meets the condition, that it also keeps an invariant of the state, or that it gives something
at all. A `Bond` says such a thing of two computations, of which only one need be held to the
condition; a warrant is a bond of a computation with itself. `Terms` are such conditions for
everything that rendering a block comes by: views, tokens, active pragmas, pieces of text. Where the
steps of rendering that read names, render variables or find partials keep to the terms (`Binds`,
`Upholds`), so does rendering a block whose nested blocks do (`renderTokens_binds`). A law about
what single runs come by is an instance, and so is one that compares runs which agree only because
of what they come by; `Congruence` is for laws that do not depend on that.
-/

abbrev Bond := (α : Type) → (α → Prop) → Action α → Action α → Prop

structure Binding (B : Bond) : Prop where
  gives {α : Type} {holds : α → Prop} {result : α} : holds result →
    B α holds (pure result) (pure result)
  andThen {α β : Type} {middle : α → Prop} {holds : β → Prop} {first other : Action α}
    {next later : α → Action β} : B α middle first other →
      (∀ result, middle result → B β holds (next result) (later result)) →
        B β holds (first >>= next) (other >>= later)

abbrev Warrant := (α : Type) → (α → Prop) → Action α → Prop

/-- A warrant as a bond, which says nothing of the other computation. -/
abbrev Warrant.alone (W : Warrant) : Bond := fun α holds action _ => W α holds action

structure Lawful (W : Warrant) : Prop where
  gives {α : Type} {holds : α → Prop} {result : α} : holds result → W α holds (pure result)
  andThen {α β : Type} {middle : α → Prop} {holds : β → Prop} {first : Action α}
    {next : α → Action β} : W α middle first → (∀ result, middle result → W β holds (next result)) →
      W β holds (first >>= next)
  report (event : Event) : W Unit (fun _ => True) (Action.report event)

theorem Lawful.binding {W : Warrant} (lawful : Lawful W) : Binding W.alone where
  gives := lawful.gives
  andThen := lawful.andThen

theorem Lawful.weaken {W : Warrant} (lawful : Lawful W) {α : Type} {holds weaker : α → Prop}
    {action : Action α} (held : W α holds action)
    (implies : ∀ result, holds result → weaker result) : W α weaker action := by
  have same := lawful.andThen held fun result here => lawful.gives (implies result here)
  rwa [bind_pure] at same

/-- Conditions on what rendering comes by. Nested blocks may be held to more than the tokens around
them. -/
structure Terms where
  view : Value → Prop
  token : Token → Prop
  nested : Tokens → Prop
  active : ActivePragmas → Prop
  piece : Piece → Prop
  aliases : Table Tokens

/-- The block that a token brings with it. -/
def Token.enclosed? : Token → Option Tokens
  | .block _ inner _ | .inverted _ inner | .placeholder _ inner | .partialKnown inner => some inner
  | _ => none

/-- The name that decides whether a token renders the tokens it encloses. -/
def Token.condition? : Token → Option String
  | .block name .. | .inverted name _ => some name
  | _ => none

namespace Terms

/-- Scopes that are within the terms. -/
structure Admits (terms : Terms) (scope : Scope) : Prop where
  view : terms.view scope.view
  active : terms.active scope.active
  aliases : scope.aliases = terms.aliases

def Text (terms : Terms) (text : String) : Prop := terms.piece (.text text)

/-- Rendered blocks that are within the terms. -/
structure Block (terms : Terms) (rendered : Rendered) : Prop where
  text : terms.Text rendered.text
  active : terms.active rendered.active

/-- Whether nested blocks keep to the terms. -/
def Nests (B : Bond) (terms : Terms) (block other : BlockRenderer) : Prop :=
  ∀ scope tokens, terms.Admits scope → terms.nested tokens →
    B Rendered terms.Block (block scope tokens) (other scope tokens)

end Terms

/-- Whether the steps that rendering a block is made of keep to the terms. -/
structure Binds (B : Bond) (left right : Setting) (terms : Terms) : Prop extends Binding B where
  encloses {token : Token} {inner : Tokens} : terms.token token → token.enclosed? = some inner →
    terms.nested inner
  inactive : terms.active .empty
  silent : terms.piece .null
  content {text : String} : terms.token (.content text) → terms.Text text
  joins {texts : List String} : (∀ text ∈ texts, terms.Text text) → terms.Text (String.join texts)
  joinsPieces {pieces : List Piece} : (∀ piece ∈ pieces, terms.piece piece) →
    B String terms.Text (Action.ofView (joinPieces pieces)) (Action.ofView (joinPieces pieces))
  offers {scope : Scope} {token : Token} : terms.Admits scope → terms.token token →
    B (Option Piece) (fun offered => ∀ piece ∈ offered, terms.piece piece)
      (left.offer scope.active token.kind token.payload scope.view)
      (right.offer scope.active token.kind token.payload scope.view)
  escapes {scope : Scope} {name : String} : terms.Admits scope → terms.token (.escaped name) →
    B Piece terms.piece (renderEscaped left scope name) (renderEscaped right scope name)
  unescapes {scope : Scope} {name : String} : terms.Admits scope → terms.token (.unescaped name) →
    B String terms.Text (renderUnescaped scope name) (renderUnescaped scope name)
  finds {view : Value} {token : Token} {name : String} : terms.view view → terms.token token →
    token.condition? = some name → B Value terms.view (find view name) (find view name)
  kinds {value : Value} : terms.view value →
    B Kind (fun kind => value.kind = .ok kind) (Action.ofView value.kind) (Action.ofView value.kind)
  takes {value : Value} : terms.view value → value.kind = .ok .list →
    B (List Value) (fun items => ∀ item ∈ items, terms.view item) (takeItems value)
      (takeItems value)
  calls {block other : BlockRenderer} {scope : Scope} {callback : Value}
    {name template : String} : terms.Nests B block other → terms.Admits scope →
      terms.view callback → callback.kind = .ok .callable →
        B String terms.Text (renderCallback left block scope name template callback)
          (renderCallback right other scope name template callback)
  includes {scope : Scope} {name : String} : terms.Admits scope →
    terms.token (.partialNamed name) →
    B Tokens terms.nested (partialTokens left scope name) (partialTokens right scope name)
  activates {scope : Scope} {name : String} {options : Options} : terms.Admits scope →
    terms.token (.pragma name options) →
    B ActivePragmas terms.active (activate left scope name options)
      (activate right scope name options)

abbrev Upholds (W : Warrant) (setting : Setting) (terms : Terms) : Prop :=
  Binds W.alone setting setting terms

namespace Terms.Admits

variable {terms : Terms} {scope : Scope}

theorem descend (admits : terms.Admits scope) {view : Value} (within : terms.view view) :
    terms.Admits (scope.descend view) := ⟨within, admits.active, admits.aliases⟩

theorem withActive (admits : terms.Admits scope) {active : ActivePragmas}
    (within : terms.active active) : terms.Admits { scope with active } :=
  ⟨admits.view, within, admits.aliases⟩

end Terms.Admits

section

variable {B : Bond} {left right : Setting} {terms : Terms} (binds : Binds B left right terms)

include binds

theorem Binds.blank : terms.Text "" :=
  binds.joins (nofun : ∀ text ∈ ([] : List String), terms.Text text)

variable {block other : BlockRenderer} (nests : terms.Nests B block other) {scope : Scope}
  (admits : terms.Admits scope)

include nests admits

theorem renderNested_binds {view : Value} (within : terms.view view) {content : Tokens}
    (nested : terms.nested content) :
    B String terms.Text (renderNested block scope view content)
      (renderNested other scope view content) :=
  binds.andThen (nests _ content (admits.descend within) nested) fun _ rendered =>
    binds.gives rendered.text

theorem renderItems_binds {content : Tokens} (nested : terms.nested content)
    {items : List Value} (within : ∀ item ∈ items, terms.view item) :
    B (List String) (fun texts => ∀ text ∈ texts, terms.Text text)
      (renderItems block scope content items) (renderItems other scope content items) := by
  induction items with
  | nil => exact binds.gives nofun
  | cons item rest ih =>
      rw [List.forall_mem_cons] at within
      refine binds.andThen (nests _ content (admits.descend within.1) nested) ?_
      intro rendered first
      refine binds.andThen (ih within.2) fun texts others => ?_
      exact binds.gives (List.forall_mem_cons.mpr ⟨first.text, others⟩)

theorem renderBlock_binds {name template : String} {content : Tokens}
    (held : terms.token (.block name content template)) :
    B String terms.Text (renderBlock left block scope name content template)
      (renderBlock right other scope name content template) := by
  have nested := binds.encloses held rfl
  have around := renderNested_binds binds nests admits admits.view nested
  unfold renderBlock
  split
  · exact binds.gives binds.blank
  · refine binds.andThen (binds.finds admits.view held rfl) fun value within => ?_
    split
    · exact binds.gives binds.blank
    · split
      · exact around
      · refine binds.andThen (binds.kinds within) fun kind known => ?_
        cases kind with
        | list =>
            refine binds.andThen (binds.takes within known) fun items inside => ?_
            refine binds.andThen (renderItems_binds binds nests admits nested inside) ?_
            exact fun texts written => binds.gives (binds.joins written)
        | map | object => exact renderNested_binds binds nests admits within nested
        | scalar | «sealed» => exact around
        | callable => exact binds.calls nests admits within known

theorem renderInverted_binds {name : String} {content : Tokens}
    (held : terms.token (.inverted name content)) :
    B String terms.Text (renderInverted block scope name content)
      (renderInverted other scope name content) := by
  unfold renderInverted
  split
  · exact binds.gives binds.blank
  · refine binds.andThen (binds.finds admits.view held rfl) fun value _ => ?_
    split
    · exact binds.gives binds.blank
    · exact renderNested_binds binds nests admits admits.view (binds.encloses held rfl)

theorem renderPartial_binds {tokens others : Action Tokens}
    (found : B Tokens terms.nested tokens others) :
    B String terms.Text (renderPartial block scope tokens) (renderPartial other scope others) := by
  unfold renderPartial
  split
  · exact binds.gives binds.blank
  · refine binds.andThen found fun tokens nested => ?_
    have enters : terms.Admits scope.enterPartial := ⟨admits.view, binds.inactive, admits.aliases⟩
    exact binds.andThen (nests _ tokens enters nested) fun _ rendered =>
      binds.gives rendered.text

/-- What a token writes, and which pragmas it leaves active. -/
structure Terms.Writes (terms : Terms) (written : Written) : Prop where
  piece : terms.piece written.piece
  active : terms.active written.active

theorem renderPlain_binds {token : Token} (held : terms.token token) :
    B Written terms.Writes (renderPlain left block scope token)
      (renderPlain right other scope token) := by
  have keep {text same : Action String} (written : B String terms.Text text same) :
      B Written terms.Writes (renderPlain.keep scope text) (renderPlain.keep scope same) :=
    binds.andThen written fun _ text => binds.gives ⟨text, admits.active⟩
  cases token with
  | content text => exact binds.gives ⟨binds.content held, admits.active⟩
  | escaped name =>
      refine binds.andThen (binds.escapes admits held) fun piece written => ?_
      exact binds.gives ⟨written, admits.active⟩
  | unescaped name => exact keep (binds.unescapes admits held)
  | block name content template => exact keep (renderBlock_binds binds nests admits held)
  | inverted name content => exact keep (renderInverted_binds binds nests admits held)
  | placeholder name content =>
      simp only [renderPlain]
      split
      · exact binds.gives ⟨binds.silent, admits.active⟩
      · have around := nests _ content (admits.descend admits.view) (binds.encloses held rfl)
        refine binds.andThen around fun rendered inside => ?_
        exact binds.gives ⟨inside.text, inside.active⟩
  | partialNamed name =>
      exact keep (renderPartial_binds binds nests admits (binds.includes admits held))
  | partialKnown tokens =>
      have nested := binds.encloses held rfl
      exact keep (renderPartial_binds binds nests admits (binds.gives nested))
  | pragma name options =>
      refine binds.andThen (binds.activates admits held) fun active within => ?_
      exact binds.gives ⟨binds.silent, within⟩
  | delimiters opening closing => exact binds.gives ⟨binds.silent, admits.active⟩
  | comment text => exact binds.gives ⟨binds.silent, admits.active⟩

theorem renderToken_binds {token : Token} (held : terms.token token) :
    B Written terms.Writes (renderToken left block scope token)
      (renderToken right other scope token) := by
  refine binds.andThen (binds.offers admits held) fun offered pieces => ?_
  cases offered with
  | some piece => exact binds.gives ⟨pieces piece rfl, admits.active⟩
  | none => exact renderPlain_binds binds nests admits held

theorem renderPieces_binds {tokens : Tokens} (held : ∀ token ∈ tokens, terms.token token) :
    B (List Piece × ActivePragmas)
      (fun result => (∀ piece ∈ result.1, terms.piece piece) ∧ terms.active result.2)
      (renderPieces left block scope tokens) (renderPieces right other scope tokens) := by
  induction tokens generalizing scope with
  | nil => exact binds.gives ⟨nofun, admits.active⟩
  | cons token rest ih =>
      rw [List.forall_mem_cons] at held
      refine binds.andThen (renderToken_binds binds nests admits held.1) ?_
      intro first written
      refine binds.andThen (ih (admits.withActive written.active) held.2) fun others later => ?_
      exact binds.gives ⟨List.forall_mem_cons.mpr ⟨written.piece, later.1⟩, later.2⟩

/-- A block keeps to the terms if the blocks nested in it do. -/
theorem renderTokens_binds {tokens : Tokens} (held : ∀ token ∈ tokens, terms.token token) :
    B Rendered terms.Block (renderTokens left block scope tokens)
      (renderTokens right other scope tokens) := by
  refine binds.andThen (renderPieces_binds binds nests admits held) fun result within => ?_
  refine binds.andThen (binds.joinsPieces within.1) fun text written => ?_
  exact binds.gives ⟨written, within.2⟩

end

section

variable {B : Bond} {left right : Setting} {terms : Terms} (binds : Binds B left right terms)
  (limits : left.maxDepth = right.maxDepth)
  (throws : ∀ fault, B Rendered terms.Block (throw fault) (throw fault))
  (enters : ∀ depth, B Unit (fun _ => True) (Action.enter depth) (Action.enter depth))
  (alike : ∀ tokens, terms.nested tokens → ∀ token ∈ tokens, terms.token token)

include binds limits throws enters alike

/-- Blocks keep to terms that are the same for all of them, if failing does. -/
theorem renderWithin_binds (fuel : Nat) :
    terms.Nests B (renderWithin left fuel) (renderWithin right fuel) := by
  induction fuel with
  | zero => exact fun _ _ _ _ => throws .endless
  | succ fuel ih =>
      intro scope tokens admits nested
      have same : left.exceeds scope.depth = right.exceeds scope.depth := by
        simp only [Setting.exceeds, limits]
      cases allowed : right.exceeds scope.depth with
      | some limit =>
          rw [renderWithin_refused allowed, renderWithin_refused (same.trans allowed)]
          exact throws _
      | none =>
          rw [renderWithin_entered allowed, renderWithin_entered (same.trans allowed)]
          refine binds.andThen (enters scope.depth) fun _ _ => ?_
          exact renderTokens_binds binds ih admits (alike tokens nested)

theorem render_binds (levels : left.levels = right.levels) {view : Value}
    (within : terms.view view) {tokens : Tokens} (nested : terms.nested tokens) :
    B String terms.Text (render left tokens view terms.aliases)
      (render right tokens view terms.aliases) := by
  have admits : terms.Admits ⟨view, terms.aliases, .empty, 0⟩ := ⟨within, binds.inactive, rfl⟩
  have nests := renderWithin_binds binds limits throws enters alike left.levels
  rw [render, render, ← levels]
  exact binds.andThen (nests _ tokens admits nested) fun _ rendered => binds.gives rendered.text

end

/-- Rendering upholds what its steps do. -/
theorem render_upheld {W : Warrant} {setting : Setting} {terms : Terms}
    (upholds : Upholds W setting terms)
    (throws : ∀ fault, W Rendered terms.Block (throw fault))
    (enters : ∀ depth, W Unit (fun _ => True) (Action.enter depth))
    (alike : ∀ tokens, terms.nested tokens → ∀ token ∈ tokens, terms.token token) {view : Value}
    (within : terms.view view) {tokens : Tokens} (nested : terms.nested tokens) :
    W String terms.Text (render setting tokens view terms.aliases) :=
  render_binds upholds rfl throws enters alike rfl within nested

theorem offer_empty (setting : Setting) (kind : Token.Kind) (payload : Payload) (view : Value) :
    setting.offer .empty kind payload view = pure none := by
  unfold Setting.offer
  cases setting.home <;> rfl

/-- A computation that keeps an invariant, whatever it ends in, and gives only what meets a
condition. -/
def Keeps (invariant : Store → Prop) : Warrant := fun _ holds action =>
  ∀ store, invariant store → invariant (final (action store)) ∧
    ∀ result after, action store = .ok result after → holds result

section

variable {invariant : Store → Prop} {α : Type} {holds : α → Prop}

theorem lawful_keeps (reports : ∀ (store : Store) (events : List Event), invariant store →
    invariant { store with reports := events }) : Lawful (Keeps invariant) where
  gives here store kept := by
    refine ⟨kept, fun _ _ run => ?_⟩
    cases run
    exact here
  andThen := by
    intro α β middle holds first next begins later store kept
    obtain ⟨begun, given⟩ := begins store kept
    cases run : first store with
    | error fault after =>
        rw [bind_of_error run]
        rw [run] at begun
        exact ⟨begun, nofun⟩
    | ok result after =>
        rw [bind_of_ok run]
        rw [run] at begun
        exact later result (given result after run) after begun
  report event store kept := ⟨reports store _ kept, fun _ _ _ => trivial⟩

theorem Keeps.throw (fault : Fault) : Keeps invariant α holds (throw fault) :=
  fun _ kept => ⟨kept, nofun⟩

theorem Keeps.ofView {result : Except Trouble α}
    (here : ∀ value, result = .ok value → holds value) :
    Keeps invariant α holds (Action.ofView result) := by
  intro store kept
  cases result with
  | error trouble => exact ⟨kept, nofun⟩
  | ok value =>
      refine ⟨kept, fun _ _ run => ?_⟩
      cases run
      exact here value rfl

end

end Logicless
