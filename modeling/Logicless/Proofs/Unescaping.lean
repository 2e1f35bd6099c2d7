import Logicless.Proofs.Compiling
import Logicless.Proofs.Iterating
import Logicless.Proofs.Overriding
import Logicless.Proofs.Views

namespace Logicless

mutual

/-- A token with unescaped variables for the escaped ones. The text of a section stays as it is. -/
def Token.unescape : Token → Token
  | .escaped name => .unescaped name
  | .block name content template => .block name (Tokens.unescape content) template
  | .inverted name content => .inverted name (Tokens.unescape content)
  | .placeholder name content => .placeholder name (Tokens.unescape content)
  | .partialKnown tokens => .partialKnown (Tokens.unescape tokens)
  | .content text => .content text
  | .unescaped name => .unescaped name
  | .partialNamed name => .partialNamed name
  | .pragma name options => .pragma name options
  | .delimiters opening closing => .delimiters opening closing
  | .comment text => .comment text

def Tokens.unescape : List Token → List Token
  | [] => []
  | token :: rest => token.unescape :: Tokens.unescape rest

end

mutual

theorem Token.unescape_unescape : (token : Token) → token.unescape.unescape = token.unescape
  | .block _ content _ | .inverted _ content | .placeholder _ content | .partialKnown content => by
      simp only [Token.unescape, Tokens.unescape_unescape content]
  | .escaped _ | .unescaped _ | .content _ | .partialNamed _ | .pragma .. | .delimiters ..
  | .comment _ => by simp only [Token.unescape]

theorem Tokens.unescape_unescape : (tokens : List Token) →
    Tokens.unescape (Tokens.unescape tokens) = Tokens.unescape tokens
  | [] => rfl
  | token :: rest => by
      simp only [Tokens.unescape, token.unescape_unescape, Tokens.unescape_unescape rest]

end

/-- Computations that end in the same state from every state that meets an invariant, which they
keep, and in the same fault or in results that are related. -/
def Tallies (invariant : Store → Prop) {α : Type} (related : α → α → Prop)
    (left right : Action α) : Prop :=
  ∀ store, invariant store → invariant (final (right store)) ∧
    ((∃ fault after, left store = .error fault after ∧ right store = .error fault after) ∨
      ∃ result given after, left store = .ok result after ∧ right store = .ok given after ∧
        related result given)

namespace Tallies

variable {invariant : Store → Prop} {α β γ : Type} {related : α → α → Prop}
  {left right : Action α}

theorem pure {result given : α} (here : related result given) :
    Tallies invariant related (Pure.pure result) (Pure.pure given) :=
  fun store kept => ⟨kept, .inr ⟨result, given, store, rfl, rfl, here⟩⟩

theorem throw (fault : Fault) :
    Tallies invariant related (MonadExcept.throw fault) (MonadExcept.throw fault) :=
  fun store kept => ⟨kept, .inl ⟨fault, store, rfl, rfl⟩⟩

theorem andThen {middle : β → β → Prop} {first other : Action β} {next later : β → Action α}
    (begins : Tallies invariant middle first other)
    (continues : ∀ result given, middle result given →
      Tallies invariant related (next result) (later given)) :
    Tallies invariant related (first >>= next) (other >>= later) := by
  intro store kept
  obtain ⟨begun, ⟨fault, after, failed, also⟩ | ⟨result, given, after, run, also, same⟩⟩ :=
    begins store kept
  · rw [also] at begun
    rw [bind_of_error failed, bind_of_error also]
    exact ⟨begun, .inl ⟨fault, after, rfl, rfl⟩⟩
  · rw [also] at begun
    rw [bind_of_ok run, bind_of_ok also]
    exact continues result given same after begun

/-- The same computation on both sides. -/
theorem of_keeps {holds : α → Prop} {action : Action α} (keeps : Keeps invariant α holds action) :
    Tallies invariant (fun result given => result = given ∧ holds given) action action := by
  intro store kept
  obtain ⟨still, gives⟩ := keeps store kept
  refine ⟨still, ?_⟩
  cases run : action store with
  | error fault after => exact .inl ⟨fault, after, rfl, rfl⟩
  | ok result after => exact .inr ⟨result, result, after, rfl, rfl, rfl, gives result after run⟩

/-- Computations that look like one that keeps the invariant. -/
theorem of_seen {seen : α → β} {holds : β → Prop} {shown : Action β} (first : seen <$> left = shown)
    (second : seen <$> right = shown) (keeps : Keeps invariant β holds shown) :
    Tallies invariant (fun result given => seen result = seen given ∧ holds (seen given))
      left right := by
  intro store kept
  obtain ⟨still, gives⟩ := keeps store kept
  have both := congrFun (first.trans second.symm) store
  rw [← second] at still gives
  cases run : left store with
  | error fault after =>
      cases also : right store with
      | ok given reached => simp [map_of_error run, map_of_ok also] at both
      | error raised reached =>
          rw [map_of_error also] at still
          simp only [map_of_error run, map_of_error also, EStateM.Result.error.injEq] at both
          obtain ⟨rfl, rfl⟩ := both
          exact ⟨still, .inl ⟨fault, after, rfl, rfl⟩⟩
  | ok result after =>
      cases also : right store with
      | error raised reached => simp [map_of_ok run, map_of_error also] at both
      | ok given reached =>
          rw [map_of_ok also] at still gives
          simp only [map_of_ok run, map_of_ok also, EStateM.Result.ok.injEq] at both
          obtain ⟨same, rfl⟩ := both
          exact ⟨still, .inr ⟨result, given, after, rfl, rfl, same, gives _ _ rfl⟩⟩

theorem weaken {weaker : α → α → Prop} (tallies : Tallies invariant related left right)
    (implies : ∀ result given, related result given → weaker result given) :
    Tallies invariant weaker left right := by
  intro store kept
  obtain ⟨still, failed | ⟨result, given, after, run, also, same⟩⟩ := tallies store kept
  · exact ⟨still, .inl failed⟩
  · exact ⟨still, .inr ⟨result, given, after, run, also, implies result given same⟩⟩

theorem guarded {condition : Bool} {result : α} (here : related result result)
    (otherwise : Tallies invariant related left right) :
    Tallies invariant related (if condition then Pure.pure result else left)
      (if condition then Pure.pure result else right) := by
  split
  · exact .pure here
  · exact otherwise

/-- What the right side gives is what it has given in some run. -/
theorem ran (tallies : Tallies invariant related left right) :
    Tallies invariant (fun result given => related result given ∧
      ∃ store after, invariant store ∧ right store = .ok given after) left right := by
  intro store kept
  obtain ⟨still, failed | ⟨result, given, after, run, also, same⟩⟩ := tallies store kept
  · exact ⟨still, .inl failed⟩
  · exact ⟨still, .inr ⟨result, given, after, run, also, same, store, after, kept, also⟩⟩

theorem run_eq (tallies : Tallies invariant Eq left right) {store : Store}
    (kept : invariant store) : left store = right store := by
  obtain ⟨-, ⟨fault, after, run, also⟩ | ⟨result, given, after, run, also, rfl⟩⟩ :=
    tallies store kept
  · rw [run, also]
  · rw [run, also]

end Tallies

/-- What joining pieces tells of what a token writes, and which pragmas the token leaves active. -/
def Written.shown (written : Written) : Piece × ActivePragmas :=
  (written.piece.asJoined, written.active)

/-- Results that joining does not tell apart, and that leave no pragmas active. -/
def Written.Agree (written given : Written) : Prop :=
  written.shown = given.shown ∧ given.active = .empty

theorem Value.decoded_of_compound {value : Value} (compound : value.isScalar = false) :
    value.decoded = value.printed := by
  cases value with
  | bytes data => cases compound
  | _ => rfl

/-- Without escaping and pragmas, what an escaped variable writes looks like what an unescaped one
does. -/
theorem renderPlain_escaped {setting : Setting} (plain : setting.escape = Escaper.none)
    (block : BlockRenderer) {scope : Scope} (idle : scope.active = .empty) (name : String) :
    LooksAlike Written.shown (renderPlain setting block scope (.escaped name))
      (renderPlain setting block scope (.unescaped name)) := by
  simp only [renderPlain, renderPlain.keep, renderEscaped, renderUnescaped, bind_assoc]
  apply LooksAlike.after
  intro value
  simp only [plain, idle, offer_empty, pure_bind]
  cases scalar : value.isScalar with
  | false =>
      have spoken : isSilent value = false := by
        cases value <;> first | rfl | cases scalar
      apply LooksAlike.pure
      simp [spoken, Value.decoded_of_compound scalar]
  | true =>
      cases silent : isSilent value with
      | true =>
          apply LooksAlike.pure
          rfl
      | false =>
          by_cases blank : value = .text ""
          · subst blank
            apply LooksAlike.pure
            rfl
          · simp only [Bool.false_eq_true, if_false]
            apply LooksAlike.pure
            rfl

/-- What is seen of a variable without escaping and pragmas. -/
def shownVariable (view : Value) (name : String) : Action (Piece × ActivePragmas) := do
  let value ← find view name
  return ((Value.text (if isSilent value then "" else value.decoded)).asJoined, .empty)

theorem shown_variable {setting : Setting} (plain : setting.escape = Escaper.none)
    (block : BlockRenderer) {scope : Scope} (idle : scope.active = .empty) {name : String}
    {token : Token} (either : token = .escaped name ∨ token = .unescaped name) :
    Written.shown <$> renderPlain setting block scope token = shownVariable scope.view name := by
  have unescaped : Written.shown <$> renderPlain setting block scope (.unescaped name) =
      shownVariable scope.view name := by
    simp only [renderPlain, renderPlain.keep, renderUnescaped, map_bind, bind_assoc, map_pure,
      pure_bind, idle]
    rfl
  rcases either with rfl | rfl
  · exact (renderPlain_escaped plain block idle name).trans unescaped
  · exact unescaped

/-- How a callback has a text rendered. -/
def renderText (setting : Setting) (block : BlockRenderer) (scope : Scope) (text : String) :
    Action String :=
  match setting.home with
  | none => pure text
  | some home => do
      let tokens ← compile home.library none text
      let rendered ← block (scope.descend scope.view) tokens
      return rendered.text

/-- Something that rendering comes by. -/
inductive Encounter where
  | token (token : Token)
  | view (view : Value)
  /-- A value that the name of a section stands for, whose text is the template. -/
  | subject (template : String) (value : Value)
  | reply (reply : Reply)
  | cache (cache : Cache)

/-- A call of the renderer. -/
structure Rendering where
  setting : Setting
  tokens : Tokens
  view : Value
  aliases : Table Tokens
  /-- What the cache is when the call begins. -/
  cache : Cache

namespace Rendering

variable (call : Rendering)

/-- In which scopes the blocks of a call are rendered that activates no pragmas. -/
def scope (view : Value) (depth : Nat) : Scope := ⟨view, call.aliases, .empty, depth⟩

/-- What asks for tokens, and how it gets them: a partial without an alias by its name, a callback
by a text. -/
inductive Fetches : Encounter → Action Tokens → Prop where
  | included {name : String} {home : Home} (unknown : call.aliases.get? name = none)
      (settled : call.setting.home = some home) :
      Fetches (.token (.partialNamed name)) (tokenize home.library true name)
  | asked {text : String} {next : String → Reply} {home : Home}
      (settled : call.setting.home = some home) :
      Fetches (.reply (.renders text next)) (compile home.library none text)

/-- What a call comes by: its tokens, those nested in them, those of its partials and those of the
texts that callbacks have rendered. Callbacks are what the names of sections stand for in the views
that these lead to. -/
inductive Comes : Encounter → Prop where
  | given {token : Token} (member : token ∈ call.tokens) : Comes (.token token)
  | nested {token outer : Token} {inner : Tokens} (around : Comes (.token outer))
      (encloses : outer.enclosed? = some inner) (member : token ∈ inner) : Comes (.token token)
  | aliased {token : Token} {name : String} {others : Tokens}
      (included : Comes (.token (.partialNamed name)))
      (known : call.aliases.get? name = some others) (member : token ∈ others) :
      Comes (.token token)
  | fetched {asking : Encounter} {action : Action Tokens} {store after : Store} {token : Token}
      {others : Tokens} (met : Comes asking) (fetches : call.Fetches asking action)
      (reached : Comes (.cache store.cache)) (run : action store = .ok others after)
      (member : token ∈ others) : Comes (.token token)
  | root : Comes (.view call.view)
  | looked {name template : String} {content : Tokens} {view value : Value} {store after : Store}
      (met : Comes (.token (.block name content template))) (viewed : Comes (.view view))
      (finds : find view name store = .ok value after) : Comes (.subject template value)
  | entered {template : String} {value : Value} (met : Comes (.subject template value))
      (opens : value.kind = .ok .map ∨ value.kind = .ok .object) : Comes (.view value)
  | item {template : String} {value item : Value} {items : List Value} {store after : Store}
      (met : Comes (.subject template value)) (listed : value.kind = .ok .list)
      (takes : takeItems value store = .ok items after) (member : item ∈ items) :
      Comes (.view item)
  | called {template : String} {callback : Value} (met : Comes (.subject template callback))
      (callable : callback.kind = .ok .callable) :
      Comes (.reply (callback.invoke [.value (.text template), .renderer]))
  | answered {text rendered : String} {next : String → Reply} {view : Value} {levels depth : Nat}
      {store after : Store} (met : Comes (.reply (.renders text next)))
      (viewed : Comes (.view view)) (reached : Comes (.cache store.cache))
      (run : renderText call.setting (renderWithin call.setting levels) (call.scope view depth) text
        store = .ok rendered after) : Comes (.reply (next rendered))
  | begun : Comes (.cache call.cache)
  | searched {asking : Encounter} {action : Action Tokens} {store : Store} (met : Comes asking)
      (fetches : call.Fetches asking action) (reached : Comes (.cache store.cache)) :
      Comes (.cache (final (action store)).cache)

/-- The states in which a call may find the cache. -/
abbrev Reached (store : Store) : Prop := call.Comes (.cache store.cache)

theorem lawful_reached : Lawful (Keeps call.Reached) := lawful_keeps fun _ _ kept => kept

/-- The scopes of the same call with the escaped variables of its aliases replaced. -/
def bareScope (view : Value) (depth : Nat) : Scope :=
  ⟨view, call.aliases.map Tokens.unescape, .empty, depth⟩

/-- Tokens that are the same but for escaping, the latter of them ones that the call comes by. -/
def Twins (left right : Tokens) : Prop :=
  Tokens.unescape left = Tokens.unescape right ∧ ∀ token ∈ right, call.Comes (.token token)

/-- Whether blocks of so many levels end in the same way where they are the same but for
escaping. -/
def Nests (levels : Nat) : Prop :=
  ∀ (view : Value) (depth : Nat) (left right : Tokens), call.Comes (.view view) →
    call.Twins left right →
      Tallies call.Reached (fun rendered given => rendered = given ∧ given.active = .empty)
        (renderWithin call.setting levels (call.bareScope view depth) left)
        (renderWithin call.setting levels (call.scope view depth) right)

section

variable {call}

theorem takeItems_reached {template : String} {value : Value}
    (met : call.Comes (.subject template value)) (listed : value.kind = .ok .list) :
    Keeps call.Reached (List Value) (fun items => ∀ item ∈ items, call.Comes (.view item))
      (takeItems value) := by
  apply call.lawful_reached.weaken (keeps_takeItems (fun _ _ kept => kept) value)
  rintro items ⟨store, after, run⟩ item member
  exact .item met listed run member

theorem fetches_reached {asking : Encounter} {action : Action Tokens} (met : call.Comes asking)
    (fetches : call.Fetches asking action) :
    Keeps call.Reached Tokens (fun others => ∀ token ∈ others, call.Comes (.token token))
      action := by
  intro store kept
  apply And.intro
  · exact .searched met fetches kept
  · intro others after run token member
    exact .fetched met fetches kept run member

theorem fetches_tallies {asking : Encounter} {action : Action Tokens} (met : call.Comes asking)
    (fetches : call.Fetches asking action) :
    Tallies call.Reached call.Twins action action := by
  apply (Tallies.of_keeps (fetches_reached met fetches)).weaken
  rintro others _ ⟨rfl, comes⟩
  exact ⟨rfl, comes⟩

theorem partialTokens_tallies {name : String} (met : call.Comes (.token (.partialNamed name)))
    (view : Value) (depth : Nat) :
    Tallies call.Reached call.Twins (partialTokens call.setting (call.bareScope view depth) name)
      (partialTokens call.setting (call.scope view depth) name) := by
  simp only [partialTokens, bareScope, scope, Table.get?_map]
  have reports (event : Event) := Tallies.of_keeps (call.lawful_reached.report event)
  cases known : call.aliases.get? name with
  | some others =>
      apply (reports (.aliased name)).andThen
      intro _ _ _
      exact .pure ⟨Tokens.unescape_unescape others, fun token member => .aliased met known member⟩
  | none =>
      cases settled : call.setting.home with
      | none => exact .throw _
      | some home =>
          apply (reports (.included name)).andThen
          intro _ _ _
          exact fetches_tallies met (.included known settled)

section

variable {levels : Nat} (nests : call.Nests levels) {view : Value}

include nests

theorem renderNested_tallies (viewed : call.Comes (.view view)) {left right : Tokens}
    (twins : call.Twins left right) (outer : Value) (depth : Nat) :
    Tallies call.Reached Eq
      (renderNested (renderWithin call.setting levels) (call.bareScope outer depth) view left)
      (renderNested (renderWithin call.setting levels) (call.scope outer depth) view right) := by
  apply (nests view (depth + 1) left right viewed twins).andThen
  rintro rendered _ ⟨rfl, -⟩
  exact .pure rfl

theorem renderItems_tallies {items : List Value}
    (viewed : ∀ item ∈ items, call.Comes (.view item)) {left right : Tokens}
    (twins : call.Twins left right) (depth : Nat) :
    Tallies call.Reached Eq
      (renderItems (renderWithin call.setting levels) (call.bareScope view depth) left items)
      (renderItems (renderWithin call.setting levels) (call.scope view depth) right items) := by
  induction items with
  | nil => exact .pure rfl
  | cons item rest ih =>
      rw [List.forall_mem_cons] at viewed
      apply (nests item (depth + 1) left right viewed.1 twins).andThen
      rintro rendered _ ⟨rfl, -⟩
      apply (ih viewed.2).andThen
      rintro texts _ rfl
      exact .pure rfl

section

variable (viewed : call.Comes (.view view))

include viewed

theorem renderText_tallies {text : String} {next : String → Reply}
    (asked : call.Comes (.reply (.renders text next))) (depth : Nat) :
    Tallies call.Reached (fun result given => result = given ∧ call.Comes (.reply (next given)))
      (renderText call.setting (renderWithin call.setting levels) (call.bareScope view depth) text)
      (renderText call.setting (renderWithin call.setting levels) (call.scope view depth) text) := by
  have ends : Tallies call.Reached Eq
      (renderText call.setting (renderWithin call.setting levels) (call.bareScope view depth) text)
      (renderText call.setting (renderWithin call.setting levels) (call.scope view depth)
        text) := by
    unfold renderText
    cases settled : call.setting.home with
    | none => exact .pure rfl
    | some home =>
        apply (fetches_tallies asked (.asked settled)).andThen
        intro left right twins
        apply (nests view (depth + 1) left right viewed twins).andThen
        rintro rendered _ ⟨rfl, -⟩
        exact .pure rfl
  -- What the callback asks for next depends on the rendered text, so the run is kept in mind.
  apply ends.ran.weaken
  rintro rendered _ ⟨rfl, store, after, reached, run⟩
  exact ⟨rfl, .answered asked viewed reached run⟩

/-- Rendering is asked for the same texts and gives the same, one after the other. -/
theorem runReply_tallies (depth : Nat) : (reply : Reply) → call.Comes (.reply reply) →
    Tallies call.Reached Eq
      (runReply (renderText call.setting (renderWithin call.setting levels)
        (call.bareScope view depth)) reply)
      (runReply (renderText call.setting (renderWithin call.setting levels)
        (call.scope view depth)) reply)
  | .gives value, _ => .pure rfl
  | .raises trouble, _ => .throw _
  | .renders text next, met => by
      apply (renderText_tallies nests viewed met depth).andThen
      rintro rendered _ ⟨rfl, later⟩
      exact runReply_tallies depth (next rendered) later

theorem renderCallback_tallies {template : String} {callback : Value}
    (met : call.Comes (.subject template callback)) (callable : callback.kind = .ok .callable)
    (name : String) (depth : Nat) :
    Tallies call.Reached Eq
      (renderCallback call.setting (renderWithin call.setting levels) (call.bareScope view depth)
        name template callback)
      (renderCallback call.setting (renderWithin call.setting levels) (call.scope view depth)
        name template callback) := by
  have notes : Keeps call.Reached Unit (fun _ => True) (note (callback.changes (some template))) :=
    fun _ kept => ⟨kept, fun _ _ _ => trivial⟩
  apply (Tallies.of_keeps (call.lawful_reached.report (.handedOver name))).andThen
  intro _ _ _
  apply (Tallies.of_keeps notes).andThen
  intro _ _ _
  apply (runReply_tallies nests viewed depth _ (.called met callable)).andThen
  rintro result _ rfl
  exact .pure rfl

theorem renderBlock_tallies {name template : String} {left right : Tokens}
    (met : call.Comes (.token (.block name right template)))
    (same : Tokens.unescape left = Tokens.unescape right) (depth : Nat) :
    Tallies call.Reached Eq
      (renderBlock call.setting (renderWithin call.setting levels) (call.bareScope view depth)
        name left template)
      (renderBlock call.setting (renderWithin call.setting levels) (call.scope view depth)
        name right template) := by
  have twins : call.Twins left right := ⟨same, fun token member => .nested met rfl member⟩
  have around := renderNested_tallies nests viewed twins view depth
  apply Tallies.guarded rfl
  apply (Tallies.of_keeps (keeps_find (fun _ _ kept => kept) view name)).andThen
  rintro value _ ⟨rfl, store, after, finds⟩
  have subject : call.Comes (.subject template value) := .looked met viewed finds
  apply Tallies.guarded rfl
  split
  · exact around
  · have kinds : Keeps call.Reached Kind (fun kind => value.kind = .ok kind)
        (Action.ofView value.kind) := .ofView fun _ known => known
    apply (Tallies.of_keeps kinds).andThen
    rintro kind _ ⟨rfl, known⟩
    cases kind with
    | list =>
        apply (Tallies.of_keeps (takeItems_reached subject known)).andThen
        rintro items _ ⟨rfl, inside⟩
        apply (renderItems_tallies nests inside twins depth).andThen
        rintro texts _ rfl
        exact .pure rfl
    | map => exact renderNested_tallies nests (.entered subject (.inl known)) twins view depth
    | object => exact renderNested_tallies nests (.entered subject (.inr known)) twins view depth
    | callable => exact renderCallback_tallies nests viewed subject known name depth
    | scalar | «sealed» => exact around

theorem renderInverted_tallies {name : String} {left right : Tokens}
    (twins : call.Twins left right) (depth : Nat) :
    Tallies call.Reached Eq
      (renderInverted (renderWithin call.setting levels) (call.bareScope view depth) name left)
      (renderInverted (renderWithin call.setting levels) (call.scope view depth) name right) := by
  have around := renderNested_tallies nests viewed twins view depth
  apply Tallies.guarded rfl
  apply (Tallies.of_keeps (keeps_find (fun _ _ kept => kept) view name)).andThen
  rintro value _ ⟨rfl, -⟩
  exact .guarded rfl around

theorem renderPartial_tallies {left right : Action Tokens}
    (found : Tallies call.Reached call.Twins left right) (depth : Nat) :
    Tallies call.Reached Eq
      (renderPartial (renderWithin call.setting levels) (call.bareScope view depth) left)
      (renderPartial (renderWithin call.setting levels) (call.scope view depth) right) := by
  apply Tallies.guarded rfl
  apply found.andThen
  intro tokens others twins
  apply (nests view (depth + 1) tokens others viewed twins).andThen
  rintro rendered _ ⟨rfl, -⟩
  exact .pure rfl

end

omit nests in
/-- A variable on either side, whichever of the two kinds it is. -/
theorem variable_tallies (plain : call.setting.escape = Escaper.none) (name : String) (depth : Nat)
    {left right : Token} (first : left = .escaped name ∨ left = .unescaped name)
    (second : right = .escaped name ∨ right = .unescaped name) :
    Tallies call.Reached Written.Agree
      (renderPlain call.setting (renderWithin call.setting levels) (call.bareScope view depth) left)
      (renderPlain call.setting (renderWithin call.setting levels) (call.scope view depth)
        right) := by
  have lawful := call.lawful_reached
  have keeps : Keeps call.Reached (Piece × ActivePragmas) (fun shown => shown.2 = .empty)
      (shownVariable view name) := by
    apply lawful.andThen (keeps_find (fun _ _ kept => kept) view name)
    intro _ _
    exact lawful.gives rfl
  have idle : (call.bareScope view depth).active = .empty := rfl
  have also : (call.scope view depth).active = .empty := rfl
  exact .of_seen (shown_variable plain _ idle first) (shown_variable plain _ also second) keeps

theorem renderPlain_tallies (plain : call.setting.escape = Escaper.none)
    (viewed : call.Comes (.view view)) {left right : Token} (met : call.Comes (.token right))
    (quiet : right.kind ≠ .pragma) (same : left.unescape = right.unescape) (depth : Nat) :
    Tallies call.Reached Written.Agree
      (renderPlain call.setting (renderWithin call.setting levels) (call.bareScope view depth) left)
      (renderPlain call.setting (renderWithin call.setting levels) (call.scope view depth)
        right) := by
  have keep {text other : Action String} (texts : Tallies call.Reached Eq text other) :
      Tallies call.Reached Written.Agree (renderPlain.keep (call.bareScope view depth) text)
        (renderPlain.keep (call.scope view depth) other) := by
    apply texts.andThen
    rintro written _ rfl
    exact .pure ⟨rfl, rfl⟩
  have within {inner content : Tokens} (encloses : right.enclosed? = some content)
      (alike : Tokens.unescape inner = Tokens.unescape content) : call.Twins inner content :=
    ⟨alike, fun token member => .nested met encloses member⟩
  -- Which token stands on the left follows from the right one, except for a variable.
  cases right with
  | escaped name | unescaped name =>
      apply variable_tallies plain name depth
      · cases left <;> simp_all [Token.unescape]
      · simp
  | block name content template =>
      cases left <;> simp only [Token.unescape, reduceCtorEq, Token.block.injEq] at same
      obtain ⟨rfl, alike, rfl⟩ := same
      exact keep (renderBlock_tallies nests viewed met alike depth)
  | inverted name content =>
      cases left <;> simp only [Token.unescape, reduceCtorEq, Token.inverted.injEq] at same
      obtain ⟨rfl, alike⟩ := same
      exact keep (renderInverted_tallies nests viewed (within rfl alike) depth)
  | placeholder name content =>
      cases left <;> simp only [Token.unescape, reduceCtorEq, Token.placeholder.injEq] at same
      apply Tallies.guarded ⟨rfl, rfl⟩
      apply (nests view (depth + 1) _ content viewed (within rfl same.2)).andThen
      rintro rendered _ ⟨rfl, idle⟩
      exact .pure ⟨rfl, idle⟩
  | partialKnown content =>
      cases left <;> simp only [Token.unescape, reduceCtorEq, Token.partialKnown.injEq] at same
      exact keep (renderPartial_tallies nests viewed (.pure (within rfl same)) depth)
  | partialNamed name =>
      cases left <;> simp only [Token.unescape, reduceCtorEq, Token.partialNamed.injEq] at same
      subst same
      exact keep (renderPartial_tallies nests viewed (partialTokens_tallies met view depth) depth)
  | pragma name options => exact absurd rfl quiet
  | content text =>
      cases left <;> simp only [Token.unescape, reduceCtorEq, Token.content.injEq] at same
      subst same
      exact .pure ⟨rfl, rfl⟩
  | delimiters opening closing =>
      cases left <;> simp only [Token.unescape, reduceCtorEq] at same
      exact .pure ⟨rfl, rfl⟩
  | comment text =>
      cases left <;> simp only [Token.unescape, reduceCtorEq] at same
      exact .pure ⟨rfl, rfl⟩

section

variable (plain : call.setting.escape = Escaper.none) (viewed : call.Comes (.view view))
  (quiet : ∀ token, call.Comes (.token token) → token.kind ≠ .pragma)

include plain viewed quiet

theorem renderToken_tallies {left right : Token} (met : call.Comes (.token right))
    (same : left.unescape = right.unescape) (depth : Nat) :
    Tallies call.Reached Written.Agree
      (renderToken call.setting (renderWithin call.setting levels) (call.bareScope view depth) left)
      (renderToken call.setting (renderWithin call.setting levels) (call.scope view depth)
        right) := by
  have asked := renderPlain_tallies nests plain viewed met (quiet right met) same depth
  simpa only [renderToken, bareScope, scope, offer_empty, pure_bind] using asked

theorem renderPieces_tallies {left right : Tokens} (twins : call.Twins left right) (depth : Nat) :
    Tallies call.Reached
      (fun result given => result.1.map Value.asJoined = given.1.map Value.asJoined ∧
        result.2 = .empty ∧ given.2 = .empty)
      (renderPieces call.setting (renderWithin call.setting levels) (call.bareScope view depth)
        left)
      (renderPieces call.setting (renderWithin call.setting levels) (call.scope view depth)
        right) := by
  induction right generalizing left with
  | nil =>
      cases left with
      | nil => exact .pure ⟨rfl, rfl, rfl⟩
      | cons => simp [Twins, Tokens.unescape] at twins
  | cons right others ih =>
      cases left with
      | nil => simp [Twins, Tokens.unescape] at twins
      | cons left rest =>
          obtain ⟨same, met⟩ := twins
          simp only [Tokens.unescape, List.cons.injEq] at same
          rw [List.forall_mem_cons] at met
          apply (renderToken_tallies nests plain viewed quiet met.1 same.1 depth).andThen
          rintro ⟨piece, active⟩ ⟨given, idle⟩ ⟨alike, here⟩
          simp only [Written.shown, Prod.mk.injEq] at alike here
          obtain ⟨shown, rfl⟩ := alike
          subst here
          apply (ih ⟨same.2, met.2⟩).andThen
          rintro ⟨pieces, _⟩ ⟨givens, _⟩ ⟨others, later⟩
          exact .pure ⟨by simp [shown, others], later⟩

theorem renderTokens_tallies {left right : Tokens} (twins : call.Twins left right) (depth : Nat) :
    Tallies call.Reached (fun rendered given => rendered = given ∧ given.active = .empty)
      (renderTokens call.setting (renderWithin call.setting levels) (call.bareScope view depth)
        left)
      (renderTokens call.setting (renderWithin call.setting levels) (call.scope view depth)
        right) := by
  apply (renderPieces_tallies nests plain viewed quiet twins depth).andThen
  rintro ⟨pieces, active⟩ ⟨givens, idle⟩ ⟨same, here, also⟩
  simp only at same here also
  subst here also
  have joined : joinPieces pieces = joinPieces givens := by
    rw [← joinPieces_asJoined pieces, same, joinPieces_asJoined]
  simp only [joined]
  have joins : Keeps call.Reached String (fun _ => True) (Action.ofView (joinPieces givens)) :=
    .ofView fun _ _ => trivial
  apply (Tallies.of_keeps joins).andThen
  rintro text _ ⟨rfl, -⟩
  exact .pure ⟨rfl, rfl⟩

end

end

/-- Blocks of any number of levels end in the same way where they are the same but for escaping. -/
theorem nests (plain : call.setting.escape = Escaper.none)
    (quiet : ∀ token, call.Comes (.token token) → token.kind ≠ .pragma) (levels : Nat) :
    call.Nests levels := by
  induction levels with
  | zero => exact fun _ _ _ _ _ _ => .throw .endless
  | succ levels ih =>
      intro view depth left right viewed twins
      cases allowed : call.setting.exceeds depth with
      | some limit =>
          rw [renderWithin_refused allowed, renderWithin_refused allowed]
          exact .throw _
      | none =>
          rw [renderWithin_entered allowed, renderWithin_entered allowed]
          have enters : Keeps call.Reached Unit (fun _ => True) (Action.enter depth) :=
            fun _ kept => ⟨kept, fun _ _ _ => trivial⟩
          apply (Tallies.of_keeps enters).andThen
          intro _ _ _
          exact renderTokens_tallies ih plain viewed quiet twins depth

end

end Rendering

namespace Rendering

/-- A callback that has the text of its section rendered. -/
def echo : Value :=
  .function false (.mk ⟨2, 0, false⟩ (.answers (.renders · fun rendered => .gives (.text rendered))))

/-- A section over such a callback, and a partial with an alias. -/
def echoing : Rendering where
  setting := ⟨some ⟨.empty, ⟨fun _ => .absent, 1⟩, .none⟩, .none, some 4, 1⟩
  tokens := [.block "f" [.escaped "x"] "\x7b\x7bx\x7d\x7d", .partialNamed "p"]
  view := .mapping [(.text "f", echo), (.text "x", .bytes [60])]
  aliases := ⟨[("p", [.escaped "x"])]⟩
  cache := .empty

def EchoingMeets : Encounter → Prop
  | .token token => token ∈ .escaped "x" :: echoing.tokens
  | .view view => view = echoing.view
  | .subject template value => template = "\x7b\x7bx\x7d\x7d" ∧ value = echo
  | .reply (.renders text next) =>
      text = "\x7b\x7bx\x7d\x7d" ∧ ∀ rendered, next rendered = .gives (.text rendered)
  | _ => True

theorem compile_echoed (library : Library) {others : Tokens} {store after : Store}
    (run : compile library none "\x7b\x7bx\x7d\x7d" store = .ok others after) :
    others = [.escaped "x"] := by
  have scanned : Scan.ofText "\x7b\x7bx\x7d\x7d".toList =
      .tagged [] ⟨.escaped, "x", [], "\x7b\x7bx\x7d\x7d".toList, [], ⟨1, 1⟩⟩ (.finished []) := by
    decide +kernel
  have plain : ∀ tag ∈ (Scan.ofText "\x7b\x7bx\x7d\x7d".toList).tags, tag.sigil ≠ .parent := by
    rw [scanned]
    simp [Scan.tags]
  rw [compile, compileText_eq _ none store plain, scanned] at run
  cases run
  rfl

theorem echoing_meets {thing : Encounter} (comes : echoing.Comes thing) : EchoingMeets thing := by
  have known {name : String} (met : EchoingMeets (.token (.partialNamed name))) :
      echoing.aliases.get? name = some [.escaped "x"] := by
    have named : name = "p" := by simpa [EchoingMeets, echoing] using met
    rw [named]
    rfl
  induction comes with
  | given member => exact .tail _ member
  | nested _ encloses member met =>
      have inner : ∀ outer ∈ Token.escaped "x" :: echoing.tokens,
          ∀ token ∈ outer.enclosed?.getD [], token = .escaped "x" := by
        simp [echoing, Token.enclosed?]
      have same := inner _ met _ (by rwa [encloses])
      rw [same]
      exact .head _
  | aliased _ named member met =>
      rw [known met] at named
      cases named
      rw [List.mem_singleton.mp member]
      exact .head _
  | fetched _ fetches _ run member met =>
      cases fetches with
      | included unknown =>
          rw [known met] at unknown
          cases unknown
      | asked =>
          obtain ⟨rfl, -⟩ := met
          rw [compile_echoed _ run] at member
          rw [List.mem_singleton.mp member]
          exact .head _
  | root => rfl
  | looked _ _ finds met viewed =>
      have block := by simpa [EchoingMeets, echoing] using met
      obtain ⟨rfl, -, rfl⟩ := block
      have found : Value.lookup "f" echoing.view = .ok (.present echo) := rfl
      rw [viewed, find_present rfl found] at finds
      cases finds
      exact ⟨rfl, rfl⟩
  | entered _ opens met =>
      rw [met.2] at opens
      simp [Value.kind, Value.plain, Value.opened, echo] at opens
  | item _ listed _ _ met =>
      rw [met.2] at listed
      cases listed
  | called _ _ met =>
      rw [met.1, met.2]
      exact ⟨rfl, fun _ => rfl⟩
  | answered _ _ _ _ met =>
      rw [met.2]
      trivial
  | begun | searched => trivial

end Rendering

end Logicless
