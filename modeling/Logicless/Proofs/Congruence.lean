import Logicless.Proofs.Run
import Logicless.Render

namespace Logicless

/-!
What compiling and rendering are made of, said once for all laws about them.

Compiling a text makes reports, fails, and asks for the tokens of the templates that it inherits
from. Rendering a block also looks names up in the view, takes the items of values, and renders the
blocks nested in it. A relation between computations that holds of each of these and passes to
sequences (`Sequential`, `Congruence`) holds between two renderings of a block, if it holds between
what their settings find under the names of templates and between the blocks nested in it
(`renderTokens_related`). A law that compares two runs of the renderer is an instance, and so is a
law about what no run does.
-/

abbrev ActionRelation := (α : Type) → Action α → Action α → Prop

structure Sequential (R : ActionRelation) : Prop where
  gives {α : Type} (result : α) : R α (pure result) (pure result)
  fails {α : Type} (fault : Fault) (ends : fault ≠ .endless) : R α (throw fault) (throw fault)
  andThen {α β : Type} {first other : Action α} {next later : α → Action β} :
    R α first other → (∀ result, R β (next result) (later result)) →
      R β (first >>= next) (other >>= later)
  reports (events : List Event) : R Unit (Action.reportAll events) (Action.reportAll events)

/-- A computation that reads and changes nothing but what is known of the view. -/
def Action.onMemory {α : Type} (step : Memory → Except Trouble α × Memory) : Action α := fun store =>
  match step store.memory with
  | (.ok result, memory) => .ok result { store with memory }
  | (.error trouble, memory) => .error (.trouble trouble) { store with memory }

theorem look_eq_onMemory (view : Value) :
    look view = .onMemory fun memory => (.ok (memory.current view), memory) := rfl

theorem note_eq_onMemory (changes : List Change) :
    note changes = .onMemory fun memory => (.ok (), memory.note changes) := rfl

theorem build_eq_onMemory (value : Value) :
    build value = .onMemory fun memory => ((memory.build value).map .ok id) := rfl

theorem takeItems_eq_onMemory (value : Value) :
    takeItems value = .onMemory fun memory =>
      match memory.take value with
      | .ok taken => taken.map .ok id
      | .error trouble => (.error trouble, memory) := by
  funext store
  rw [takeItems, get_bind, Action.onMemory]
  cases store.memory.take value <;> rfl

structure Congruence (R : ActionRelation) : Prop extends Sequential R where
  minds {α : Type} (step : Memory → Except Trouble α × Memory) :
    R α (Action.onMemory step) (Action.onMemory step)

theorem congruence_eq : Congruence fun _ left right => left = right where
  gives _ := rfl
  fails _ _ := rfl
  andThen := by
    intro α β first other next later same continued
    rw [same, funext continued]
  reports _ := rfl
  minds _ := rfl

theorem Sequential.report {R : ActionRelation} (sequential : Sequential R) (event : Event) :
    R Unit (Action.report event) (Action.report event) :=
  sequential.reports [event]

theorem Sequential.ofView {R : ActionRelation} (sequential : Sequential R) {α : Type}
    (result : Except Trouble α) : R α (Action.ofView result) (Action.ofView result) := by
  cases result with
  | ok value => exact sequential.gives value
  | error trouble => exact sequential.fails _ (by simp)

namespace Congruence

variable {R : ActionRelation} (congruence : Congruence R)

include congruence

theorem looks (view : Value) : R Value (look view) (look view) := by
  rw [look_eq_onMemory]
  exact congruence.minds _

theorem notes (changes : List Change) : R Unit (note changes) (note changes) := by
  rw [note_eq_onMemory]
  exact congruence.minds _

theorem builds (value : Value) : R Value (build value) (build value) := by
  rw [build_eq_onMemory]
  exact congruence.minds _

theorem takes (value : Value) : R (List Value) (takeItems value) (takeItems value) := by
  rw [takeItems_eq_onMemory]
  exact congruence.minds _

theorem finds (view : Value) (name : String) : R Value (find view name) (find view name) := by
  refine congruence.andThen (congruence.looks view) fun now => ?_
  refine congruence.andThen (congruence.toSequential.ofView _) fun found => ?_
  refine congruence.andThen (congruence.notes found.changes) fun _ => ?_
  split
  · exact congruence.builds _
  · exact congruence.gives _

end Congruence

/-- What a name stands for, with the calls on the way noted; what a call gave is built anew. -/
def Memory.settle (memory : Memory) (found : Found) : Value × Memory :=
  let noted := memory.note found.changes
  if found.fresh then noted.build found.value else (found.value, noted)

theorem find_of_ok {view : Value} {name : String} {store : Store} {found : Found}
    (known : (store.memory.current view).lookup name = .ok found) :
    find view name store =
      .ok (store.memory.settle found).1 { store with memory := (store.memory.settle found).2 } := by
  obtain ⟨value, fresh, changes⟩ := found
  rw [find, look, bind_assoc, get_bind, pure_bind, known]
  cases fresh <;> rfl

theorem find_of_error {view : Value} {name : String} {store : Store} {trouble : Trouble}
    (failed : (store.memory.current view).lookup name = .error trouble) :
    find view name store = .error (.trouble trouble) store := by
  rw [find, look, bind_assoc, get_bind, pure_bind, failed]
  rfl

theorem takeItems_of_ok {value : Value} {store : Store} {items : List Value} {memory : Memory}
    (taken : store.memory.take value = .ok (items, memory)) :
    takeItems value store = .ok items { store with memory } := by
  rw [takeItems, get_bind, taken]
  rfl

theorem takeItems_of_error {value : Value} {store : Store} {trouble : Trouble}
    (failed : store.memory.take value = .error trouble) :
    takeItems value store = .error (.trouble trouble) store := by
  rw [takeItems, get_bind, failed]
  rfl

/-- Computations that end in the same way from states that are alike, and leave such behind. -/
def EndsAlike (alike : Store → Store → Prop) : ActionRelation := fun _ left right =>
  ∀ store other, alike store other →
    outcome (left store) = outcome (right other) ∧
      alike (final (left store)) (final (right other))

/-- Only what the first computation gives needs to go on alike. -/
theorem EndsAlike.andThen {alike : Store → Store → Prop} {α β : Type} {first other : Action α}
    {next later : α → Action β} (begins : EndsAlike alike α first other)
    (continues : ∀ store result after, first store = .ok result after →
      EndsAlike alike β (next result) (later result)) :
    EndsAlike alike β (first >>= next) (other >>= later) := by
  intro store second same
  obtain ⟨ended, still⟩ := begins store second same
  cases run : first store with
  | error fault after =>
      rw [run] at ended still
      obtain ⟨otherAfter, otherRun⟩ := error_of_outcome ended.symm
      rw [otherRun] at still
      rw [bind_of_error run, bind_of_error otherRun]
      exact ⟨rfl, still⟩
  | ok result after =>
      rw [run] at ended still
      obtain ⟨otherAfter, otherRun⟩ := ok_of_outcome ended.symm
      rw [otherRun] at still
      rw [bind_of_ok run, bind_of_ok otherRun]
      exact continues store result after run after otherAfter still

section

variable {alike : Store → Store → Prop}
  (reported : ∀ (store other : Store) (reports others : List Event), alike store other →
    alike { store with reports } { other with reports := others })

include reported

theorem sequential_endsAlike : Sequential (EndsAlike alike) where
  gives _ _ _ same := ⟨rfl, same⟩
  fails _ _ _ _ same := ⟨rfl, same⟩
  andThen begins continues := begins.andThen fun _ result _ _ => continues result
  reports _ _ _ same := ⟨rfl, reported _ _ _ _ same⟩

theorem congruence_endsAlike
    (memory : ∀ store other, alike store other → store.memory = other.memory)
    (moved : ∀ (store other : Store) (memory : Memory), alike store other →
      alike { store with memory } { other with memory }) : Congruence (EndsAlike alike) where
  toSequential := sequential_endsAlike reported
  minds step := by
    intro store other same
    simp only [Action.onMemory, memory store other same]
    cases step other.memory with
    | mk result memory => cases result <;> exact ⟨rfl, moved _ _ _ same⟩

end

/-- Computations that end in the same state, and in the same fault or in results that look the
same. -/
def LooksAlike {α β : Type} (seen : α → β) (left right : Action α) : Prop :=
  seen <$> left = seen <$> right

namespace LooksAlike

variable {α β γ δ : Type} {seen : α → β} {shown : γ → δ} {first other : Action α}
  {next later : α → Action γ}

theorem bind_eq_at {store : Store} (begins : (seen <$> first) store = (seen <$> other) store)
    (continues : ∀ result given, seen result = seen given → next result = later given) :
    (first >>= next) store = (other >>= later) store := by
  cases run : first store with
  | ok result after =>
      cases also : other store with
      | error fault reached => simp [map_of_ok run, map_of_error also] at begins
      | ok given reached =>
          simp only [map_of_ok run, map_of_ok also, EStateM.Result.ok.injEq] at begins
          rw [bind_of_ok run, bind_of_ok also, continues result given begins.1, begins.2]
  | error fault after =>
      cases also : other store with
      | ok given reached => simp [map_of_error run, map_of_ok also] at begins
      | error raised reached =>
          simp only [map_of_error run, map_of_error also, EStateM.Result.error.injEq] at begins
          rw [bind_of_error run, bind_of_error also, begins.1, begins.2]

theorem bind_eq (begins : LooksAlike seen first other)
    (continues : ∀ result given, seen result = seen given → next result = later given) :
    first >>= next = other >>= later :=
  funext fun store => bind_eq_at (congrFun begins store) continues

theorem pure {result given : α} (same : seen result = seen given) :
    LooksAlike seen (Pure.pure result) (Pure.pure given) :=
  congrArg (fun shown => (Pure.pure shown : Action β)) same

theorem andThen (begins : LooksAlike seen first other)
    (continues : ∀ result given, seen result = seen given →
      LooksAlike shown (next result) (later given)) :
    LooksAlike shown (first >>= next) (other >>= later) := by
  unfold LooksAlike
  rw [map_bind, map_bind]
  exact begins.bind_eq continues

/-- After the same computation. -/
theorem after (action : Action α)
    (continues : ∀ result, LooksAlike shown (next result) (later result)) :
    LooksAlike shown (action >>= next) (action >>= later) := by
  unfold LooksAlike
  rw [map_bind, map_bind, funext continues]

end LooksAlike

/-- What holds of the piece that a handling gives, whatever tokens it goes on with. -/
def Handling.Gives (holds : Piece → Prop) : Handling → Prop
  | .gives piece => holds piece
  | .raises _ => True
  | .tokenizes _ _ next => ∀ tokens, (next tokens).Gives holds

section

variable {R : ActionRelation}

theorem run_related (sequential : Sequential R) {library other : Library}
    (finds : ∀ keep name, R Tokens (tokenize library keep name) (tokenize other keep name)) :
    (handling : Handling) → R Value (handling.run library) (handling.run other)
  | .gives piece => sequential.gives piece
  | .raises trouble => sequential.fails (.trouble trouble) (by simp)
  | .tokenizes template keep next =>
      sequential.andThen (finds keep template) fun tokens =>
        run_related sequential finds (next tokens)

theorem Handling.run_ofView (library : Library) (result : Except Trouble Value) :
    (ofView result).run library = Action.ofView result := by
  cases result <;> rfl

theorem offerTo_related (congruence : Congruence R) {left right : Home}
    (pragmas : left.pragmas = right.pragmas) (escape : left.escape = right.escape)
    (runs : ∀ name pragma, right.pragmas.get? name = some pragma → ∀ offer, R Value
      ((pragma.render offer).run left.library) ((pragma.render offer).run right.library))
    (kind : Token.Kind) (payload : Payload) (view : Value) (active : List (String × Options)) :
    R (Option Piece) (offerTo left kind payload view active)
      (offerTo right kind payload view active) := by
  induction active with
  | nil => exact congruence.gives none
  | cons entry rest ih =>
      obtain ⟨name, options⟩ := entry
      simp only [offerTo, pragmas, escape]
      cases known : right.pragmas.get? name with
      | none => exact congruence.fails _ (by simp)
      | some pragma =>
          simp only
          split
          · refine congruence.andThen (congruence.looks view) fun now => ?_
            refine congruence.andThen (runs name pragma known _) fun piece => ?_
            split
            · exact congruence.gives _
            · exact ih
          · exact ih

end

/-- Homes that know pragmas of the same names, in which a relation holds between what pragmas make of
offers. -/
inductive Home.Hosts (R : ActionRelation) : Option Home → Option Home → Prop where
  | absent : Hosts R none none
  | present {left right : Home}
      (knows : ∀ name, left.pragmas.contains name = right.pragmas.contains name)
      (offers : ∀ kind payload view active, R (Option Piece)
        (offerTo left kind payload view active) (offerTo right kind payload view active)) :
      Hosts R (some left) (some right)

/-- Homes that host the same, in which a relation holds between what is found under the name of a
template and between what a text compiles to. -/
inductive Home.Related (R : ActionRelation) : Option Home → Option Home → Prop where
  | absent : Related R none none
  | present {left right : Home} (hosts : Home.Hosts R (some left) (some right))
      (finds : ∀ keep name,
        R Tokens (tokenize left.library keep name) (tokenize right.library keep name))
      (compiles : ∀ text,
        R Tokens (compile left.library none text) (compile right.library none text)) :
      Related R (some left) (some right)

structure Setting.Hosts (R : ActionRelation) (left right : Setting) : Prop where
  escape : left.escape = right.escape
  homes : Home.Hosts R left.home right.home

structure Setting.Related (R : ActionRelation) (left right : Setting) : Prop where
  escape : left.escape = right.escape
  homes : Home.Related R left.home right.home

theorem Setting.Related.hosts {R : ActionRelation} {left right : Setting}
    (related : left.Related R right) : left.Hosts R right := by
  refine ⟨related.escape, ?_⟩
  cases left
  cases right
  cases related.homes with
  | absent => exact .absent
  | present hosts => exact hosts

section

variable {R : ActionRelation} (congruence : Congruence R)

include congruence

theorem Home.Hosts.ofRuns {left right : Home} (pragmas : left.pragmas = right.pragmas)
    (escape : left.escape = right.escape)
    (runs : ∀ name pragma, right.pragmas.get? name = some pragma → ∀ offer, R Value
      ((pragma.render offer).run left.library) ((pragma.render offer).run right.library)) :
    Home.Hosts R (some left) (some right) :=
  .present (fun _ => by rw [pragmas]) (offerTo_related congruence pragmas escape runs)

/-- Homes with the same pragmas and escaping are related if their libraries are. -/
theorem Home.Related.ofLibraries {left right : Home} (pragmas : left.pragmas = right.pragmas)
    (escape : left.escape = right.escape)
    (finds : ∀ keep name,
      R Tokens (tokenize left.library keep name) (tokenize right.library keep name))
    (compiles : ∀ text,
      R Tokens (compile left.library none text) (compile right.library none text)) :
    Home.Related R (some left) (some right) :=
  .present (.ofRuns congruence pragmas escape fun _ _ _ _ =>
    run_related congruence.toSequential finds _) finds compiles

theorem Setting.Related.ofSame {left right : Setting}
    (escape : left.escape = right.escape) (homes : left.home = right.home)
    (finds : ∀ library keep name,
      R Tokens (tokenize library keep name) (tokenize library keep name))
    (compiles : ∀ library text, R Tokens (compile library none text) (compile library none text)) :
    left.Related R right := by
  refine ⟨escape, ?_⟩
  rw [homes]
  cases right.home with
  | none => exact .absent
  | some home => exact .ofLibraries congruence rfl rfl (finds home.library) (compiles home.library)

end

/-- The scopes of the blocks that a token opens. -/
def Scope.Opens (scope : Scope) (token : Token) (inner : Scope) : Prop :=
  if token.kind = .partials then inner = scope.enterPartial
  else ∃ view, inner = scope.descend view

theorem Scope.Opens.depth_eq {scope inner : Scope} {token : Token}
    (opens : scope.Opens token inner) :
    inner.depth = scope.depth + 1 := by
  unfold Opens at opens
  split at opens
  · subst opens
    rfl
  · obtain ⟨view, rfl⟩ := opens
    rfl

theorem Scope.Opens.active_eq {scope inner : Scope} {token : Token}
    (opens : scope.Opens token inner) :
    inner.active = if token.kind = .partials then .empty else scope.active := by
  unfold Opens at opens
  split at opens
  · rename_i partials
    rw [if_pos partials, opens, Scope.enterPartial]
  · rename_i plain
    obtain ⟨view, rfl⟩ := opens
    rw [if_neg plain, Scope.descend]

theorem renderWithin_entered {setting : Setting} {scope : Scope}
    (allowed : setting.exceeds scope.depth = none) (fuel : Nat) (tokens : Tokens) :
    renderWithin setting (fuel + 1) scope tokens = (do
      Action.enter scope.depth
      renderTokens setting (renderWithin setting fuel) scope tokens) := by
  simp only [renderWithin, allowed]

theorem renderWithin_begun {setting : Setting} {scope : Scope}
    (allowed : setting.exceeds scope.depth = none) (fuel : Nat) (tokens : Tokens) (store : Store) :
    renderWithin setting (fuel + 1) scope tokens store =
      renderTokens setting (renderWithin setting fuel) scope tokens
        { store with deepest := max store.deepest scope.depth } := by
  rw [renderWithin_entered allowed]
  rfl

theorem renderWithin_refused {setting : Setting} {scope : Scope} {limit : Int}
    (refused : setting.exceeds scope.depth = some limit) (fuel : Nat) (tokens : Tokens) :
    renderWithin setting (fuel + 1) scope tokens = throw (.tooDeep limit) := by
  simp only [renderWithin, refused]

section

variable {R : ActionRelation} (congruence : Congruence R)

include congruence

theorem runReply_related {render other : String → Action String}
    (renders : ∀ text, R String (render text) (other text)) :
    (reply : Reply) → R Value (runReply render reply) (runReply other reply)
  | .gives value => congruence.gives value
  | .raises trouble => congruence.fails (.trouble trouble) (by simp)
  | .renders text next =>
      congruence.andThen (renders text) fun rendered => runReply_related renders (next rendered)

theorem renderUnescaped_related (scope : Scope) (name : String) :
    R String (renderUnescaped scope name) (renderUnescaped scope name) := by
  refine congruence.andThen (congruence.finds scope.view name) fun value => ?_
  exact congruence.gives _

section

variable {left right : Setting} (hosts : left.Hosts R right)

include hosts

theorem offer_related (active : ActivePragmas) (kind : Token.Kind) (payload : Payload)
    (view : Value) :
    R (Option Piece) (left.offer active kind payload view)
      (right.offer active kind payload view) := by
  cases left
  cases right
  cases hosts.homes with
  | absent => exact congruence.gives none
  | present _ offers => exact offers ..

theorem renderEscaped_related (scope : Scope) (name : String) :
    R Piece (renderEscaped left scope name) (renderEscaped right scope name) := by
  refine congruence.andThen (congruence.finds scope.view name) fun value => ?_
  rw [hosts.escape]
  split
  · split
    · exact congruence.gives _
    · split
      · exact congruence.gives _
      · exact congruence.ofView _
  · refine congruence.andThen (offer_related congruence hosts ..) fun handled => ?_
    exact congruence.gives _

theorem activate_related (scope : Scope) (name : String) (options : Options) :
    R ActivePragmas (activate left scope name options) (activate right scope name options) := by
  have activated : R ActivePragmas
      (do Action.report (.activated name options); pure (scope.active.insert name options))
      (do Action.report (.activated name options); pure (scope.active.insert name options)) :=
    congruence.andThen (congruence.report _) fun _ => congruence.gives _
  have refused : R ActivePragmas
      (do throw (.unknownPragma name); Action.report (.activated name options)
          pure (scope.active.insert name options))
      (do throw (.unknownPragma name); Action.report (.activated name options)
          pure (scope.active.insert name options)) :=
    congruence.andThen (congruence.fails _ (by simp)) fun _ => activated
  cases left
  cases right
  cases hosts.homes with
  | absent => exact refused
  | present knows =>
      simp only [activate, knows]
      split
      · exact refused
      · exact activated

end

section

variable {left right : Setting} (related : left.Related R right)

include related

theorem partialTokens_related (scope : Scope) (name : String) :
    R Tokens (partialTokens left scope name) (partialTokens right scope name) := by
  unfold partialTokens
  cases scope.aliases.get? name with
  | some tokens => exact congruence.andThen (congruence.report _) fun _ => congruence.gives _
  | none =>
      cases left
      cases right
      cases related.homes with
      | absent => exact congruence.fails _ (by simp)
      | present _ finds =>
          exact congruence.andThen (congruence.report _) fun _ => finds true name

section

variable {block other : BlockRenderer} {scope : Scope}
  (nested : ∀ view tokens,
    R Rendered (block (scope.descend view) tokens) (other (scope.descend view) tokens))

include nested

omit related in
theorem renderNested_related (view : Value) (content : Tokens) :
    R String (renderNested block scope view content) (renderNested other scope view content) :=
  congruence.andThen (nested view content) fun _ => congruence.gives _

omit related in
theorem renderItems_related (content : Tokens) (items : List Value) :
    R (List String) (renderItems block scope content items)
      (renderItems other scope content items) := by
  induction items with
  | nil => exact congruence.gives []
  | cons item rest ih =>
      refine congruence.andThen (nested item content) fun rendered => ?_
      exact congruence.andThen ih fun texts => congruence.gives _

theorem renderCallback_related (name template : String) (callback : Value) :
    R String (renderCallback left block scope name template callback)
      (renderCallback right other scope name template callback) := by
  refine congruence.andThen (congruence.report _) fun _ => ?_
  refine congruence.andThen (congruence.notes _) fun _ => ?_
  refine congruence.andThen (runReply_related congruence ?_ _) fun result => congruence.gives _
  intro text
  cases left
  cases right
  cases related.homes with
  | absent => exact congruence.gives text
  | present _ _ compiles =>
      refine congruence.andThen (compiles text) fun tokens => ?_
      exact congruence.andThen (nested scope.view tokens) fun _ => congruence.gives _

theorem renderBlock_related (name : String) (content : Tokens) (template : String) :
    R String (renderBlock left block scope name content template)
      (renderBlock right other scope name content template) := by
  unfold renderBlock
  split
  · exact congruence.gives _
  · refine congruence.andThen (congruence.finds scope.view name) fun value => ?_
    split
    · exact congruence.gives _
    · split
      · exact renderNested_related congruence nested ..
      · refine congruence.andThen (congruence.ofView _) fun kind => ?_
        cases kind with
        | list =>
            refine congruence.andThen (congruence.takes value) fun items => ?_
            refine congruence.andThen (renderItems_related congruence nested content items) ?_
            exact fun texts => congruence.gives _
        | map | object | scalar | «sealed» => exact renderNested_related congruence nested ..
        | callable => exact renderCallback_related congruence related nested ..

omit related in
theorem renderInverted_related (name : String) (content : Tokens) :
    R String (renderInverted block scope name content)
      (renderInverted other scope name content) := by
  unfold renderInverted
  split
  · exact congruence.gives _
  · refine congruence.andThen (congruence.finds scope.view name) fun value => ?_
    split
    · exact congruence.gives _
    · exact renderNested_related congruence nested ..

end

omit related in
theorem renderPartial_related {block other : BlockRenderer} {scope : Scope}
    {tokens others : Action Tokens} (found : R Tokens tokens others)
    (nested : ∀ tokens,
      R Rendered (block scope.enterPartial tokens) (other scope.enterPartial tokens)) :
    R String (renderPartial block scope tokens) (renderPartial other scope others) := by
  unfold renderPartial
  split
  · exact congruence.gives _
  · refine congruence.andThen found fun tokens => ?_
    exact congruence.andThen (nested tokens) fun _ => congruence.gives _

section

variable {block other : BlockRenderer} {scope : Scope}

theorem renderPlain_related (token : Token)
    (nested : ∀ inner tokens, scope.Opens token inner →
      R Rendered (block inner tokens) (other inner tokens)) :
    R Written (renderPlain left block scope token) (renderPlain right other scope token) := by
  have keep {text same : Action String} (texts : R String text same) :
      R Written (renderPlain.keep scope text) (renderPlain.keep scope same) :=
    congruence.andThen texts fun _ => congruence.gives _
  have within (plain : token.kind ≠ .partials) (view : Value) (tokens : Tokens) :
      R Rendered (block (scope.descend view) tokens) (other (scope.descend view) tokens) :=
    nested _ tokens (by rw [Scope.Opens, if_neg plain]; exact ⟨view, rfl⟩)
  have inside (partials : token.kind = .partials) (tokens : Tokens) :
      R Rendered (block scope.enterPartial tokens) (other scope.enterPartial tokens) :=
    nested _ tokens (by rw [Scope.Opens, if_pos partials])
  have hosts := related.hosts
  cases token with
  | content text => exact congruence.gives _
  | escaped name =>
      refine congruence.andThen (renderEscaped_related congruence hosts scope name) ?_
      exact fun piece => congruence.gives _
  | unescaped name => exact keep (renderUnescaped_related congruence scope name)
  | block name content template =>
      exact keep (renderBlock_related congruence related (within (by simp [Token.kind])) ..)
  | inverted name content =>
      exact keep (renderInverted_related congruence (within (by simp [Token.kind])) ..)
  | placeholder name content =>
      simp only [renderPlain]
      split
      · exact congruence.gives _
      · refine congruence.andThen (within (by simp [Token.kind]) scope.view content) ?_
        exact fun rendered => congruence.gives _
  | partialNamed name =>
      exact keep (renderPartial_related congruence (partialTokens_related congruence related ..)
        (inside rfl))
  | partialKnown tokens =>
      exact keep (renderPartial_related congruence (congruence.gives tokens) (inside rfl))
  | pragma name options =>
      refine congruence.andThen (activate_related congruence hosts scope name options) ?_
      exact fun active => congruence.gives _
  | delimiters opening closing => exact congruence.gives _
  | comment text => exact congruence.gives _

theorem renderToken_related (token : Token)
    (nested : ∀ inner tokens, scope.Opens token inner →
      R Rendered (block inner tokens) (other inner tokens)) :
    R Written (renderToken left block scope token) (renderToken right other scope token) := by
  refine congruence.andThen (offer_related congruence related.hosts ..) fun offered => ?_
  cases offered with
  | some piece => exact congruence.gives _
  | none => exact renderPlain_related congruence related token nested

theorem renderPieces_related (tokens : Tokens)
    (nested : ∀ inner tokens, inner.depth = scope.depth + 1 →
      R Rendered (block inner tokens) (other inner tokens)) :
    R (List Piece × ActivePragmas) (renderPieces left block scope tokens)
      (renderPieces right other scope tokens) := by
  induction tokens generalizing scope with
  | nil => exact congruence.gives _
  | cons token rest ih =>
      refine congruence.andThen (renderToken_related congruence related token ?_) fun first => ?_
      · exact fun inner tokens opens => nested inner tokens opens.depth_eq
      · refine congruence.andThen ?_ fun others => congruence.gives _
        exact ih nested

/-- Renderings of a block are related if what it is made of is related. -/
theorem renderTokens_related (tokens : Tokens)
    (nested : ∀ inner tokens, inner.depth = scope.depth + 1 →
      R Rendered (block inner tokens) (other inner tokens)) :
    R Rendered (renderTokens left block scope tokens) (renderTokens right other scope tokens) := by
  refine congruence.andThen (renderPieces_related congruence related tokens nested) ?_
  intro result
  refine congruence.andThen (congruence.ofView _) fun text => ?_
  exact congruence.gives _

end

end

/-- Renderings to the same number of levels are related if running out of levels is. -/
theorem renderWithin_related {left right : Setting} (related : left.Related R right)
    (limits : left.maxDepth = right.maxDepth)
    (enters : ∀ depth, R Unit (Action.enter depth) (Action.enter depth))
    (runsOut : R Rendered (throw .endless) (throw .endless)) (fuel : Nat) (scope : Scope)
    (tokens : Tokens) :
    R Rendered (renderWithin left fuel scope tokens) (renderWithin right fuel scope tokens) := by
  induction fuel generalizing scope tokens with
  | zero => exact runsOut
  | succ fuel ih =>
      have same : left.exceeds scope.depth = right.exceeds scope.depth := by
        simp only [Setting.exceeds, limits]
      cases allowed : right.exceeds scope.depth with
      | some limit =>
          rw [renderWithin_refused allowed, renderWithin_refused (same.trans allowed)]
          exact congruence.fails _ (by simp)
      | none =>
          rw [renderWithin_entered allowed, renderWithin_entered (same.trans allowed)]
          refine congruence.andThen (enters scope.depth) fun _ => ?_
          exact renderTokens_related congruence related tokens fun inner tokens _ => ih inner tokens

end

end Logicless
