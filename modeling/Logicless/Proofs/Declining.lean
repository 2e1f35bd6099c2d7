import Logicless.Pragma.Probe
import Logicless.Proofs.Caching
import Logicless.Proofs.Lineage
import Logicless.Proofs.Upholding

namespace Logicless

/-!
A pragma that declines leaves no trace.

Whether a pragma is active shows only in what it makes of what it is offered. So where one only ever
declines (`Pragma.Mute`), a block is rendered alike whether it is active or not, in what it gives and
in the other pragmas that are active behind it (`renderWithin_without`). All that its activation adds
is a report, and reports make no difference to what follows them (`congruence_upToReports`).

A pragma may also look up templates before it declines (`Pragma.Idle`), and these are cached. But
rendering ends as it would with a mute pragma in its place (`render_muting`), since the caches of the
two only ever differ in what the compiler makes of names (`Cache.Rooted`).
-/

/-- States that differ in nothing but reports. -/
structure UpToReports (store other : Store) : Prop where
  cache : store.cache = other.cache
  memory : store.memory = other.memory
  deepest : store.deepest = other.deepest

theorem congruence_upToReports : Congruence (EndsAlike UpToReports) :=
  congruence_endsAlike (fun _ _ _ _ same => ⟨same.cache, same.memory, same.deepest⟩)
    (fun _ _ same => same.memory) fun _ _ _ same => ⟨same.cache, rfl, same.deepest⟩

theorem searching_upToReports : Searching (EndsAlike UpToReports) where
  toSequential := congruence_upToReports.toSequential
  recalls name _ _ same :=
    ⟨congrArg (fun cache => Except.ok (Cache.get? cache name)) same.cache, same⟩
  remembers _ _ _ _ same :=
    ⟨rfl, congrArg (Cache.insert · _ _) same.cache, same.memory, same.deepest⟩

theorem renderWithin_upToReports (setting : Setting) (levels : Nat) (scope : Scope)
    (tokens : Tokens) :
    EndsAlike UpToReports Rendered (renderWithin setting levels scope tokens)
      (renderWithin setting levels scope tokens) := by
  have throws {α : Type} (fault : Fault) :
      EndsAlike UpToReports α (throw fault) (throw fault) := fun _ _ same => ⟨rfl, same⟩
  refine renderWithin_related congruence_upToReports
    (setting.related_self congruence_upToReports searching_upToReports throws) rfl
    (fun depth _ _ same => ?_) (throws _) levels scope tokens
  exact ⟨rfl, same.cache, same.memory, congrArg (max · depth) same.deepest⟩

/-- Rendering tokens where pragmas are active from the beginning. -/
def renderUnder (setting : Setting) (active : ActivePragmas) (tokens : Tokens) (view : Value)
    (aliases : Table Tokens) : Action String := do
  let rendered ← renderWithin setting setting.levels ⟨view, aliases, active, 0⟩ tokens
  return rendered.text

theorem renderUnder_upToReports (setting : Setting) (active : ActivePragmas) (tokens : Tokens)
    (view : Value) (aliases : Table Tokens) :
    EndsAlike UpToReports String (renderUnder setting active tokens view aliases)
      (renderUnder setting active tokens view aliases) :=
  (renderWithin_upToReports setting _ _ tokens).andThen fun _ _ _ _ =>
    congruence_upToReports.gives _

section

variable {setting : Setting} {home : Home} {name : String} (managed : setting.home = some home)
  (known : home.pragmas.contains name = true)

include managed known

theorem activate_known (scope : Scope) (options : Options) :
    activate setting scope name options = (do
      Action.report (.activated name options)
      return scope.active.insert name options) := by
  simp only [activate, managed, known, Bool.not_true, Bool.false_eq_true, if_false]

theorem renderTokens_activating (block : BlockRenderer) {scope : Scope} {options : Options}
    (declined : setting.offer scope.active .pragma (.token (.pragma name options)) scope.view =
      pure none) (tokens : Tokens) :
    renderTokens setting block scope (.pragma name options :: tokens) = (do
      Action.report (.activated name options)
      renderTokens setting block
        { scope with active := scope.active.insert name options } tokens) := by
  have silent (pieces : List Piece) : joinPieces (.null :: pieces) = joinPieces pieces := by
    simp [joinPieces, Value.isJoinable, Value.truthy, pieceText, String.join_cons]
  have first : renderToken setting block scope (.pragma name options) = (do
      Action.report (.activated name options)
      return ⟨.null, scope.active.insert name options⟩) := by
    simp only [renderToken, Token.kind, Token.payload, declined, pure_bind, renderPlain,
      activate_known managed known, bind_assoc]
  simp only [renderTokens, renderPieces, first, bind_assoc, pure_bind, silent]

/-- A template that begins by activating a pragma is rendered as what follows, with that pragma
active. -/
theorem render_activating (options : Options) (tokens : Tokens) (view : Value)
    (aliases : Table Tokens) (store : Store) :
    ∃ reports, render setting (.pragma name options :: tokens) view aliases store =
      renderUnder setting ⟨[(name, options)]⟩ tokens view aliases { store with reports } := by
  simp only [render, renderUnder]
  cases setting.levels with
  | zero => exact ⟨store.reports, rfl⟩
  | succ levels =>
      cases allowed : setting.exceeds 0 with
      | some limit =>
          refine ⟨store.reports, ?_⟩
          rw [renderWithin_refused allowed, renderWithin_refused allowed]
      | none =>
          refine ⟨.activated name options :: store.reports, ?_⟩
          rw [renderWithin_entered allowed, renderWithin_entered allowed,
            renderTokens_activating managed known _ (offer_empty setting _ _ view)]
          rfl

/-- Activating a pragma makes no difference if it makes none while it is active. -/
theorem render_activating_alike {options : Options} {tokens : Tokens} {view : Value}
    {aliases : Table Tokens} {store : Store}
    (same : ∀ reports, renderUnder setting ⟨[(name, options)]⟩ tokens view aliases
        { store with reports } =
      renderUnder setting .empty tokens view aliases { store with reports }) :
    let run := render setting (.pragma name options :: tokens) view aliases store
    let other := render setting tokens view aliases store
    outcome run = outcome other ∧ UpToReports (final run) (final other) := by
  intro run other
  obtain ⟨reports, begun⟩ := render_activating managed known options tokens view aliases store
  rw [same] at begun
  rw [show run = _ from begun]
  exact renderUnder_upToReports setting .empty tokens view aliases { store with reports } store
    ⟨rfl, rfl, rfl⟩

end

/-- A pragma that declines whatever it is offered, without looking up templates. -/
def Pragma.Mute (pragma : Pragma) : Prop :=
  ∀ offer, ∃ piece, pragma.render offer = .gives piece ∧ piece.truthy = false

/-- Whether the pragma of a name is mute. -/
def Setting.Mutes (setting : Setting) (name : String) : Prop :=
  ∀ home ∈ setting.home, ∃ pragma, home.pragmas.get? name = some pragma ∧ pragma.Mute

/-- A scope in which the pragma of a name is not active. -/
def Scope.without (name : String) (scope : Scope) : Scope :=
  { scope with active := scope.active.erase name }

def Rendered.without (name : String) (rendered : Rendered) : Rendered :=
  { rendered with active := rendered.active.erase name }

def Written.without (name : String) (written : Written) : Written :=
  { written with active := written.active.erase name }

@[simp] theorem Scope.view_without (name : String) (scope : Scope) :
    (scope.without name).view = scope.view := rfl

@[simp] theorem Scope.inLoop_without (name : String) (scope : Scope) :
    (scope.without name).inLoop = scope.inLoop := rfl

theorem offerTo_without {home : Home} {name : String} {pragma : Pragma}
    (registered : home.pragmas.get? name = some pragma) (mute : pragma.Mute) (kind : Token.Kind)
    (payload : Payload) (view : Value) (active : List (String × Options)) :
    offerTo home kind payload view (active.filter fun entry => entry.1 != name) =
      offerTo home kind payload view active := by
  induction active with
  | nil => rfl
  | cons entry rest ih =>
      obtain ⟨other, options⟩ := entry
      by_cases same : other = name
      · subst same
        have quiet : offerTo home kind payload view ((other, options) :: rest) =
            offerTo home kind payload view rest := by
          simp only [offerTo, registered]
          split
          · funext store
            rw [look, bind_assoc, get_bind, pure_bind]
            obtain ⟨piece, given, declined⟩ :=
              mute ⟨kind, payload, store.memory.current view, options, some home.escape⟩
            simp only [given, Handling.run, pure_bind, declined, Bool.false_eq_true, if_false]
          · rfl
        simp only [List.filter_cons, bne_self_eq_false, Bool.false_eq_true, if_false, ih, quiet]
      · have stays : (other != name) = true := bne_iff_ne.mpr same
        simp only [List.filter_cons, stays, if_true, offerTo, ih]

section

variable {name : String} {block : BlockRenderer}
  (alike : ∀ scope tokens, LooksAlike (Rendered.without name) (block (scope.without name) tokens)
    (block scope tokens))

include alike

/-- Where only the text of a block is used, it is the same. -/
theorem blockText_without {α : Type} (scope : Scope) (tokens : Tokens) (next : String → Action α) :
    (do let rendered ← block (scope.without name) tokens
        next rendered.text) =
      (do let rendered ← block scope tokens
          next rendered.text) := by
  refine (alike scope tokens).bind_eq fun result given same => ?_
  rw [(Rendered.mk.inj same).1]

theorem renderNested_without (scope : Scope) (view : Value) (content : Tokens) :
    renderNested block (scope.without name) view content = renderNested block scope view content :=
  blockText_without alike (scope.descend view) content pure

theorem renderItems_without (scope : Scope) (content : Tokens) (items : List Value) :
    renderItems block (scope.without name) content items =
      renderItems block scope content items := by
  induction items with
  | nil => rfl
  | cons item rest ih =>
      simp only [renderItems, ih]
      exact blockText_without alike (scope.descend item) content fun text => do
        let others ← renderItems block scope content rest
        return text :: others

theorem renderCallback_without (setting : Setting) (scope : Scope) (path template : String)
    (callback : Value) :
    renderCallback setting block (scope.without name) path template callback =
      renderCallback setting block scope path template callback := by
  have inner (tokens : Tokens) :
      (do let rendered ← block ((scope.without name).descend (scope.without name).view) tokens
          return rendered.text) =
        (do let rendered ← block (scope.descend scope.view) tokens
            return rendered.text) :=
    blockText_without alike (scope.descend scope.view) tokens pure
  simp only [renderCallback, inner]

theorem renderBlock_without (setting : Setting) (scope : Scope) (path : String)
    (content : Tokens) (template : String) :
    renderBlock setting block (scope.without name) path content template =
      renderBlock setting block scope path content template := by
  simp only [renderBlock, Scope.inLoop_without, Scope.view_without, renderNested_without alike,
    renderCallback_without alike, renderItems_without alike]

theorem renderInverted_without (scope : Scope) (path : String) (content : Tokens) :
    renderInverted block (scope.without name) path content =
      renderInverted block scope path content := by
  simp only [renderInverted, Scope.inLoop_without, Scope.view_without, renderNested_without alike]

variable {setting : Setting} (mutes : setting.Mutes name)

include mutes

omit alike in
theorem Setting.offer_without (active : ActivePragmas) (kind : Token.Kind) (payload : Payload)
    (view : Value) :
    setting.offer (active.erase name) kind payload view =
      setting.offer active kind payload view := by
  unfold offer
  cases managed : setting.home with
  | none => rfl
  | some home =>
      obtain ⟨pragma, registered, mute⟩ := mutes home managed
      exact offerTo_without registered mute kind payload view active.entries

omit alike in
theorem renderEscaped_without (scope : Scope) (path : String) :
    renderEscaped setting (scope.without name) path = renderEscaped setting scope path := by
  simp only [renderEscaped, Scope.without, Setting.offer_without mutes]

omit alike mutes in
theorem activate_without (scope : Scope) (other : String) (options : Options) :
    LooksAlike (Table.erase · name) (activate setting (scope.without name) other options)
      (activate setting scope other options) := by
  have same : ((scope.active.erase name).insert other options).erase name =
      (scope.active.insert other options).erase name := by
    by_cases here : other = name
    · subst here
      simp
    · simp [Table.erase_insert_of_ne _ here]
  unfold activate
  extract_lets known
  cases known with
  | true => exact .after _ fun _ => .pure same
  | false => rfl

theorem renderPlain_without (scope : Scope) (token : Token) :
    LooksAlike (Written.without name) (renderPlain setting block (scope.without name) token)
      (renderPlain setting block scope token) := by
  have still (piece : Piece) :
      (⟨piece, (scope.without name).active⟩ : Written).without name =
        (⟨piece, scope.active⟩ : Written).without name := by
    simp [Written.without, Scope.without]
  have keeps {text other : Action String} (same : text = other) :
      LooksAlike (Written.without name) (renderPlain.keep (scope.without name) text)
        (renderPlain.keep scope other) := by
    subst same
    exact .after text fun written => .pure (still (.text written))
  cases token with
  | content text => exact .pure (still _)
  | escaped path =>
      simp only [renderPlain, renderEscaped_without mutes]
      exact .after _ fun piece => .pure (still piece)
  | unescaped path => exact keeps rfl
  | block path content template => exact keeps (renderBlock_without alike setting scope ..)
  | inverted path content => exact keeps (renderInverted_without alike scope ..)
  | placeholder path content =>
      simp only [renderPlain]
      have outside : (scope.without name).inLoop = scope.inLoop := rfl
      by_cases loop : scope.inLoop = true
      · rw [if_pos loop, if_pos (outside.trans loop)]
        exact .pure (still .null)
      · rw [if_neg loop, if_neg (outside ▸ loop)]
        refine (alike (scope.descend scope.view) content).andThen fun result given same => ?_
        obtain ⟨text, active⟩ := Rendered.mk.inj same
        exact .pure (by simp only [Written.without, Written.ofRendered, text, active])
  | partialNamed path => exact keeps rfl
  | partialKnown tokens => exact keeps rfl
  | pragma other options =>
      refine (activate_without scope other options).andThen fun active given same => .pure ?_
      exact congrArg (Written.mk .null) same
  | delimiters path closing => exact .pure (still .null)
  | comment text => exact .pure (still .null)

theorem renderToken_without (scope : Scope) (token : Token) :
    LooksAlike (Written.without name) (renderToken setting block (scope.without name) token)
      (renderToken setting block scope token) := by
  have offered : setting.offer (scope.without name).active token.kind token.payload scope.view =
      setting.offer scope.active token.kind token.payload scope.view :=
    Setting.offer_without mutes ..
  simp only [renderToken, Scope.view_without, offered]
  refine .after _ fun piece => ?_
  cases piece with
  | some piece => exact .pure (by simp [Written.without, Scope.without])
  | none => exact renderPlain_without alike mutes scope token

theorem renderPieces_without (scope : Scope) (tokens : Tokens) :
    LooksAlike (Prod.map id (Table.erase · name))
      (renderPieces setting block (scope.without name) tokens)
      (renderPieces setting block scope tokens) := by
  induction tokens generalizing scope with
  | nil => exact .pure (by simp [Scope.without])
  | cons token rest ih =>
      refine (renderToken_without alike mutes scope token).andThen fun first given same => ?_
      obtain ⟨piece, active⟩ := Written.mk.inj same
      -- what follows is compared with the same tokens where the pragma is not active
      have others := ih { scope with active := first.active }
      have again := ih { scope with active := given.active }
      simp only [Scope.without, active] at others again
      have both : LooksAlike (Prod.map id (Table.erase · name))
          (renderPieces setting block { scope with active := first.active } rest)
          (renderPieces setting block { scope with active := given.active } rest) :=
        others.symm.trans again
      refine both.andThen fun later shown alike => .pure ?_
      obtain ⟨pieces, last⟩ := Prod.ext_iff.mp alike
      exact Prod.ext (List.cons_eq_cons.mpr ⟨piece, pieces⟩) last

theorem renderTokens_without (scope : Scope) (tokens : Tokens) :
    LooksAlike (Rendered.without name) (renderTokens setting block (scope.without name) tokens)
      (renderTokens setting block scope tokens) := by
  refine (renderPieces_without alike mutes scope tokens).andThen fun result given same => ?_
  obtain ⟨pieces, active⟩ := result
  obtain ⟨others, reached⟩ := given
  obtain ⟨rfl, last⟩ := Prod.mk.inj same
  exact .after _ fun text => .pure (congrArg (Rendered.mk text) last)

end

/-- Whether a pragma that declines is active makes no difference to a block, but that it stays
active. -/
theorem renderWithin_without {setting : Setting} {name : String} (mutes : setting.Mutes name)
    (levels : Nat) (scope : Scope) (tokens : Tokens) :
    LooksAlike (Rendered.without name) (renderWithin setting levels (scope.without name) tokens)
      (renderWithin setting levels scope tokens) := by
  induction levels generalizing scope tokens with
  | zero => rfl
  | succ levels ih =>
      have same : setting.exceeds (scope.without name).depth = setting.exceeds scope.depth := rfl
      cases allowed : setting.exceeds scope.depth with
      | some limit =>
          rw [renderWithin_refused allowed, renderWithin_refused (same.trans allowed)]
          rfl
      | none =>
          rw [renderWithin_entered allowed, renderWithin_entered (same.trans allowed)]
          exact .after _ fun _ => renderTokens_without ih mutes scope tokens

theorem renderUnder_without {setting : Setting} {name : String} (mutes : setting.Mutes name)
    (active : ActivePragmas) (tokens : Tokens) (view : Value) (aliases : Table Tokens) :
    renderUnder setting (active.erase name) tokens view aliases =
      renderUnder setting active tokens view aliases :=
  blockText_without (renderWithin_without mutes setting.levels) ⟨view, aliases, active, 0⟩ tokens
    pure

/-- Tokens are rendered alike with and without a mute pragma that they activate first: in what they
give or fail with, and in the state that they leave behind, but for reports. -/
theorem render_mute {setting : Setting} {home : Home} {name : String} {pragma : Pragma}
    (managed : setting.home = some home) (registered : home.pragmas.get? name = some pragma)
    (mute : pragma.Mute) (options : Options) (tokens : Tokens) (view : Value)
    (aliases : Table Tokens) (store : Store) :
    let run := render setting (.pragma name options :: tokens) view aliases store
    let other := render setting tokens view aliases store
    outcome run = outcome other ∧ UpToReports (final run) (final other) := by
  intro run other
  have mutes : setting.Mutes name := by
    intro place here
    cases managed.symm.trans here
    exact ⟨pragma, registered, mute⟩
  refine render_activating_alike managed (Table.contains_of_get? registered) fun reports => ?_
  rw [← renderUnder_without mutes]
  simp [Table.erase, Table.empty]

/-- A pragma that declines whatever it is offered, whatever templates of a library it looks up before
that. -/
def Pragma.Idle (library : Library) (pragma : Pragma) : Prop :=
  ∀ offer store, ∃ piece after,
    (pragma.render offer).run library store = .ok piece after ∧ piece.truthy = false

def Pragma.muted (pragma : Pragma) : Pragma := { pragma with render := fun _ => .gives .null }

theorem Pragma.mute_muted (pragma : Pragma) : pragma.muted.Mute := fun _ => ⟨.null, rfl, rfl⟩

/-- A home in which a mute pragma stands in the place of another one. -/
def Home.muting (home : Home) (name : String) (pragma : Pragma) : Home :=
  { home with pragmas := home.pragmas.insert name pragma.muted }

def Setting.muting (setting : Setting) (name : String) (pragma : Pragma) : Setting :=
  { setting with home := setting.home.map fun home => home.muting name pragma }

section

variable {alike : Store → Store → Prop} (congruence : Congruence (EndsAlike alike)) {home : Home}
  {name : String} {pragma : Pragma} (registered : home.pragmas.get? name = some pragma)
  (finds : ∀ keep template, EndsAlike alike Tokens (tokenize home.library keep template)
    (tokenize home.library keep template))
  (declines : ∀ offer store other, alike store other → ∃ piece after,
    (pragma.render offer).run home.library other = .ok piece after ∧ piece.truthy = false ∧
      alike store after)

include congruence registered finds declines

theorem offerTo_muting (kind : Token.Kind) (payload : Payload) (view : Value)
    (active : List (String × Options)) :
    EndsAlike alike (Option Piece) (offerTo (home.muting name pragma) kind payload view active)
      (offerTo home kind payload view active) := by
  induction active with
  | nil => exact congruence.gives none
  | cons entry rest ih =>
      obtain ⟨other, options⟩ := entry
      simp only [offerTo, Home.muting]
      by_cases same : other = name
      · subst same
        simp only [Table.get?_insert_self, registered, Pragma.muted]
        split
        · intro store second same
          let offer : Offer :=
            ⟨kind, payload, second.memory.current view, options, some home.escape⟩
          obtain ⟨piece, after, ran, falsy, still⟩ := declines offer store second same
          have later := ih store after still
          have looked : look view second = .ok (second.memory.current view) second := rfl
          rw [bind_of_ok looked, bind_of_ok ran, falsy]
          exact later
        · exact ih
      · rw [Table.get?_insert_of_ne _ same]
        cases home.pragmas.get? other with
        | none => exact congruence.fails _ (by simp)
        | some known =>
            simp only
            split
            · refine congruence.andThen (congruence.looks view) fun now => ?_
              refine congruence.andThen (run_related congruence.toSequential finds _) fun piece => ?_
              split
              · exact congruence.gives _
              · exact ih
            · exact ih

/-- A pragma that declines may as well be mute. -/
theorem render_muting {setting : Setting} (managed : setting.home = some home)
    (compiles : ∀ text, EndsAlike alike Tokens (compile home.library none text)
      (compile home.library none text))
    (enters : ∀ depth, EndsAlike alike Unit (Action.enter depth) (Action.enter depth))
    (tokens : Tokens) (view : Value) (aliases : Table Tokens) :
    EndsAlike alike String (render (setting.muting name pragma) tokens view aliases)
      (render setting tokens view aliases) := by
  have known (asked : String) :
      (home.muting name pragma).pragmas.contains asked = home.pragmas.contains asked := by
    by_cases same : asked = name
    · subst same
      rw [Table.contains_of_get? registered]
      exact Table.contains_of_get? (Table.get?_insert_self ..)
    · simp only [Home.muting, Table.contains, Table.get?_insert_of_ne _ same]
  have related : (setting.muting name pragma).Related (EndsAlike alike) setting := by
    refine ⟨rfl, ?_⟩
    simp only [Setting.muting, managed, Option.map_some]
    exact .present (.present known (offerTo_muting congruence registered finds declines)) finds
      compiles
  refine congruence.andThen ?_ fun _ => congruence.gives _
  exact renderWithin_related congruence related rfl enters (fun _ _ same => ⟨rfl, same⟩) _ _ tokens

end

/-- Caches that have what some cache has, and what the compiler makes of names from there. -/
structure Cache.Rooted (library : Library) (base cache : Cache) : Prop where
  keeps {name : String} {tokens : Tokens} : isTemplateText name = false →
    base.get? name = some tokens → cache.get? name = some tokens
  meant {name : String} {tokens : Tokens} : isTemplateText name = false →
    cache.get? name = some tokens → library.meaningFrom base name = .ok tokens

theorem Cache.rooted_self {library : Library} (bounded : library.Bounded) (base : Cache) :
    Cache.Rooted library base base where
  keeps _ known := known
  meant {name tokens} named known := by
    have ends := bounded name
    rw [Library.meaningFrom, tokenize]
    cases fuel : library.chainLimit + name.length with
    | zero =>
        rw [fuel] at ends
        exact ends.elim
    | succ fuel =>
        rw [tokenizeWithin_hit named known]
        rfl

theorem Cache.stable_rooted {library : Library} (bounded : library.Bounded) (base : Cache) :
    Cache.Stable library base (Cache.Rooted library base) where
  begins := rooted_self bounded base
  hits rooted named known := rooted.meant named known
  misses {cache name} rooted named absent := by
    refine Option.eq_none_iff_forall_ne_some.mpr fun tokens known => ?_
    rw [rooted.keeps named known] at absent
    contradiction
  inserts {cache name tokens} rooted named absent meant := by
    refine ⟨fun {asked others} other known => ?_, fun {asked others} other known => ?_⟩
    · have apart : asked ≠ name := by
        rintro rfl
        rw [absent] at known
        contradiction
      rw [cache.get?_insert_of_ne apart]
      exact rooted.keeps other known
    · by_cases same : asked = name
      · subst same
        rw [cache.get?_insert_self] at known
        cases known
        exact meant
      · rw [cache.get?_insert_of_ne same] at known
        exact rooted.meant other known

section

variable {home : Home} {name : String} {pragma : Pragma} (idle : pragma.Idle home.library)
  (bounded : home.library.Bounded)

include idle bounded

/-- Whatever an idle pragma looks up, it leaves a cache that has what the compiler makes of names. -/
theorem Pragma.Idle.declines {base : Cache} (offer : Offer) (store other : Store)
    (joint : Joint (Cache.Rooted home.library base) store other) :
    ∃ piece after, (pragma.render offer).run home.library other = .ok piece after ∧
      piece.truthy = false ∧ Joint (Cache.Rooted home.library base) store after := by
  have stable := Cache.stable_rooted bounded base
  obtain ⟨piece, after, ran, falsy⟩ := idle offer other
  obtain ⟨_, stays⟩ := run_related (sequential_stays (Cache.Rooted home.library base))
    (tokenize_stays stable bounded) (pragma.render offer)
  obtain ⟨_, fits, same⟩ := stays _ other ⟨joint.otherCache, rfl⟩
  rw [ran] at fits same
  exact ⟨piece, after, ran, falsy, joint.cache, fits, joint.memory.trans same.symm⟩

/-- Rendering ends alike with an idle pragma and with a mute one in its place. -/
theorem outcome_muting {setting : Setting} (managed : setting.home = some home)
    (registered : home.pragmas.get? name = some pragma) (tokens : Tokens) (view : Value)
    (aliases : Table Tokens) (store : Store) :
    outcome (render (setting.muting name pragma) tokens view aliases store) =
      outcome (render setting tokens view aliases store) := by
  have stable := Cache.stable_rooted bounded store.cache
  have alike := render_muting (congruence_joint (Cache.Rooted home.library store.cache)) registered
    (fun keep template => (tokenize_stays stable bounded keep template).agree)
    (idle.declines bounded) managed
    (fun text => (compile_stays stable bounded none text).agree)
    (fun _ _ _ joint => ⟨rfl, joint.cache, joint.otherCache, joint.memory⟩) tokens view aliases
  exact (alike store store ⟨stable.begins, stable.begins, rfl⟩).1

end

/-- Tokens end alike with and without a pragma that they activate first and that declines whatever it
is offered. The states that they leave behind differ in reports alone if the pragma is mute. One that
is not may look up templates, whose lines of inheritance are not cut off. -/
theorem render_idle {setting : Setting} {home : Home} {name : String} {pragma : Pragma}
    (managed : setting.home = some home) (registered : home.pragmas.get? name = some pragma)
    (idle : pragma.Idle home.library) (either : pragma.Mute ∨ home.library.Bounded)
    (options : Options) (tokens : Tokens) (view : Value) (aliases : Table Tokens) (store : Store) :
    let run := render setting (.pragma name options :: tokens) view aliases store
    let other := render setting tokens view aliases store
    outcome run = outcome other ∧ (pragma.Mute → UpToReports (final run) (final other)) := by
  intro run other
  have silent (mute : pragma.Mute) :=
    render_mute managed registered mute options tokens view aliases store
  refine ⟨?_, fun mute => (silent mute).2⟩
  rcases either with mute | bounded
  · exact (silent mute).1
  · have managing : (setting.muting name pragma).home = some (home.muting name pragma) := by
      rw [Setting.muting, managed]
      rfl
    have muted := outcome_muting idle bounded managed registered
    calc outcome run
        = outcome (render (setting.muting name pragma) (.pragma name options :: tokens) view aliases
            store) := (muted _ _ _ _).symm
      _ = outcome (render (setting.muting name pragma) tokens view aliases store) :=
          (render_mute managing (Table.get?_insert_self ..) pragma.mute_muted options tokens view
            aliases store).1
      _ = outcome other := muted _ _ _ _

/-- Pragmas that decline, one at once and one after it has looked up a template, activated before
another one and again inside a loop, and asked for rows of names and for a list. -/
theorem render_idle_rows :
    ∃ limit,
      let library : Library := ⟨fun _ => .found (.tokens [.content "note"]), limit⟩
      let quiet := Probe.decline.pragma "QUIET" Token.Kind.all
      let seeking : Pragma :=
        ⟨"SEEK", Token.Kind.all, fun _ => .tokenizes "note" true fun _ => .gives .null⟩
      let upper := Probe.upper.pragma "UPPER" [.escaped]
      let pragmas : Registry := ⟨[("QUIET", quiet), ("SEEK", seeking), ("UPPER", upper)]⟩
      let setting : Setting :=
        { home := some ⟨pragmas, library, .html⟩, escape := .html, maxDepth := none }
      let row (name : String) : Value := .mapping [(.text "n", .text name)]
      let view : Value := .mapping [(.text "rows", .list [row "a", row "b"])]
      let tokens (name : String) : Tokens :=
        [.placeholder "p" [.pragma "UPPER" .empty],
         .block "rows" [.escaped "n", .pragma name .empty] "", .escaped "rows"]
      let ended (name : String) :=
        outcome (render setting (.pragma name .empty :: tokens name) view .empty .fresh)
      quiet.Mute ∧ seeking.Idle library ∧ library.Bounded ∧
        ended "QUIET" = .ok "AB[\x7b'N': 'A'\x7d, \x7b'N': 'B'\x7d]" ∧
        ended "SEEK" = .ok "AB[\x7b'N': 'A'\x7d, \x7b'N': 'B'\x7d]" := by
  let source : Source := fun _ => .found (.tokens [.content "note"])
  have acyclic : Acyclic source := by
    refine acyclic_of_rank (fun _ => 0) ?_
    rintro name parent named ⟨text, spells, -⟩
    rw [Spells, if_neg (by simp [named])] at spells
    cases spells
  have finite : source.texts.Finite := by
    refine Set.finite_empty.subset ?_
    rintro text ⟨name, answer⟩
    cases answer
  obtain ⟨limit, bounded⟩ := exists_limit acyclic finite
  refine ⟨limit, ?_⟩
  intro library quiet seeking upper pragmas setting row view tokens ended
  have mute : quiet.Mute := fun _ => ⟨.null, rfl, rfl⟩
  have declines : quiet.Idle library := fun _ store => ⟨.null, store, rfl, rfl⟩
  have idle : seeking.Idle library := by
    intro offer store
    obtain ⟨tokens, after, run⟩ : ∃ tokens after,
        tokenize library true "note" store = .ok tokens after := by
      rw [tokenize, show library.chainLimit + "note".length = limit + 3 + 1 from rfl]
      cases known : store.cache.get? "note" with
      | some tokens => exact ⟨tokens, _, tokenizeWithin_hit rfl known⟩
      | none => exact ⟨_, _, tokenizeWithin_miss rfl known⟩
    exact ⟨.null, after, bind_of_ok run, rfl⟩
  have alike := @render_idle setting _ "QUIET" quiet rfl rfl declines (.inl mute) .empty
    (tokens "QUIET") view .empty .fresh
  have also := @render_idle setting _ "SEEK" seeking rfl rfl idle (.inr bounded) .empty
    (tokens "SEEK") view .empty .fresh
  exact ⟨mute, idle, bounded, alike.1, also.1⟩

end Logicless
