import Mathlib.Logic.Function.Iterate
import Logicless.Proofs.Keeping
import Logicless.Proofs.Lineage
import Logicless.Proofs.Offering
import Logicless.Proofs.Views

namespace Logicless

/-!
Rendering again changes nothing.

Rendering adds to the cache, and never changes or moves what is there (`Cache.Grows`). Run again
on a cache that has what it has kept, a rendering finds there what it searched for before, and where
it failed, it searches again and fails again, since a name whose search fails is not kept
(`tokenizeWithin_kept`). So the second run ends like the first and leaves all answers of the cache
as they were (`Replays`). This holds with whatever entries the cache began, and for any lines of
inheritance.

A rendering also spends the one-shot iterators of its view, and calls methods that change its
collections. Where the view has none of either (`Lasting`), any number of renderings one after the
other end in the same way (`renderAgain_repeats`).
-/

namespace Cache

/-- Whether one cache has the entries of another in their places, and perhaps more behind them. -/
def Grows (cache grown : Cache) : Prop := cache.entries <+: grown.entries

namespace Grows

variable {cache grown : Cache} (grows : cache.Grows grown) {name : String}

theorem refl (cache : Cache) : cache.Grows cache := List.prefix_rfl

theorem of_eq (same : cache = grown) : cache.Grows grown := same ▸ refl cache

include grows

theorem trans {further : Cache} (later : grown.Grows further) : cache.Grows further :=
  List.IsPrefix.trans grows later

theorem get? {tokens : Tokens} (known : cache.get? name = some tokens) :
    grown.get? name = some tokens := by
  obtain ⟨entries⟩ := cache
  obtain ⟨grownEntries⟩ := grown
  obtain ⟨rest, rfl⟩ := grows
  simp only [Cache.get?] at known ⊢
  induction entries with
  | nil => simp [Value.findKey] at known
  | cons entry others ih =>
      simp only [List.cons_append, Value.findKey] at known ⊢
      split
      · simpa [*] using known
      · rename_i different
        rw [if_neg different] at known
        exact ih known

/-- What was absent at first is added behind what was there then. -/
theorem insert (absent : cache.get? name = none) (tokens : Tokens) :
    cache.Grows (grown.insert (.text name) tokens) := by
  obtain ⟨entries⟩ := cache
  obtain ⟨grownEntries⟩ := grown
  obtain ⟨rest, rfl⟩ := grows
  exact ⟨Value.putKey (.text name) tokens rest, (Value.putKey_append absent tokens rest).symm⟩

end Grows

end Cache

/-- Whether a cache has for certain names what another one has kept for them. -/
def Cache.Recalls (names : Set String) (cache kept : Cache) : Prop :=
  ∀ name ∈ names, ∀ tokens, kept.get? name = some tokens → cache.get? name = some tokens

/-- Caches on which a run that has looked up certain names finds them again. After a failure they
must not know any further name either. -/
def Cache.Covers {α : Type} (names : Set String) (cache : Cache) :
    EStateM.Result Fault Store α → Prop
  | .ok _ after => cache.Recalls names after.cache
  | .error _ after => names = Set.univ ∧ ∀ name, cache.get? name = after.cache.get? name

namespace Cache

variable {names : Set String} {cache kept other : Cache}

theorem Recalls.of_grows {further : Cache} (recalls : cache.Recalls names further)
    (grows : kept.Grows further) : cache.Recalls names kept :=
  fun name known tokens found => recalls name known tokens (grows.get? found)

theorem recalls_of_same (same : ∀ name, cache.get? name = kept.get? name) :
    cache.Recalls names kept :=
  fun name _ _ found => (same name).trans found

theorem Covers.recalls {α : Type} {result : EStateM.Result Fault Store α}
    (covers : cache.Covers names result) : cache.Recalls names (final result).cache := by
  cases result with
  | ok given after => exact covers
  | error fault after => exact recalls_of_same covers.2

theorem covers_final {α : Type} (same : ∀ name, cache.get? name = kept.get? name)
    {result : EStateM.Result Fault Store α} (ends : (final result).cache = kept) :
    cache.Covers Set.univ result := by
  subst ends
  cases result with
  | ok given after => exact recalls_of_same same
  | error fault after => exact ⟨rfl, same⟩

/-- Only the answers of a cache matter. -/
theorem Covers.of_same {α : Type} {result : EStateM.Result Fault Store α}
    (covers : cache.Covers names result) (same : ∀ name, other.get? name = cache.get? name) :
    other.Covers names result := by
  cases result with
  | ok given after =>
      exact fun name known tokens found => (same name).trans (covers name known tokens found)
  | error fault after => exact ⟨covers.1, fun name => (same name).trans (covers.2 name)⟩

end Cache

/-- A run that ends like another one and leaves the answers of the cache as they were. -/
structure Repeats {α : Type} (first : EStateM.Result Fault Store α) (cache : Cache)
    (again : EStateM.Result Fault Store α) : Prop where
  ended : outcome again = outcome first
  cache (name : String) : (final again).cache.get? name = cache.get? name
  memory : (final again).memory = (final first).memory

/-- Whether a run ends again like it has ended from a state, wherever it finds the names again. -/
def ReplaysAt {α : Type} (names : Set String) (store : Store) (left right : Action α) : Prop :=
  ∀ other : Store, store.memory = other.memory →
    other.cache.Covers names (left store) → Repeats (left store) other.cache (right other)

/-- A computation that adds to the cache, and another one that ends like it wherever it finds what
the first has kept. -/
def Replays (names : Set String) : ActionRelation := fun _ left right =>
  ∀ store : Store, store.cache.Grows (final (left store)).cache ∧ ReplaysAt names store left right

section

variable {names : Set String}

/-- A first run that is repeated, and a second one that is repeated behind it. -/
theorem ReplaysAt.andThen {α β : Type} {store : Store} {first other : Action α}
    {next later : α → Action β} (begins : ReplaysAt names store first other)
    (continues : ∀ result after, first store = .ok result after →
      after.cache.Grows (final (next result after)).cache ∧
        ReplaysAt names after (next result) (later result)) :
    ReplaysAt names store (first >>= next) (other >>= later) := by
  intro second memory covers
  have again := begins second memory
  cases run : first store with
  | error fault after =>
      rw [bind_of_error run] at covers ⊢
      obtain ⟨ended, cache, kept⟩ := run ▸ again (run ▸ covers)
      obtain ⟨otherAfter, otherRun⟩ := error_of_outcome ended
      rw [otherRun] at cache kept
      rw [bind_of_error otherRun]
      exact ⟨rfl, cache, kept⟩
  | ok result after =>
      rw [bind_of_ok run] at covers ⊢
      obtain ⟨further, repeated⟩ := continues result after run
      rw [run] at again
      obtain ⟨ended, cache, kept⟩ := again (covers.recalls.of_grows further)
      obtain ⟨otherAfter, otherRun⟩ := ok_of_outcome ended
      rw [otherRun] at cache kept
      rw [bind_of_ok otherRun]
      have whole := repeated otherAfter kept.symm (covers.of_same cache)
      exact ⟨whole.ended, fun name => (whole.cache name).trans (cache name), whole.memory⟩

theorem Replays.still {α : Type} {action : Action α}
    (cache : ∀ store : Store, (final (action store)).cache = store.cache)
    (same : ∀ store other : Store, store.memory = other.memory →
      outcome (action other) = outcome (action store) ∧
        (final (action other)).memory = (final (action store)).memory) :
    Replays names α action action := by
  refine fun store => ⟨.of_eq (cache store).symm, fun other memory _ => ?_⟩
  obtain ⟨ended, kept⟩ := same store other memory
  exact ⟨ended, fun name => by rw [cache other], kept⟩

theorem Replays.throw {α : Type} (fault : Fault) : Replays names α (throw fault) (throw fault) :=
  .still (fun _ => rfl) fun _ _ same => ⟨rfl, same.symm⟩

theorem sequential_replays (names : Set String) : Sequential (Replays names) where
  gives result := .still (fun _ => rfl) fun _ _ same => ⟨rfl, same.symm⟩
  fails fault _ := .throw fault
  reports events := .still (fun _ => rfl) fun _ _ same => ⟨rfl, same.symm⟩
  andThen := by
    intro α β first other next later begins continues store
    obtain ⟨grown, again⟩ := begins store
    refine ⟨?_, again.andThen fun result after _ => continues result after⟩
    cases run : first store with
    | error fault after =>
        rw [run] at grown
        rw [bind_of_error run]
        exact grown
    | ok result after =>
        rw [run] at grown
        rw [bind_of_ok run]
        exact grown.trans (continues result after).1

theorem congruence_replays (names : Set String) : Congruence (Replays names) where
  toSequential := sequential_replays names
  minds step := by
    refine .still (fun store => ?_) fun store other same => ?_
    · rw [Action.onMemory]
      cases step store.memory with
      | mk result memory => cases result <;> rfl
    · simp only [Action.onMemory, same]
      cases step other.memory with
      | mk result memory => cases result <;> exact ⟨rfl, rfl⟩

end

section

variable {source : Source} {fuel : Nat} {template : String}

/-- A search for a name that is not in the cache, and one for a name that it has put there. -/
theorem remembering_replays {names : Set String} (named : isTemplateText template = false)
    (known : template ∈ names)
    (searched : ∀ store : Store, store.cache.Grows
        (final (search source (tokenizeWithin source fuel true) template store)).cache ∧
      (names = Set.univ → ReplaysAt names store
        (search source (tokenizeWithin source fuel true) template)
        (search source (tokenizeWithin source fuel true) template))) :
    Replays names Tokens (tokenizeWithin source (fuel + 1) true template)
      (tokenizeWithin source (fuel + 1) true template) := by
  intro store
  cases cached : store.cache.get? template with
  | some tokens =>
      rw [ReplaysAt, tokenizeWithin_hit named cached]
      refine ⟨.refl _, fun other memory covers => ?_⟩
      rw [tokenizeWithin_hit named (covers template known tokens cached)]
      exact ⟨rfl, fun _ => rfl, memory.symm⟩
  | none =>
      obtain ⟨grown, again⟩ := searched store
      have kept := @tokenizeWithin_kept source (fuel + 1) template store named cached
      have still := tokenizeWithin_keepsMemory source (fuel + 1) true template store
      rw [ReplaysAt]
      rw [tokenizeWithin_miss named cached] at kept still ⊢
      cases run : search source (tokenizeWithin source fuel true) template store with
      | error fault after =>
          rw [run] at grown
          rw [bind_of_error run] at kept still ⊢
          refine ⟨grown, fun other memory covers => ?_⟩
          -- what failed is not kept, so it is searched for again
          have absent : other.cache.get? template = none := (covers.2 template).trans kept
          obtain ⟨ended, cache, memory⟩ := run ▸ again covers.1 other memory (run ▸ covers)
          rw [tokenizeWithin_miss named absent]
          obtain ⟨otherAfter, otherRun⟩ := error_of_outcome ended
          rw [otherRun] at cache memory
          rw [bind_of_error otherRun]
          exact ⟨rfl, cache, memory⟩
      | ok tokens after =>
          rw [run] at grown
          rw [bind_of_ok run] at kept still ⊢
          refine ⟨Cache.Grows.insert grown cached tokens, fun other memory covers => ?_⟩
          rw [tokenizeWithin_hit named (covers template known tokens kept)]
          exact ⟨rfl, fun _ => rfl, memory.symm.trans still.symm⟩

/-- The names that the tokens of a template are made from: its own or, for a text, those that it
inherits from, directly or through other texts. -/
inductive Asked : String → String → Prop where
  | name {template : String} (named : isTemplateText template = false) : Asked template template
  | text {template parent name : String} (plain : isTemplateText template = true)
      (inherits : parent ∈ (Scan.ofText template.toList).parents []) (asked : Asked parent name) :
      Asked template name

/-- Finding the tokens of a template again takes no more than the names that they are made from,
unless it has failed. -/
theorem tokenizeWithin_replays_asked (source : Source) (fuel : Nat) {template : String}
    {names : Set String} (asked : ∀ name, Asked template name → name ∈ names) :
    Replays names Tokens (tokenizeWithin source fuel true template)
      (tokenizeWithin source fuel true template) := by
  induction fuel generalizing template names with
  | zero => exact .throw .endless
  | succ fuel ih =>
      cases named : isTemplateText template with
      | true =>
          rw [tokenizeWithin_text named]
          refine compileText_related (sequential_replays names) none fun parent inherits => ?_
          exact ih fun name further => asked name (.text named inherits further)
      | false =>
          have searched : Replays Set.univ Tokens
              (search source (tokenizeWithin source fuel true) template)
              (search source (tokenizeWithin source fuel true) template) :=
            search_related (fun fault _ => .throw fault) (sequential_replays Set.univ) named
              fun parent _ => ih fun _ _ => trivial
          refine remembering_replays named (asked template (.name named)) fun store => ?_
          refine ⟨(searched store).1, ?_⟩
          rintro rfl
          exact (searched store).2

/-- Finding the tokens of a template again, whether or not they are kept under its name. -/
theorem tokenizeWithin_replays (source : Source) (fuel : Nat) (keep : Bool) (template : String) :
    Replays Set.univ Tokens (tokenizeWithin source fuel keep template)
      (tokenizeWithin source fuel keep template) := by
  have kept (fuel : Nat) (template : String) : Replays Set.univ Tokens
      (tokenizeWithin source fuel true template) (tokenizeWithin source fuel true template) :=
    tokenizeWithin_replays_asked source fuel fun _ _ => trivial
  cases keep with
  | true => exact kept fuel template
  | false =>
      cases fuel with
      | zero => exact .throw .endless
      | succ fuel =>
          have sequential := sequential_replays Set.univ
          cases named : isTemplateText template with
          | true =>
              rw [tokenizeWithin_text named]
              exact compileText_related sequential none fun parent _ => kept fuel parent
          | false =>
              rw [tokenizeWithin_passing named]
              exact search_related (fun fault _ => .throw fault) sequential named
                fun parent _ => kept fuel parent

end

theorem renderWithin_replays (setting : Setting) (fuel : Nat) (scope : Scope) (tokens : Tokens) :
    Replays Set.univ Rendered (renderWithin setting fuel scope tokens)
      (renderWithin setting fuel scope tokens) := by
  have congruence := congruence_replays Set.univ
  have finds (library : Library) (keep : Bool) (name : String) :
      Replays Set.univ Tokens (tokenize library keep name) (tokenize library keep name) :=
    tokenizeWithin_replays _ _ _ _
  have related : setting.Related (Replays Set.univ) setting :=
    .ofSame congruence rfl rfl finds fun library text =>
      compileText_related congruence.toSequential none fun name _ => finds library true name
  refine renderWithin_related congruence related rfl ?_ (.throw .endless) fuel scope tokens
  exact fun depth => .still (fun _ => rfl) fun _ _ same => ⟨rfl, same.symm⟩

theorem render_replays (setting : Setting) (tokens : Tokens) (view : Value)
    (aliases : Table Tokens) :
    Replays Set.univ String (render setting tokens view aliases)
      (render setting tokens view aliases) :=
  (sequential_replays Set.univ).andThen (renderWithin_replays _ _ _ tokens) fun rendered =>
    (sequential_replays Set.univ).gives rendered.text

namespace Value

variable {name : String} (arguments : List Argument) (steady : name ∉ changingMethods)

include steady

theorem listMethod_of_steady (items : List Value) : (listMethod items name arguments).1 = items := by
  unfold listMethod
  split <;> simp_all [changingMethods]

theorem setMethod_of_steady (items : List Value) : (setMethod items name arguments).1 = items := by
  unfold setMethod
  split <;> simp_all [changingMethods]

theorem mappingMethod_of_steady (whole : Entries → Value) (entries : Entries) :
    (mappingMethod whole entries name arguments).1 = entries := by
  unfold mappingMethod
  split <;> simp_all [changingMethods]

theorem orderedMethod_of_steady (entries : Entries) :
    (orderedMethod entries name arguments).1 = entries := by
  unfold orderedMethod
  split
  · simp [changingMethods] at steady
  · exact mappingMethod_of_steady arguments steady _ entries

/-- No other methods change a collection than those that are known to. -/
theorem callMethod_of_steady (target : Value) :
    (callMethod target name arguments).1 = target.opened := by
  unfold callMethod
  split
  · simp [listMethod_of_steady arguments steady, *]
  · simp [setMethod_of_steady arguments steady, *]
  · simp [mappingMethod_of_steady arguments steady, *]
  · simp [orderedMethod_of_steady arguments steady, *]
  · rfl

end Value

/-- The calls of methods of cells that rendering against a view may make: those on the way of a
name, and those of a callback that is handed the text of a section. -/
inductive Value.Calls (view : Value) : Change → Prop where
  | named {inner : Value} {memory : Memory} {name : String} {found : Found} {change : Change}
      (reached : view.Leads inner) (finds : (memory.current inner).lookup name = .ok found)
      (member : change ∈ found.changes) : Calls view change
  | handed {callback : Value} {template : String} {change : Change}
      (reached : view.Leads callback) (callable : callback.kind = .ok .callable)
      (member : change ∈ callback.changes (some template)) : Calls view change

/-- A view that rendering leaves as it is: it leads to no one-shot iterator of its own, and to no
call by which one of its own collections changes. What calls build may have such. -/
structure Value.Lasting (view : Value) : Prop where
  reusable (id : Identity) (items : List Value) : view.Leads (.iterator id items) →
    id.isOwn = false
  unchanged (change : Change) : view.Calls change → change.id.isOwn = false

theorem Value.IsData.lasting {view : Value} (data : view.IsData) : view.Lasting where
  reusable _ _ led := (data.leads led).elim
  unchanged change calls := by
    cases calls with
    | named reached finds member =>
        have inner := data.leads reached
        rw [current_of_isFixed (isFixed_eq _ inner)] at finds
        rcases lookup_data inner _ with ⟨value, known, -⟩ | ⟨step, -, -, failed⟩
        · rw [known] at finds
          cases finds
          cases member
        · rw [failed] at finds
          cases finds
    | handed reached callable _ => exact absurd callable (data.inert _ reached)

/-- States in which certain iterators of a view are spent, and its collections as certain calls have
left them. -/
def Owns (own : Memory) (store : Store) : Prop := store.memory.again = own

section

variable {own : Memory} {root : Value} {setting : Setting} {aliases : Table Tokens}

theorem lawful_owns (own : Memory) : Lawful (Keeps (Owns own)) :=
  lawful_keeps fun _ _ kept => kept

theorem KeepsMemory.owns {α : Type} {action : Action α}
    (keeps : KeepsMemory α action action) : Keeps (Owns own) α (fun _ => True) action := by
  intro store kept
  refine ⟨?_, fun _ _ _ => trivial⟩
  rw [Owns, keeps store]
  exact kept

/-- Calls that change nothing of the view itself are forgotten when its rendering begins again. -/
theorem again_note {changes : List Change} (foreign : ∀ change ∈ changes, change.id.isOwn = false)
    (memory : Memory) : (memory.note changes).again = memory.again := by
  have none : changes.filter (fun change => change.id.isOwn) = [] := by
    simpa using foreign
  simp [Memory.note, Memory.again, none]

theorem again_settle {found : Found} (foreign : ∀ change ∈ found.changes, change.id.isOwn = false)
    (memory : Memory) : (memory.settle found).2.again = memory.again := by
  rw [← again_note foreign memory, Memory.settle]
  split <;> rfl

theorem find_owns (lasting : root.Lasting) (name : String) {inner : Value}
    (led : root.Leads inner) : Keeps (Owns own) Value root.Leads (find inner name) := by
  intro store kept
  refine ⟨?_, fun value after run => .found led run⟩
  cases known : (store.memory.current inner).lookup name with
  | error trouble =>
      rw [find_of_error known]
      exact kept
  | ok found =>
      rw [find_of_ok known]
      have foreign (change : Change) (member : change ∈ found.changes) : change.id.isOwn = false :=
        lasting.unchanged change (.named led known member)
      exact (again_settle foreign store.memory).trans kept

theorem note_owns {changes : List Change} (foreign : ∀ change ∈ changes, change.id.isOwn = false) :
    Keeps (Owns own) Unit (fun _ => True) (note changes) :=
  fun store kept => ⟨(again_note foreign store.memory).trans kept, fun _ _ _ => trivial⟩

theorem again_of_take {memory next : Memory} {value : Value} {items : List Value}
    (built : ∀ id items, value = .iterator id items → id.isOwn = false)
    (taken : memory.take value = .ok (items, next)) : next.again = memory.again := by
  unfold Memory.take at taken
  split at taken
  · rename_i id given
    split at taken
    · cases taken
      rfl
    · cases taken
      simp [Memory.again, built id items rfl]
  · split at taken <;> cases taken
    rfl

theorem takeItems_owns (lasting : root.Lasting) {value : Value} (led : root.Leads value)
    (listed : value.kind = .ok .list) :
    Keeps (Owns own) (List Value) (fun items => ∀ item ∈ items, root.Leads item)
      (takeItems value) := by
  intro store kept
  refine ⟨?_, fun items after run item member => .item led listed run member⟩
  cases taken : store.memory.take value with
  | error trouble =>
      rw [takeItems_of_error taken]
      exact kept
  | ok result =>
      rw [takeItems_of_ok taken]
      have built (id : Identity) (items : List Value) (same : value = .iterator id items) :
          id.isOwn = false := lasting.reusable id items (same ▸ led)
      exact (again_of_take built taken).trans kept

theorem offer_owns (setting : Setting) (active : ActivePragmas) (kind : Token.Kind)
    (payload : Payload) (view : Value) :
    Keeps (Owns own) (Option Piece) (fun _ => True) (setting.offer active kind payload view) := by
  exact KeepsMemory.owns (offer_keepsMemory _ _ _ _ _)

theorem renderEscaped_owns (lasting : root.Lasting) {scope : Scope} (led : root.Leads scope.view)
    (name : String) :
    Keeps (Owns own) Piece (fun _ => True) (renderEscaped setting scope name) := by
  have lawful := lawful_owns own
  refine lawful.andThen (find_owns lasting name led) fun value _ => ?_
  split
  · split
    · exact lawful.gives trivial
    · split
      · exact lawful.gives trivial
      · exact .ofView fun _ _ => trivial
  · exact lawful.andThen (offer_owns _ _ _ _ _) fun _ _ => lawful.gives trivial

theorem tokenize_owns (library : Library) (name : String) :
    Keeps (Owns own) Tokens (fun _ => True) (tokenize library true name) :=
  KeepsMemory.owns (tokenizeWithin_keepsMemory _ _ true name)

theorem compile_owns (library : Library) (text : String) :
    Keeps (Owns own) Tokens (fun _ => True) (compile library none text) :=
  KeepsMemory.owns <| compileText_related searching_keepsMemory.toSequential none
    fun name _ => tokenizeWithin_keepsMemory _ _ true name

theorem partialTokens_owns (setting : Setting) (scope : Scope) (name : String) :
    Keeps (Owns own) Tokens (fun _ => True) (partialTokens setting scope name) := by
  have lawful := lawful_owns own
  unfold partialTokens
  split
  · exact lawful.andThen (lawful.report _) fun _ _ => lawful.gives trivial
  · split
    · exact .throw _
    · exact lawful.andThen (lawful.report _) fun _ _ => tokenize_owns _ _

theorem activate_owns (setting : Setting) (scope : Scope) (name : String) (options : Options) :
    Keeps (Owns own) ActivePragmas (fun _ => True) (activate setting scope name options) := by
  have lawful := lawful_owns own
  have activated : Keeps (Owns own) ActivePragmas (fun _ => True)
      (do Action.report (.activated name options); pure (scope.active.insert name options)) :=
    lawful.andThen (lawful.report _) fun _ _ => lawful.gives trivial
  have thrown : Keeps (Owns own) PUnit (fun _ => True) (throw (.unknownPragma name)) := .throw _
  have refused := lawful.andThen thrown fun _ _ => activated
  simp only [activate]
  split
  · exact refused
  · split
    · exact refused
    · exact activated

theorem runReply_owns {render : String → Action String}
    (renders : ∀ text, Keeps (Owns own) String (fun _ => True) (render text)) :
    (reply : Reply) → Keeps (Owns own) Value (fun _ => True) (runReply render reply)
  | .gives _ => (lawful_owns own).gives trivial
  | .raises _ => .throw _
  | .renders text next =>
      (lawful_owns own).andThen (renders text) fun rendered _ =>
        runReply_owns renders (next rendered)

/-- What rendering against a lasting view comes by. -/
def lastingTerms (root : Value) (aliases : Table Tokens) : Terms where
  view := root.Leads
  token _ := True
  nested _ := True
  active _ := True
  piece _ := True
  aliases := aliases

theorem renderCallback_owns (lasting : root.Lasting) {block : BlockRenderer} {scope : Scope}
    (nests : (lastingTerms root aliases).Nests (Warrant.alone (Keeps (Owns own))) block block)
    (admits : (lastingTerms root aliases).Admits scope) (name template : String)
    {callback : Value} (led : root.Leads callback) (callable : callback.kind = .ok .callable) :
    Keeps (Owns own) String (fun _ => True)
      (renderCallback setting block scope name template callback) := by
  have lawful := lawful_owns own
  have foreign (change : Change) (member : change ∈ callback.changes (some template)) :
      change.id.isOwn = false := lasting.unchanged change (.handed led callable member)
  refine lawful.andThen (lawful.report _) fun _ _ => ?_
  refine lawful.andThen (note_owns foreign) fun _ _ => ?_
  refine lawful.andThen (runReply_owns (fun text => ?_) _) fun _ _ => lawful.gives trivial
  split
  · exact lawful.gives trivial
  · refine lawful.andThen (compile_owns _ text) fun tokens _ => ?_
    have inner := nests (scope.descend scope.view) tokens (admits.descend admits.view) trivial
    exact lawful.andThen inner fun _ _ => lawful.gives trivial

theorem upholds_lasting (lasting : root.Lasting) (setting : Setting) (aliases : Table Tokens) :
    Upholds (Keeps (Owns own)) setting (lastingTerms root aliases) where
  toBinding := (lawful_owns own).binding
  encloses _ _ := trivial
  inactive := trivial
  silent := trivial
  content _ := trivial
  joins _ := trivial
  joinsPieces _ := .ofView fun _ _ => trivial
  offers _ _ := (lawful_owns own).weaken (offer_owns _ _ _ _ _) fun _ _ _ _ => trivial
  escapes admits _ := renderEscaped_owns lasting admits.view _
  unescapes admits _ :=
    (lawful_owns own).andThen (find_owns lasting _ admits.view) fun _ _ =>
      (lawful_owns own).gives trivial
  finds led _ _ := find_owns lasting _ led
  kinds _ := .ofView fun _ known => known
  takes led listed := takeItems_owns lasting led listed
  calls nests admits led callable := renderCallback_owns lasting nests admits _ _ led callable
  includes _ _ := partialTokens_owns _ _ _
  activates _ _ := activate_owns _ _ _ _

theorem render_keepsOwn (lasting : root.Lasting) (setting : Setting) (tokens : Tokens)
    (aliases : Table Tokens) :
    Keeps (Owns own) String (fun _ => True) (render setting tokens root aliases) :=
  render_upheld (upholds_lasting lasting setting aliases) .throw
    (fun _ _ kept => ⟨kept, fun _ _ _ => trivial⟩) (fun _ _ _ _ => trivial) .here trivial

/-- Rendering against a lasting view spends no iterator of the view. -/
theorem render_owns (lasting : root.Lasting) (setting : Setting) (tokens : Tokens)
    (aliases : Table Tokens) (store : Store) :
    (final (render setting tokens root aliases store)).memory.again = store.memory.again :=
  (render_keepsOwn lasting setting tokens aliases store rfl).1

end

section

variable {setting : Setting} {tokens : Tokens} {view : Value} {aliases : Table Tokens}

theorem renderAgain_begun (setting : Setting) (tokens : Tokens) (view : Value)
    (aliases : Table Tokens) (store : Store) :
    renderAgain setting tokens view aliases store =
      render setting tokens view aliases { store with memory := store.memory.again } := rfl

theorem renderAgain_owns (lasting : view.Lasting) (store : Store) :
    (final (renderAgain setting tokens view aliases store)).memory.again =
      store.memory.again := by
  rw [renderAgain_begun, render_owns lasting]
  simp [Memory.again]

theorem renderAgain_replays {store other : Store}
    (same : store.memory.again = other.memory.again) :
    let first := renderAgain setting tokens view aliases store
    store.cache.Grows (final first).cache ∧
      (other.cache.Covers Set.univ first →
        Repeats first other.cache (renderAgain setting tokens view aliases other)) := by
  obtain ⟨grows, replays⟩ := render_replays setting tokens view aliases
    { store with memory := store.memory.again }
  exact ⟨grows, replays { other with memory := other.memory.again } same⟩

/-- Calls that leave the view as it is and repeat themselves all end in the same way. -/
theorem Repeats.iterate {α : Type} {call : Action α} {store : Store}
    (owns : ∀ store, (final (call store)).memory.again = store.memory.again)
    (repeats : ∀ other : Store, store.memory.again = other.memory.again →
      other.cache.Covers Set.univ (call store) → Repeats (call store) other.cache (call other))
    (count : Nat) :
    let reached (count : Nat) : Store := (fun state => final (call state))^[count] store
    store.memory.again = (reached count).memory.again ∧
      outcome (call (reached count)) = outcome (call store) := by
  intro reached
  have next (count : Nat) : reached (count + 1) = final (call (reached count)) :=
    Function.iterate_succ_apply' _ _ _
  have own (count : Nat) : store.memory.again = (reached count).memory.again := by
    induction count with
    | zero => rfl
    | succ count ih => rw [next, owns, ← ih]
  -- from the first call on, the cache answers as that call has left it
  have ends (count : Nat) : outcome (call (reached count)) = outcome (call store) ∧
      ∀ name, (final (call (reached count))).cache.get? name =
        (final (call store)).cache.get? name := by
    induction count with
    | zero => exact ⟨rfl, fun _ => rfl⟩
    | succ count ih =>
        have cache (name : String) : (reached (count + 1)).cache.get? name =
            (final (call store)).cache.get? name := by
          rw [next]
          exact ih.2 name
        have repeated := repeats _ (own (count + 1)) (Cache.covers_final cache rfl)
        exact ⟨repeated.ended, fun name => (repeated.cache name).trans (cache name)⟩
  exact ⟨own count, (ends count).1⟩

end

end Logicless
