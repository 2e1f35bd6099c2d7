import Logicless.Proofs.Overriding
import Logicless.Proofs.Repetition

namespace Logicless

section

variable {library : Library}

/-- The state in which tokens have been kept under a key. -/
def Store.remembering (store : Store) (key : Value) (tokens : Tokens) : Store :=
  { store with cache := store.cache.insert key tokens }

theorem prepareNamed_of_ok {ready : Table Tokens} {name : Value} {spec : PartialSpec}
    {rest : List (Value × PartialSpec)} {store after : Store} {tokens : Tokens}
    (run : preparePartial library name spec store = .ok tokens after) :
    prepareNamed library ready ((name, spec) :: rest) store =
      prepareNamed library (addAlias ready name tokens) rest (after.remembering name tokens) := by
  rw [prepareNamed, bind_of_ok run]
  rfl

theorem prepareNamed_of_error {ready : Table Tokens} {name : Value} {spec : PartialSpec}
    {rest : List (Value × PartialSpec)} {store after : Store} {fault : Fault}
    (run : preparePartial library name spec store = .error fault after) :
    prepareNamed library ready ((name, spec) :: rest) store = .error fault after := by
  rw [prepareNamed, bind_of_error run]

theorem preparePartial_replays (library : Library) (name : Value) (spec : PartialSpec) :
    Replays Set.univ Tokens (preparePartial library name spec)
      (preparePartial library name spec) := by
  cases spec with
  | template template => exact tokenizeWithin_replays _ _ true template
  | tokens tokens => exact (sequential_replays Set.univ).gives tokens
  | unusable typeName => exact .throw _

/-- What is kept under a name stays, unless a partial goes by that name. -/
theorem prepareNamed_keeps {specs : List (Value × PartialSpec)} {ready : Table Tokens}
    {store : Store} {name : String} {tokens : Tokens}
    (free : ∀ spec ∈ specs, spec.1 ≠ .text name) (known : store.cache.get? name = some tokens) :
    (final (prepareNamed library ready specs store)).cache.get? name = some tokens := by
  induction specs generalizing ready store with
  | nil => exact known
  | cons entry rest ih =>
      obtain ⟨key, spec⟩ := entry
      have grown := (preparePartial_replays library key spec store).1.get? known
      cases run : preparePartial library key spec store with
      | error fault after =>
          rw [run] at grown
          rw [prepareNamed_of_error run]
          exact grown
      | ok given after =>
          rw [run] at grown
          rw [prepareNamed_of_ok run]
          refine ih (fun other member => free other (.tail _ member)) ?_
          exact (after.cache.get?_insert_of_key_ne (free _ (.head _)) given).trans grown

/-- Aliases that are pairwise different, as the keys of a mapping are. -/
def Partials.Distinct : Partials → Prop
  | .named specs => specs.Pairwise fun first later => Value.sameKey first.1 later.1 = false
  | .unusable _ => True

theorem key_ne_of_distinct {name : String} {spec : PartialSpec}
    {rest : List (Value × PartialSpec)}
    (distinct : (Partials.named ((.text name, spec) :: rest)).Distinct) :
    ∀ entry ∈ rest, entry.1 ≠ .text name := by
  intro entry member same
  have different := (List.pairwise_cons.mp distinct).1 entry member
  rw [same] at different
  simp [Value.sameKey] at different

/-- Whether the names that partials are made from are still kept as they were once all partials have
been prepared: no alias has taken the place of such a name. -/
def Undisturbed (library : Library) (ready : Table Tokens) (specs : List (Value × PartialSpec))
    (store : Store) : Prop :=
  ∀ before name template rest reached next tokens after,
    specs = before ++ (name, .template template) :: rest →
    prepareNamed library ready before store = .ok reached next →
    tokenize library true template next = .ok tokens after →
    ∀ asked, Asked template asked → ∀ kept, after.cache.get? asked = some kept →
      (final (prepareNamed library ready specs store)).cache.get? asked = some kept

theorem Undisturbed.rest {ready : Table Tokens} {name : Value} {spec : PartialSpec}
    {rest : List (Value × PartialSpec)} {store after : Store} {tokens : Tokens}
    (undisturbed : Undisturbed library ready ((name, spec) :: rest) store)
    (run : preparePartial library name spec store = .ok tokens after) :
    Undisturbed library (addAlias ready name tokens) rest (after.remembering name tokens) := by
  intro before key template behind reached next given further split prepared
  rw [← prepareNamed_of_ok run] at prepared ⊢
  exact undisturbed ((name, spec) :: before) key template behind reached next given further
    (by rw [split, List.cons_append]) prepared

/-- The first partial is made again from what it was made from. -/
theorem Undisturbed.first {ready : Table Tokens} {name : Value} {spec : PartialSpec}
    {rest : List (Value × PartialSpec)} {store after other : Store} {tokens : Tokens}
    (undisturbed : Undisturbed library ready ((name, spec) :: rest) store)
    (run : preparePartial library name spec store = .ok tokens after)
    (memory : store.memory = other.memory)
    (recalls : other.cache.Recalls Set.univ
      (final (prepareNamed library ready ((name, spec) :: rest) store)).cache) :
    Repeats (.ok tokens after) other.cache (preparePartial library name spec other) := by
  cases spec with
  | template template =>
      have replays : Replays {asked | Asked template asked} Tokens (tokenize library true template)
          (tokenize library true template) :=
        tokenizeWithin_replays_asked _ _ fun _ asks => asks
      have sought : tokenize library true template store = .ok tokens after := run
      have covers : other.cache.Covers {asked | Asked template asked}
          (tokenize library true template store) := by
        rw [sought]
        intro asked asks given found
        refine recalls asked trivial given ?_
        exact undisturbed [] name template rest ready store tokens after rfl rfl sought asked asks
          given found
      exact sought ▸ (replays store).2 other memory covers
  | tokens given =>
      cases run
      exact ⟨rfl, fun _ => rfl, memory.symm⟩
  | unusable typeName => cases run

theorem prepareNamed_append {before rest : List (Value × PartialSpec)}
    {ready reached : Table Tokens} {store next : Store}
    (prepared : prepareNamed library ready before store = .ok reached next) :
    prepareNamed library ready (before ++ rest) store = prepareNamed library reached rest next := by
  induction before generalizing ready store with
  | nil =>
      cases prepared
      rfl
  | cons entry before ih =>
      obtain ⟨name, spec⟩ := entry
      cases run : preparePartial library name spec store with
      | error fault after =>
          rw [prepareNamed_of_error run] at prepared
          contradiction
      | ok tokens after =>
          rw [prepareNamed_of_ok run] at prepared
          rw [List.cons_append, prepareNamed_of_ok run]
          exact ih prepared

theorem tokenize_known {template : String} (named : isTemplateText template = false)
    {store after : Store} {tokens : Tokens}
    (run : tokenize library true template store = .ok tokens after) :
    after.cache.get? template = some tokens := by
  unfold tokenize at run
  cases limit : library.chainLimit + template.length with
  | zero =>
      rw [limit] at run
      contradiction
  | succ fuel =>
      rw [limit] at run
      cases known : store.cache.get? template with
      | some kept =>
          rw [tokenizeWithin_hit named known] at run
          cases run
          exact known
      | none =>
          have kept := @tokenizeWithin_kept library.source (fuel + 1) template store named known
          rw [run] at kept
          exact kept

/-- Partials are undisturbed if no alias that stands at or behind their place is a name that they
are made from, other than that of a template under its own name. -/
theorem undisturbed_of_apart {specs : List (Value × PartialSpec)}
    (apart : ∀ before name template rest, specs = before ++ (name, .template template) :: rest →
      ∀ asked, Asked template asked →
        (name = .text asked → isTemplateText template = false) ∧
          ∀ entry ∈ rest, entry.1 ≠ .text asked) (ready : Table Tokens) (store : Store) :
    Undisturbed library ready specs store := by
  intro before name template rest reached next tokens after split prepared sought asked asks kept
    found
  obtain ⟨own, later⟩ := apart before name template rest split asked asks
  have run : preparePartial library name (.template template) next = .ok tokens after := sought
  rw [split, prepareNamed_append prepared, prepareNamed_of_ok run]
  refine prepareNamed_keeps later ?_
  by_cases here : name = .text asked
  · have named := own here
    cases asks with
    | text plain => simp [named] at plain
    | name _ =>
        rw [tokenize_known named sought] at found
        subst here
        exact (after.cache.get?_insert_self template tokens).trans found
  · exact (after.cache.get?_insert_of_key_ne here tokens).trans found

theorem prepareNamed_replaysAt {specs : List (Value × PartialSpec)} {ready : Table Tokens}
    {store : Store} (distinct : (Partials.named specs).Distinct)
    (undisturbed : Undisturbed library ready specs store) :
    ReplaysAt Set.univ store (prepareNamed library ready specs)
      (prepareNamed library ready specs) := by
  induction specs generalizing ready store with
  | nil => exact ((sequential_replays Set.univ).gives ready store).2
  | cons entry rest ih =>
      obtain ⟨name, spec⟩ := entry
      intro other memory covers
      cases run : preparePartial library name spec store with
      | error fault after =>
          have replays := (preparePartial_replays library name spec store).2 other memory
          rw [run] at replays
          rw [prepareNamed_of_error run] at covers ⊢
          obtain ⟨ended, cache, kept⟩ := replays covers
          obtain ⟨otherAfter, otherRun⟩ := error_of_outcome ended
          rw [prepareNamed_of_error otherRun]
          rw [otherRun] at cache kept
          exact ⟨rfl, cache, kept⟩
      | ok tokens after =>
          obtain ⟨ended, cache, kept⟩ := undisturbed.first run memory covers.recalls
          obtain ⟨otherAfter, otherRun⟩ := ok_of_outcome ended
          rw [otherRun] at cache kept
          have recalls := covers.recalls
          rw [prepareNamed_of_ok run] at covers recalls ⊢
          rw [prepareNamed_of_ok otherRun]
          -- the alias is kept again where it is kept already
          have same (asked : String) :
              (otherAfter.remembering name tokens).cache.get? asked = other.cache.get? asked := by
            by_cases here : name = .text asked
            · subst here
              have kept : (after.remembering (.text asked) tokens).cache.get? asked = some tokens :=
                after.cache.get?_insert_self asked tokens
              refine (otherAfter.cache.get?_insert_self asked tokens).trans ?_
              exact (recalls asked trivial tokens
                (prepareNamed_keeps (key_ne_of_distinct distinct) kept)).symm
            · exact (otherAfter.cache.get?_insert_of_key_ne here tokens).trans (cache asked)
          have later := ih (List.pairwise_cons.mp distinct).2 (undisturbed.rest run)
            (otherAfter.remembering name tokens) kept.symm (covers.of_same same)
          exact ⟨later.ended, fun asked => (later.cache asked).trans (same asked), later.memory⟩

theorem preparePartials_replaysAt {partials : Partials} {store : Store}
    (distinct : partials.Distinct)
    (undisturbed : ∀ specs, partials = .named specs → Undisturbed library .empty specs store) :
    ReplaysAt Set.univ store (preparePartials library partials)
      (preparePartials library partials) := by
  cases partials with
  | named specs => exact prepareNamed_replaysAt distinct (undisturbed specs rfl)
  | unusable typeName =>
      exact (Replays.throw (.partialsNotNamed typeName) store).2

/-- Making partials ready is made of searches for tokens. -/
theorem preparePartials_related {R : ActionRelation} (searching : Searching R)
    (finds : ∀ template, R Tokens (tokenize library true template) (tokenize library true template))
    (partials : Partials) :
    R (Table Tokens) (preparePartials library partials) (preparePartials library partials) := by
  cases partials with
  | unusable typeName => exact searching.fails _ (by simp)
  | named specs =>
      rw [preparePartials]
      generalize Table.empty = ready
      induction specs generalizing ready with
      | nil => exact searching.gives ready
      | cons entry rest ih =>
          obtain ⟨name, spec⟩ := entry
          have prepared : R Tokens (preparePartial library name spec)
              (preparePartial library name spec) := by
            cases spec with
            | template template => exact finds template
            | tokens tokens => exact searching.gives tokens
            | unusable typeName => exact searching.fails _ (by simp)
          refine searching.andThen prepared fun tokens => ?_
          exact searching.andThen (searching.remembers name tokens) fun _ => ih _

/-- The state in which the one-shot iterators that calls have built are forgotten. -/
def Store.renewed (store : Store) : Store := { store with memory := store.memory.again }

/-- Renders a template against a view that earlier requests may have rendered, too. -/
def requestAgain (setting : Setting) (library : Library) (template : String) (view : Value)
    (partials : Partials) : Action String := do
  modify Store.renewed
  renderTemplate setting library template view partials

variable {setting : Setting} {template : String} {view : Value} {partials : Partials}

theorem renderTemplate_eq : renderTemplate setting library template view partials =
    preparePartials library partials >>= fun ready =>
      tokenize library true template >>= fun tokens => render setting tokens view ready := by
  simp only [renderTemplate, prepare, bind_assoc, pure_bind]

theorem requestAgain_owns (lasting : view.Lasting) (store : Store) :
    (final (requestAgain setting library template view partials store)).memory.again =
      store.memory.again := by
  have lawful := lawful_owns store.memory.again
  have prepared : KeepsMemory (Table Tokens) (preparePartials library partials)
      (preparePartials library partials) :=
    preparePartials_related searching_keepsMemory
      (fun template => tokenizeWithin_keepsMemory _ _ true template) partials
  have whole : Keeps (Owns store.memory.again) String (fun _ => True)
      (renderTemplate setting library template view partials) := by
    rw [renderTemplate_eq]
    refine lawful.andThen prepared.owns fun ready _ => ?_
    refine lawful.andThen (tokenize_owns library template) fun tokens _ => ?_
    exact render_keepsOwn lasting setting tokens ready
  have renewed : store.renewed.memory.again = store.memory.again := by
    simp [Store.renewed, Memory.again]
  exact (whole store.renewed renewed).1

end

end Logicless
