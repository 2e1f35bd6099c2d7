import Logicless.Engine.Request
import Logicless.Proofs.Inheritance

namespace Logicless

/-!
Nobody notices the cache.

A cache is coherent if all its entries are what the compiler makes of their names from an empty
cache. Finding the tokens of a template ends in the same way whatever coherent cache it begins with,
and leaves a coherent cache behind, also where it fails after a parent has been cached (`Steady`).
Rendering looks at the iterators of the view besides, so two renderings end in the same way if they
begin with the same iterators (`Agree`).

The same holds of caches that began with any other content, and have got from there what the compiler
makes of names on top of that content (`Cache.Stable`).

All this depends on templates whose lines of inheritance end within the bound of the library.
Otherwise a cached parent could save a line from being cut off.
-/

/-- What the compiler makes of a template from an empty cache. -/
def Library.meaning (library : Library) (template : String) : Except Fault Tokens :=
  outcome (tokenize library true template .fresh)

/-- What the compiler makes of a template from some cache. -/
def Library.meaningFrom (library : Library) (base : Cache) (template : String) :
    Except Fault Tokens :=
  outcome (tokenize library true template { Store.fresh with cache := base })

def Library.Bounded (library : Library) : Prop :=
  ∀ template, EndsWithin library.source (library.chainLimit + template.length) template

namespace Cache

/-- Whether every entry stands under a name and is what the compiler makes of that name. -/
def Coherent (library : Library) (cache : Cache) : Prop :=
  ∀ key tokens, (key, tokens) ∈ cache.entries →
    ∃ name, key = .text name ∧ isTemplateText name = false ∧ library.meaning name = .ok tokens

theorem coherent_empty (library : Library) : Cache.empty.Coherent library :=
  fun _ _ => nofun

namespace Coherent

variable {library : Library} {cache : Cache} {name : String} {tokens : Tokens}

theorem meaning_of_get? (coherent : cache.Coherent library)
    (found : cache.get? name = some tokens) : library.meaning name = .ok tokens := by
  obtain ⟨entries⟩ := cache
  simp only [get?] at found
  induction entries with
  | nil => contradiction
  | cons entry rest ih =>
      obtain ⟨key, first⟩ := entry
      obtain ⟨other, rfl, _, meant⟩ := coherent key first (.head _)
      simp only [Value.findKey, Value.sameKey, beq_iff_eq] at found
      split at found
      · rename_i same
        cases found
        exact same ▸ meant
      · exact ih (fun key tokens member => coherent key tokens (.tail _ member)) found

theorem insert (coherent : cache.Coherent library) (named : isTemplateText name = false)
    (meant : library.meaning name = .ok tokens) :
    (cache.insert (.text name) tokens).Coherent library := by
  obtain ⟨entries⟩ := cache
  intro key kept member
  simp only [Cache.insert] at member
  induction entries with
  | nil =>
      cases List.mem_singleton.mp member
      exact ⟨name, rfl, named, meant⟩
  | cons entry rest ih =>
      obtain ⟨first, old⟩ := entry
      obtain ⟨other, rfl, otherNamed, otherMeant⟩ := coherent first old (.head _)
      have later (key : Value) (tokens : Tokens) (further : (key, tokens) ∈ rest) :=
        coherent key tokens (.tail _ further)
      simp only [Value.putKey, Value.sameKey, beq_iff_eq] at member
      split at member
      · rename_i same
        subst same
        rcases List.mem_cons.mp member with here | further
        · cases here
          exact ⟨other, rfl, named, meant⟩
        · exact later key kept further
      · rcases List.mem_cons.mp member with here | further
        · cases here
          exact ⟨other, rfl, otherNamed, otherMeant⟩
        · exact ih later further

end Coherent

end Cache

/-- A sort of caches that have what some cache has, and besides what the compiler makes of names from
there. -/
structure Cache.Stable (library : Library) (base : Cache) (sort : Cache → Prop) : Prop where
  begins : sort base
  hits {cache : Cache} {name : String} {tokens : Tokens} : sort cache →
    isTemplateText name = false → cache.get? name = some tokens →
      library.meaningFrom base name = .ok tokens
  misses {cache : Cache} {name : String} : sort cache → isTemplateText name = false →
    cache.get? name = none → base.get? name = none
  inserts {cache : Cache} {name : String} {tokens : Tokens} : sort cache →
    isTemplateText name = false → base.get? name = none →
      library.meaningFrom base name = .ok tokens → sort (cache.insert (.text name) tokens)

theorem Cache.stable_coherent (library : Library) :
    Cache.Stable library .empty fun cache => cache.Coherent library where
  begins := coherent_empty library
  hits coherent _ found := coherent.meaning_of_get? found
  misses _ _ _ := rfl
  inserts coherent named _ meant := coherent.insert named meant

/-- A computation that ends in the same way from every cache of a sort, leaves such a cache behind,
and keeps its hands off the iterators. The second computation is not looked at. -/
def Stays (sort : Cache → Prop) : ActionRelation := fun _ action _ =>
  Settled (fun memory store => sort store.cache ∧ store.memory = memory) action

/-- The same of coherent caches. -/
abbrev Steady (library : Library) : ActionRelation :=
  Stays fun cache => cache.Coherent library

theorem sequential_stays (sort : Cache → Prop) : Sequential (Stays sort) where
  gives result := .pure result
  fails fault _ := .throw fault
  andThen := .andThen
  reports _ := ⟨.ok (), fun _ _ holds => ⟨rfl, holds⟩⟩

section

variable {library : Library}

theorem tokenizeWithin_hit {source : Source} {fuel : Nat} {template : String} {store : Store}
    {tokens : Tokens} (named : isTemplateText template = false)
    (found : store.cache.get? template = some tokens) :
    tokenizeWithin source (fuel + 1) true template store =
      .ok tokens { store with reports := .cacheHit template :: store.reports } := by
  have recalled : Action.cached? template store = .ok (store.cache.get? template) store := rfl
  rw [tokenizeWithin_keeping named, bind_of_ok recalled, found]
  rfl

theorem tokenizeWithin_miss {source : Source} {fuel : Nat} {template : String} {store : Store}
    (named : isTemplateText template = false) (absent : store.cache.get? template = none) :
    tokenizeWithin source (fuel + 1) true template store = (do
      let tokens ← search source (tokenizeWithin source fuel true) template
      Action.remember (.text template) tokens
      return tokens) store := by
  have recalled : Action.cached? template store = .ok (store.cache.get? template) store := rfl
  rw [tokenizeWithin_keeping named, bind_of_ok recalled, absent]

/-- Keeping what has been found does not change what has been found. -/
theorem outcome_remembered (first : Action Tokens) (key : Value) (store : Store) :
    outcome ((do
      let tokens ← first
      Action.remember key tokens
      return tokens : Action Tokens) store) = outcome (first store) := by
  cases run : first store with
  | error fault after => rw [bind_of_error run]
  | ok tokens after =>
      rw [bind_of_ok run]
      rfl

section

variable {base : Cache} {sort : Cache → Prop} (stable : Cache.Stable library base sort)
  (bounded : library.Bounded)

include stable bounded

/-- A name that is looked up in the cache first, if searching for it ends in the same way from every
cache of the sort. -/
theorem keeping_stays {fuel : Nat} {template : String}
    (ends : EndsWithin library.source (fuel + 1) template)
    (named : isTemplateText template = false)
    (searched : Stays sort Tokens (search library.source (tokenizeWithin library.source fuel true)
      template) (search library.source (tokenizeWithin library.source fuel true) template)) :
    Stays sort Tokens (tokenizeWithin library.source (fuel + 1) true template)
      (tokenizeWithin library.source (fuel + 1) true template) := by
  obtain ⟨expected, steady⟩ := searched
  have settles (meant : library.meaningFrom base template = expected)
      (absent : base.get? template = none) (memory : Memory) (store : Store)
      (holds : sort store.cache ∧ store.memory = memory) :
      outcome (tokenizeWithin library.source (fuel + 1) true template store) = expected ∧
        let after := final (tokenizeWithin library.source (fuel + 1) true template store)
        sort after.cache ∧ after.memory = memory := by
    obtain ⟨fits, same⟩ := holds
    cases known : store.cache.get? template with
    | some tokens =>
        rw [tokenizeWithin_hit named known]
        exact ⟨(stable.hits fits named known).symm.trans meant, fits, same⟩
    | none =>
        obtain ⟨ended, kept, same⟩ := steady memory store ⟨fits, same⟩
        rw [tokenizeWithin_miss named known, outcome_remembered]
        refine ⟨ended, ?_⟩
        cases run : search library.source (tokenizeWithin library.source fuel true)
            template store with
        | error fault after =>
            rw [bind_of_error run]
            rw [run] at kept same
            exact ⟨kept, same⟩
        | ok tokens after =>
            rw [bind_of_ok run]
            rw [run] at ended kept same
            exact ⟨stable.inserts kept named absent (meant.trans ended.symm), same⟩
  cases given : base.get? template with
  | none =>
      have meant : library.meaningFrom base template = expected := by
        rw [Library.meaningFrom, tokenize, tokenizeWithin_eq (bounded template) ends,
          tokenizeWithin_miss named given, outcome_remembered]
        exact (steady .start { Store.fresh with cache := base } ⟨stable.begins, rfl⟩).1
      exact ⟨expected, settles meant given⟩
  | some tokens =>
      -- all caches of the sort have it
      refine ⟨.ok tokens, fun memory store holds => ?_⟩
      obtain ⟨fits, same⟩ := holds
      cases known : store.cache.get? template with
      | none => exact absurd (stable.misses fits named known) (by simp [given])
      | some others =>
          have meant := (stable.hits fits named known).symm.trans
            (stable.hits stable.begins named given)
          rw [tokenizeWithin_hit named known]
          exact ⟨meant, fits, same⟩

/-- The tokens that a template has from some cache of the sort, within a bound that suffices for it,
are those it has from any. -/
theorem tokenizeWithin_stays {fuel : Nat} {template : String}
    (ends : EndsWithin library.source fuel template) (keep : Bool) :
    Stays sort Tokens (tokenizeWithin library.source fuel keep template)
      (tokenizeWithin library.source fuel keep template) := by
  induction fuel generalizing template keep with
  | zero => exact ends.elim
  | succ fuel ih =>
      have parents (parent : String) (inherits : Inherits library.source template parent) :=
        ih (ends parent inherits) true
      cases named : isTemplateText template with
      | true =>
          rw [tokenizeWithin_text named]
          refine compileText_related (sequential_stays sort) none fun name asked => ?_
          exact parents name ⟨template, by rw [Spells, if_pos named], asked⟩
      | false =>
          have searched := search_related (fun fault _ => .throw fault) (sequential_stays sort)
            named parents
          cases keep with
          | false =>
              rw [tokenizeWithin_passing named]
              exact searched
          | true => exact keeping_stays stable bounded ends named searched

theorem tokenize_stays (keep : Bool) (template : String) :
    Stays sort Tokens (tokenize library keep template) (tokenize library keep template) :=
  tokenizeWithin_stays stable bounded (bounded template) keep

theorem compile_stays (template : Option String) (text : String) :
    Stays sort Tokens (compile library template text) (compile library template text) :=
  compileText_related (sequential_stays sort) template fun _ _ =>
    tokenize_stays stable bounded true _

end

theorem tokenizeWithin_steady (bounded : library.Bounded) {fuel : Nat} {template : String}
    (ends : EndsWithin library.source fuel template) (keep : Bool) :
    Steady library Tokens (tokenizeWithin library.source fuel keep template)
      (tokenizeWithin library.source fuel keep template) :=
  tokenizeWithin_stays (Cache.stable_coherent library) bounded ends keep

theorem tokenize_steady (bounded : library.Bounded) (keep : Bool) (template : String) :
    Steady library Tokens (tokenize library keep template) (tokenize library keep template) :=
  tokenize_stays (Cache.stable_coherent library) bounded keep template

theorem compile_steady (bounded : library.Bounded) (template : Option String) (text : String) :
    Steady library Tokens (compile library template text) (compile library template text) :=
  compile_stays (Cache.stable_coherent library) bounded template text

theorem prepare_steady (bounded : library.Bounded) (template : String) :
    Steady library (Table Tokens × Tokens) (prepare library template .none)
      (prepare library template .none) := by
  refine (sequential_stays _).andThen ((sequential_stays _).gives Table.empty)
    fun ready => ?_
  refine (sequential_stays _).andThen (tokenize_steady bounded true template)
    fun tokens => ?_
  exact (sequential_stays _).gives (ready, tokens)

end

/-- States with caches of one sort, in which the view has been used alike. -/
structure Joint (sort : Cache → Prop) (store other : Store) : Prop where
  cache : sort store.cache
  otherCache : sort other.cache
  memory : store.memory = other.memory

theorem Stays.agree {sort : Cache → Prop} {α : Type} {action : Action α}
    (stays : Stays sort α action action) : EndsAlike (Joint sort) α action action := by
  obtain ⟨expected, ends⟩ := stays
  intro store other joint
  obtain ⟨ended, kept, same⟩ := ends _ store ⟨joint.cache, rfl⟩
  obtain ⟨otherEnded, otherKept, otherSame⟩ := ends _ other ⟨joint.otherCache, rfl⟩
  exact ⟨ended.trans otherEnded.symm, kept, otherKept,
    same.trans (joint.memory.trans otherSame.symm)⟩

theorem congruence_joint (sort : Cache → Prop) : Congruence (EndsAlike (Joint sort)) :=
  congruence_endsAlike (fun _ _ _ _ joint => ⟨joint.cache, joint.otherCache, joint.memory⟩)
    (fun _ _ => Joint.memory) fun _ _ _ joint => ⟨joint.cache, joint.otherCache, rfl⟩

abbrev Alike (library : Library) : Store → Store → Prop :=
  Joint fun cache => cache.Coherent library

/-- Computations that end in the same way from coherent caches and the same iterators, and leave
such behind. -/
abbrev Agree (library : Library) : ActionRelation := EndsAlike (Alike library)

section

variable {library : Library}

theorem renderWithin_agree (bounded : library.Bounded) {setting : Setting}
    (homes : ∀ home, setting.home = some home → home.library = library) (fuel : Nat) (scope : Scope)
    (tokens : Tokens) :
    Agree library Rendered (renderWithin setting fuel scope tokens)
      (renderWithin setting fuel scope tokens) := by
  have congruence := congruence_joint fun cache => cache.Coherent library
  have related : setting.Related (Agree library) setting := by
    refine ⟨rfl, ?_⟩
    cases known : setting.home with
    | none => exact .absent
    | some home =>
        have same := homes home known
        refine .ofLibraries congruence rfl rfl (fun keep name => ?_) fun text => ?_
        · exact same ▸ (tokenize_steady bounded keep name).agree
        · exact same ▸ (compile_steady bounded none text).agree
  refine renderWithin_related congruence related rfl ?_ ?_ fuel scope tokens
  · exact fun _ _ _ joint => ⟨rfl, joint.cache, joint.otherCache, joint.memory⟩
  · exact fun _ _ joint => ⟨rfl, joint⟩

/-- Rendering does not depend on what is cached, as long as that is what the compiler would make of
it. -/
theorem render_agree (bounded : library.Bounded) {setting : Setting}
    (homes : ∀ home, setting.home = some home → home.library = library) (tokens : Tokens)
    (view : Value) (aliases : Table Tokens) :
    Agree library String (render setting tokens view aliases)
      (render setting tokens view aliases) :=
  (renderWithin_agree bounded homes _ _ tokens).andThen fun _ _ _ _ =>
    (congruence_joint _).gives _

end

end Logicless
