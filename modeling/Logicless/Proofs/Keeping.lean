import Mathlib.Logic.Relation
import Logicless.Proofs.Caching

namespace Logicless

/-- How a computation ends that asks for templates: in a result once all of them have been found,
and otherwise because of one of them, or by a fault of its own. An invariant that each of them keeps
holds whenever one is asked for, and in the end. -/
structure Asking (invariant : Store → Prop) (parent : String → Action Tokens)
    (asks : String → Prop) (own : Fault → Prop) (result : EStateM.Result Fault Store Tokens) :
    Prop where
  keeps : invariant (final result)
  found : ∀ tokens after, result = .ok tokens after → ∀ name, asks name →
    ∃ before given next, invariant before ∧ parent name before = .ok given next
  blames : ∀ fault after, result = .error fault after → own fault ∨
    ∃ name, asks name ∧ ∃ before next, invariant before ∧ parent name before = .error fault next

section

variable {invariant : Store → Prop} {parent : String → Action Tokens} {asks : String → Prop}
  {own : Fault → Prop} {store : Store}

theorem Asking.ok {tokens : Tokens} (holds : invariant store) (none : ∀ name, ¬ asks name) :
    Asking invariant parent asks own (.ok tokens store) :=
  ⟨holds, fun _ _ _ name asked => absurd asked (none name), nofun⟩

theorem Asking.error {fault : Fault} (holds : invariant store)
    (blamed : own fault ∨ ∃ name, asks name ∧ ∃ before next, invariant before ∧
      parent name before = .error fault next) :
    Asking invariant parent asks own (.error fault store) where
  keeps := holds
  found := nofun
  blames := by
    rintro _ _ ⟨⟩
    exact blamed

theorem compileScan_asking (template : Option String) (nest : Nest) (scan : Scan)
    (keeps : ∀ name ∈ scan.parents nest.frames, ∀ store, invariant store →
      invariant (final (parent name store)))
    (holds : invariant store) :
    Asking invariant parent (· ∈ scan.parents nest.frames)
      (fun fault => ∃ flaw, fault = .malformed flaw template)
      (compileScan parent template nest scan store) := by
  induction scan generalizing nest store with
  | finished chunk =>
      simp only [compileScan]
      cases (nest.addChunk chunk).finish with
      | ok tokens => exact .ok holds fun _ => List.not_mem_nil
      | error flaw => exact .error holds (.inl ⟨_, rfl⟩)
  | broken chunk flaw => exact .error holds (.inl ⟨_, rfl⟩)
  | tagged chunk tag rest ih =>
      simp only [compileScan]
      rw [← Nest.frames_addChunk nest chunk] at keeps ⊢
      generalize nest.addChunk chunk = reached at keeps ⊢
      have later {tokens : Tokens} {next : Nest} (added : reached.addTag tokens tag = .ok next)
          {middle : Store} (still : invariant middle)
          (asked : ∀ name ∈ reached.parent? tag,
            ∃ before given next, invariant before ∧ parent name before = .ok given next) :
          Asking invariant parent (· ∈ (Scan.tagged chunk tag rest).parents reached.frames)
            (fun fault => ∃ flaw, fault = .malformed flaw template)
            (compileScan parent template next rest middle) := by
        rw [Nest.parents_addTag chunk rest added] at keeps ⊢
        obtain ⟨kept, found, blames⟩ :=
          ih next (fun name member => keeps name (List.mem_append_right _ member)) still
        refine ⟨kept, fun tokens after run name member => ?_, fun fault after run => ?_⟩
        · rcases List.mem_append.mp member with here | further
          · exact asked name (by simpa using here)
          · exact found tokens after run name further
        · refine (blames fault after run).imp_right ?_
          rintro ⟨name, member, failed⟩
          exact ⟨name, List.mem_append_right _ member, failed⟩
      cases asked : reached.parent? tag with
      | none =>
          simp only [pure_bind]
          cases added : reached.addTag [] tag with
          | error flaw => exact .error holds (.inl ⟨_, rfl⟩)
          | ok next => exact later added holds (by simp [asked])
      | some name =>
          have member : name ∈ (Scan.tagged chunk tag rest).parents reached.frames :=
            Nest.mem_parents_of_asked asked
          have still := keeps name member store holds
          cases run : parent name store with
          | error fault after =>
              rw [run] at still
              simp only [bind_of_error run]
              exact .error still (.inr ⟨name, member, store, after, holds, run⟩)
          | ok tokens middle =>
              rw [run] at still
              simp only [bind_of_ok run]
              cases added : reached.addTag tokens tag with
              | error flaw => exact .error still (.inl ⟨_, rfl⟩)
              | ok next =>
                  refine later added still fun other same => ?_
                  rw [asked] at same
                  cases same
                  exact ⟨store, tokens, middle, holds, run⟩

section

variable (reports : ∀ (store : Store) (events : List Event), invariant store →
  invariant { store with reports := events })

include reports

theorem compileText_asking (template : Option String) {text : String}
    (keeps : ∀ name ∈ (Scan.ofText text.toList).parents [], ∀ store, invariant store →
      invariant (final (parent name store)))
    (holds : invariant store) :
    Asking invariant parent (· ∈ (Scan.ofText text.toList).parents [])
      (fun fault => ∃ flaw, fault = .malformed flaw template)
      (compileText parent template text store) := by
  have asking : Asking invariant parent (· ∈ (Scan.ofText text.toList).parents []) _
      (compileScan parent template .empty (.ofText text.toList) store) :=
    compileScan_asking template .empty _ keeps holds
  rw [compileText]
  cases run : compileScan parent template .empty (.ofText text.toList) store with
  | error fault after =>
      rw [bind_of_error run]
      rwa [run] at asking
  | ok tokens after =>
      rw [bind_of_ok run]
      rw [run] at asking
      refine ⟨reports after _ asking.keeps, ?_, nofun⟩
      rintro _ _ ⟨⟩
      exact asking.found tokens after rfl

end

end

/-- Finding the tokens of a template without looking into the cache. -/
def seek (source : Source) (parent : String → Action Tokens) (template : String) : Action Tokens :=
  if isTemplateText template then compileText parent none template
  else search source parent template

/-- Why a search may fail even if all templates that it asks for are found. -/
def Source.Fails (source : Source) (template : String) (fault : Fault) : Prop :=
  (∃ flaw origin, fault = .malformed flaw origin) ∨
    (source template).needed template = .error fault ∨ fault = .templateUnusable template

/-- The state in which a search looks at the answer to a name. -/
def Store.asking (store : Store) (source : Source) (template : String) : Store :=
  { store with reports :=
      (source template).reports.reverse ++ .cacheMiss template :: store.reports }

theorem search_begun (source : Source) (parent : String → Action Tokens) (template : String)
    (store : Store) :
    search source parent template store =
      (match (source template).needed template with
        | .ok (.text text) => compileText parent (some template) text
        | .ok (.tokens tokens) => pure tokens
        | .ok _ => throw (.templateUnusable template)
        | .error fault => throw fault : Action Tokens) (store.asking source template) := rfl

theorem seek_asking {invariant : Store → Prop} {parent : String → Action Tokens} {source : Source}
    {template : String} {store : Store}
    (reports : ∀ (store : Store) (events : List Event), invariant store →
      invariant { store with reports := events })
    (keeps : ∀ name, Inherits source template name → ∀ store, invariant store →
      invariant (final (parent name store)))
    (holds : invariant store) :
    Asking invariant parent (Inherits source template) (source.Fails template)
      (seek source parent template store) := by
  have compiled {origin : Option String} {text : String} (spells : Spells source template text)
      {store : Store} (holds : invariant store) :
      Asking invariant parent (Inherits source template) (source.Fails template)
        (compileText parent origin text store) := by
    obtain ⟨kept, found, blames⟩ := compileText_asking reports origin
      (fun name asked => keeps name ⟨text, spells, asked⟩) holds
    refine ⟨kept, fun tokens after run name inherits => ?_, fun fault after run => ?_⟩
    · obtain ⟨other, alsoSpells, asked⟩ := inherits
      have same : other = text := by
        unfold Spells at spells alsoSpells
        split at spells
        · rw [if_pos ‹_›] at alsoSpells
          rw [alsoSpells, spells]
        · rw [if_neg ‹_›, spells] at alsoSpells
          cases alsoSpells
          rfl
      exact found tokens after run name (same ▸ asked)
    · refine (blames fault after run).imp (fun ⟨flaw, same⟩ => .inl ⟨flaw, origin, same⟩) ?_
      rintro ⟨name, asked, failed⟩
      exact ⟨name, ⟨text, spells, asked⟩, failed⟩
  unfold seek
  split
  · rename_i text
    exact compiled (by rw [Spells, if_pos text]) holds
  · rename_i named
    have begun : invariant (store.asking source template) := reports store _ holds
    rw [search_begun]
    have unspelled {answer : Answer} (needed : (source template).needed template = .ok answer)
        (other : ∀ text, answer ≠ .text text) (name : String) :
        ¬ Inherits source template name := by
      rintro ⟨text, spells, _⟩
      rw [Spells, if_neg named, Retrieval.answer_of_needed needed] at spells
      cases spells
      exact other text rfl
    cases needed : (source template).needed template with
    | error fault => exact .error begun (.inl (.inr (.inl needed)))
    | ok answer =>
        cases answer with
        | text text =>
            refine compiled ?_ begun
            rw [Spells, if_neg named, Retrieval.answer_of_needed needed]
        | tokens tokens => exact .ok begun (unspelled needed (by simp))
        | absent | value => exact .error begun (.inl (.inr (.inr rfl)))

/-- Whether the tokens of a template are at hand. -/
def Cache.Has (cache : Cache) (template : String) : Prop :=
  isTemplateText template = false ∧ cache.get? template ≠ none

/-- The state in which the tokens of a template have been kept, if it goes by a name. -/
def Store.keeping (store : Store) (template : String) (tokens : Tokens) : Store :=
  if isTemplateText template then store
  else { store with cache := store.cache.insert (.text template) tokens }

/-- How finding the tokens of a template ends. -/
inductive Ending (source : Source) (parent : String → Action Tokens) (template : String)
    (store : Store) : EStateM.Result Fault Store Tokens → Prop where
  | hit (known : store.cache.Has template) (tokens : Tokens) :
      Ending source parent template store
        (.ok tokens { store with reports := .cacheHit template :: store.reports })
  | failed {fault : Fault} {after : Store} (missing : ¬ store.cache.Has template)
      (run : seek source parent template store = .error fault after) :
      Ending source parent template store (.error fault after)
  | sought {tokens : Tokens} {after : Store} (missing : ¬ store.cache.Has template)
      (run : seek source parent template store = .ok tokens after) :
      Ending source parent template store (.ok tokens (after.keeping template tokens))

theorem tokenizeWithin_ending (source : Source) (fuel : Nat) (template : String) (store : Store) :
    Ending source (tokenizeWithin source fuel true) template store
      (tokenizeWithin source (fuel + 1) true template store) := by
  by_cases known : store.cache.Has template
  · obtain ⟨tokens, found⟩ := Option.ne_none_iff_exists'.mp known.2
    rw [tokenizeWithin_hit known.1 found]
    exact .hit known tokens
  · have sought : tokenizeWithin source (fuel + 1) true template store =
        (do
          let tokens ← seek source (tokenizeWithin source fuel true) template
          if isTemplateText template then return tokens
          Action.remember (.text template) tokens
          return tokens) store := by
      cases named : isTemplateText template with
      | true =>
          rw [tokenizeWithin_text named, seek, if_pos named]
          exact congrFun (bind_pure _).symm store
      | false =>
          have absent : store.cache.get? template = none :=
            Classical.not_not.mp fun here => known ⟨named, here⟩
          rw [tokenizeWithin_miss named absent, seek, if_neg (by simp [named])]
          rfl
    rw [sought]
    cases run : seek source (tokenizeWithin source fuel true) template store with
    | error fault after =>
        rw [bind_of_error run]
        exact .failed known run
    | ok tokens after =>
        rw [bind_of_ok run]
        have kept := Ending.sought known run
        unfold Store.keeping at kept
        split
        · rw [if_pos ‹_›] at kept
          exact kept
        · rw [if_neg ‹_›] at kept
          exact kept

/-- A template asks for a parent that is not kept in a cache, or that is a text and therefore never
kept. -/
def Asks (source : Source) (base : Cache) (template parent : String) : Prop :=
  Inherits source template parent ∧ (isTemplateText parent = true ∨ base.get? parent = none)

def Grounded (source : Source) (base : Cache) (template : String) : Prop :=
  Acc (fun parent child => Asks source base child parent) template

theorem Grounded.not_cyclic {source : Source} {base : Cache} {template : String}
    (grounded : Grounded source base template) :
    ¬ Relation.TransGen (Asks source base) template template := by
  induction grounded with
  | intro template _ ih =>
      intro cycle
      obtain ⟨parent, asks, back⟩ := Relation.TransGen.head'_iff.mp cycle
      exact ih parent asks (.tail' back asks)

theorem Inherits.has_or_asks {source : Source} {template parent : String}
    (inherits : Inherits source template parent) (base : Cache) :
    base.Has parent ∨ Asks source base template parent := by
  by_cases known : base.Has parent
  · exact .inl known
  · refine .inr ⟨inherits, ?_⟩
    cases named : isTemplateText parent with
    | true => exact .inl rfl
    | false => exact .inr (Classical.not_not.mp fun absent => known ⟨named, absent⟩)

theorem Cache.get?_insert_ne_none {cache : Cache} {name other : String} {tokens : Tokens}
    (known : cache.get? other ≠ none) : (cache.insert (.text name) tokens).get? other ≠ none := by
  by_cases same : other = name
  · rw [same, get?_insert_self]
    exact Option.some_ne_none tokens
  · rwa [get?_insert_of_ne cache same]

section

variable {source : Source} {base cache : Cache}

/-- A cache that has grown out of another one, where nothing has been kept that is not grounded. -/
structure Rests (source : Source) (base cache : Cache) : Prop where
  kept : ∀ name, base.get? name ≠ none → cache.get? name ≠ none
  grounded : ∀ name, cache.get? name ≠ none → base.get? name ≠ none ∨ Grounded source base name

theorem Rests.insert (rests : Rests source base cache) {name : String}
    (grounded : Grounded source base name) (tokens : Tokens) :
    Rests source base (cache.insert (.text name) tokens) where
  kept other known := Cache.get?_insert_ne_none (rests.kept other known)
  grounded other known := by
    by_cases same : other = name
    · exact .inr (same ▸ grounded)
    · exact rests.grounded other (Cache.get?_insert_of_ne cache same tokens ▸ known)

theorem Rests.keeping {store : Store} (rests : Rests source base store.cache) {template : String}
    (grounded : Grounded source base template) (tokens : Tokens) :
    Rests source base (store.keeping template tokens).cache := by
  unfold Store.keeping
  split
  · exact rests
  · exact rests.insert grounded tokens

theorem tokenizeWithin_rests (fuel : Nat) (template : String) {store : Store}
    (rests : Rests source base store.cache) :
    Rests source base (final (tokenizeWithin source fuel true template store)).cache ∧
      ∀ tokens after, tokenizeWithin source fuel true template store = .ok tokens after →
        base.Has template ∨ Grounded source base template := by
  induction fuel generalizing template store with
  | zero => exact ⟨rests, nofun⟩
  | succ fuel ih =>
      have asking : Asking (fun store => Rests source base store.cache)
          (tokenizeWithin source fuel true) (Inherits source template) (source.Fails template)
          (seek source (tokenizeWithin source fuel true) template store) :=
        seek_asking (fun _ _ holds => holds) (fun name _ store holds => (ih name holds).1) rests
      have ending := tokenizeWithin_ending source fuel template store
      generalize tokenizeWithin source (fuel + 1) true template store = result at ending ⊢
      cases ending with
      | hit known =>
          refine ⟨rests, fun _ _ _ => ?_⟩
          exact (rests.grounded template known.2).imp_left fun here => ⟨known.1, here⟩
      | failed _ run =>
          rw [run] at asking
          exact ⟨asking.keeps, nofun⟩
      | @sought tokens after _ run =>
          rw [run] at asking
          -- every parent that was asked for has been found, and so is grounded itself
          have grounded : Grounded source base template := by
            refine .intro template fun parent asks => ?_
            obtain ⟨before, given, next, holds, found⟩ :=
              asking.found tokens after rfl parent asks.1
            refine ((ih parent holds).2 given next found).resolve_left fun known => ?_
            exact asks.2.elim (by simp [known.1]) known.2
          exact ⟨asking.keeps.keeping grounded tokens, fun _ _ _ => .inr grounded⟩

/-- A cache that has grown out of another one without keeping a name. -/
structure Misses (base : Cache) (name : String) (cache : Cache) : Prop where
  kept : ∀ other, base.get? other ≠ none → cache.get? other ≠ none
  absent : cache.get? name = none

theorem Misses.keeping {name template : String} {store : Store}
    (misses : Misses base name store.cache) (other : name ≠ template) (tokens : Tokens) :
    Misses base name (store.keeping template tokens).cache := by
  unfold Store.keeping
  split
  · exact misses
  · refine ⟨fun known here => Cache.get?_insert_ne_none (misses.kept known here), ?_⟩
    exact (Cache.get?_insert_of_ne store.cache other tokens).trans misses.absent

/-- A template that does not come by a name does not keep it. -/
theorem tokenizeWithin_misses {name : String} (fuel : Nat) {template : String} {store : Store}
    (apart : base.Has template ∨ ¬ Relation.ReflTransGen (Asks source base) template name)
    (misses : Misses base name store.cache) :
    Misses base name (final (tokenizeWithin source fuel true template store)).cache := by
  induction fuel generalizing template store with
  | zero => exact misses
  | succ fuel ih =>
      have elsewhere (missing : ¬ store.cache.Has template) :
          ¬ Relation.ReflTransGen (Asks source base) template name :=
        apart.resolve_left fun known => missing ⟨known.1, misses.kept template known.2⟩
      have asking (missing : ¬ store.cache.Has template) :
          Asking (fun store => Misses base name store.cache)
            (tokenizeWithin source fuel true) (Inherits source template) (source.Fails template)
            (seek source (tokenizeWithin source fuel true) template store) := by
        refine seek_asking (fun _ _ holds => holds) (fun parent inherits store holds => ?_) misses
        refine ih ((inherits.has_or_asks base).imp_right fun asks reached => ?_) holds
        exact elsewhere missing (.head asks reached)
      have ending := tokenizeWithin_ending source fuel template store
      generalize tokenizeWithin source (fuel + 1) true template store = result at ending ⊢
      cases ending with
      | hit => exact misses
      | failed missing run => exact (run ▸ asking missing).keeps
      | @sought tokens after missing run =>
          have kept : Misses base name after.cache := (run ▸ asking missing).keeps
          exact kept.keeping (fun same => elsewhere missing (same ▸ .refl)) tokens

/-- A name that is not kept yet is kept exactly if its tokens are found. -/
theorem tokenizeWithin_kept (fuel : Nat) {name : String} {store : Store}
    (named : isTemplateText name = false) (absent : store.cache.get? name = none) :
    (final (tokenizeWithin source fuel true name store)).cache.get? name =
      (outcome (tokenizeWithin source fuel true name store)).toOption := by
  cases fuel with
  | zero => exact absent
  | succ fuel =>
      have rests : Rests source store.cache store.cache := ⟨fun _ known => known, fun _ => .inl⟩
      have whole := (tokenizeWithin_rests (fuel + 1) name rests).1
      have ending := tokenizeWithin_ending source fuel name store
      generalize tokenizeWithin source (fuel + 1) true name store = result at whole ending ⊢
      cases ending with
      | hit known => exact absurd absent known.2
      | @sought tokens after _ run =>
          simp only [final_ok, outcome_ok, Store.keeping, named, Bool.false_eq_true, if_false]
          exact Cache.get?_insert_self after.cache name tokens
      | failed _ run =>
          -- a grounded name is none of its own ancestors, and no other name is kept by anybody
          by_cases grounded : Grounded source store.cache name
          · have asking : Asking (fun later => Misses store.cache name later.cache)
                (tokenizeWithin source fuel true) (Inherits source name) (source.Fails name)
                (seek source (tokenizeWithin source fuel true) name store) := by
              refine seek_asking (fun _ _ holds => holds) (fun parent inherits later holds => ?_)
                ⟨fun _ known => known, absent⟩
              refine tokenizeWithin_misses fuel ?_ holds
              exact (inherits.has_or_asks store.cache).imp_right fun asks reached =>
                grounded.not_cyclic (.head' asks reached)
            exact (run ▸ asking).keeps.absent
          · refine Classical.not_not.mp fun known => ?_
            exact (whole.grounded name known).elim (fun here => here absent) grounded

end

end Logicless
