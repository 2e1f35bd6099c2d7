import Logicless.Proofs.Repetition

namespace Logicless

/-- States whose caches answer alike for some names. Their entries may differ otherwise, also in
order and in keys that are no names. -/
structure Mirrored (names : Set String) (store other : Store) : Prop where
  cache : ∀ name ∈ names, store.cache.get? name = other.cache.get? name
  memory : store.memory = other.memory

section

variable {names : Set String}

theorem congruence_mirrors (names : Set String) : Congruence (EndsAlike (Mirrored names)) :=
  congruence_endsAlike (fun _ _ _ _ same => ⟨same.cache, same.memory⟩)
    (fun _ _ => Mirrored.memory) fun _ _ _ same => ⟨same.cache, rfl⟩

theorem cached?_mirrors {name : String} (known : name ∈ names) :
    EndsAlike (Mirrored names) (Option Tokens) (Action.cached? name) (Action.cached? name) :=
  fun _ _ same => ⟨congrArg Except.ok (same.cache name known), same⟩

theorem remember_mirrors (name : String) (tokens : Tokens) :
    EndsAlike (Mirrored names) Unit (Action.remember (.text name) tokens)
      (Action.remember (.text name) tokens) := by
  refine fun store other same => ⟨rfl, fun asked known => ?_, same.memory⟩
  by_cases here : asked = name
  · subst here
    exact (store.cache.get?_insert_self asked tokens).trans
      (other.cache.get?_insert_self asked tokens).symm
  · exact (store.cache.get?_insert_of_ne here tokens).trans <|
      (same.cache asked known).trans (other.cache.get?_insert_of_ne here tokens).symm

/-- The names that decide about the tokens of a template: its own, where it is looked up, and those
of its lineage. -/
theorem tokenizeWithin_mirrors {source : Source} (fuel : Nat) {template : String} {keep : Bool}
    (own : keep = true → isTemplateText template = false → template ∈ names)
    (ancestors : ∀ ancestor ∈ lineage source template, isTemplateText ancestor = false →
      ancestor ∈ names) :
    EndsAlike (Mirrored names) Tokens (tokenizeWithin source fuel keep template)
      (tokenizeWithin source fuel keep template) := by
  induction fuel generalizing template keep with
  | zero => exact fun _ _ same => ⟨rfl, same⟩
  | succ fuel ih =>
      refine tokenizeWithin_related_of (fun _ _ _ _ same => ⟨rfl, same⟩)
        (congruence_mirrors names).toSequential (fun parent inherits => ?_) keep
        (fun looks named => cached?_mirrors (own looks named)) (remember_mirrors template)
      apply ih
      · intro _ named
        exact ancestors parent (.single inherits) named
      · intro ancestor reached named
        exact ancestors ancestor (.head inherits reached) named

end

/-- Whether a cache has become another one by entries for some names, put behind those it had. -/
def Cache.Adds (names : Set String) (cache grown : Cache) : Prop :=
  ∃ added, grown.entries = cache.entries ++ added ∧
    ∀ key tokens, (key, tokens) ∈ added → ∃ name ∈ names, key = .text name

namespace Cache.Adds

variable {names : Set String} {cache grown : Cache}

theorem refl (names : Set String) (cache : Cache) : cache.Adds names cache :=
  ⟨[], (List.append_nil _).symm, by simp⟩

theorem insert (adds : cache.Adds names grown) {name : String} (known : name ∈ names)
    (absent : cache.get? name = none) (tokens : Tokens) :
    cache.Adds names (grown.insert (.text name) tokens) := by
  obtain ⟨entries⟩ := cache
  obtain ⟨grownEntries⟩ := grown
  obtain ⟨added, rfl, named⟩ := adds
  refine ⟨_, Value.putKey_append absent tokens added, fun key given member => ?_⟩
  rcases Value.key_of_mem_putKey member with here | ⟨old, there⟩
  · exact ⟨name, known, here⟩
  · exact named key old there

theorem grows (adds : cache.Adds names grown) : cache.Grows grown := by
  obtain ⟨added, whole, _⟩ := adds
  exact ⟨added, whole.symm⟩

theorem eq_of_empty (adds : cache.Adds ∅ grown) : grown = cache := by
  obtain ⟨entries⟩ := cache
  obtain ⟨grownEntries⟩ := grown
  obtain ⟨added, rfl, none⟩ := adds
  have nothing : added = [] := by
    refine List.eq_nil_iff_forall_not_mem.mpr fun entry member => ?_
    obtain ⟨name, absent, _⟩ := none entry.1 entry.2 member
    exact absent
  rw [nothing, List.append_nil]

end Cache.Adds

section

variable {source : Source} {names : Set String} {base : Cache}

/-- Finding the tokens of a template adds to the cache what has been found on the way. -/
theorem tokenizeWithin_adds (fuel : Nat) {template : String}
    (own : isTemplateText template = false → template ∈ names)
    (ancestors : ∀ ancestor ∈ lineage source template, isTemplateText ancestor = false →
      ancestor ∈ names) {store : Store} (adds : base.Adds names store.cache) :
    base.Adds names (final (tokenizeWithin source fuel true template store)).cache := by
  induction fuel generalizing template store with
  | zero => exact adds
  | succ fuel ih =>
      have asking : Asking (fun store => base.Adds names store.cache)
          (tokenizeWithin source fuel true) (Inherits source template) (source.Fails template)
          (seek source (tokenizeWithin source fuel true) template store) := by
        refine seek_asking (fun _ _ holds => holds) (fun parent inherits store holds => ?_) adds
        exact ih (fun named => ancestors parent (.single inherits) named)
          (fun ancestor reached named => ancestors ancestor (.head inherits reached) named) holds
      have ending := tokenizeWithin_ending source fuel template store
      generalize tokenizeWithin source (fuel + 1) true template store = result at ending ⊢
      cases ending with
      | hit => exact adds
      | failed _ run => exact (run ▸ asking).keeps
      | @sought tokens after missing run =>
          have kept : base.Adds names after.cache := (run ▸ asking).keeps
          unfold Store.keeping
          split
          · exact kept
          · rename_i named
            refine kept.insert (own (by simpa using named)) ?_ tokens
            -- what had no entry when the search began had none in the first place
            refine Option.eq_none_iff_forall_ne_some.mpr fun old known => missing ?_
            exact ⟨by simpa using named, by simp [adds.grows.get? known]⟩

/-- Passing by the cache leaves the parents of a template: their tokens are looked up and kept, and
nothing else is. -/
theorem tokenizeWithin_passing_adds {fuel : Nat} {template : String}
    (named : isTemplateText template = false) (store : Store) :
    store.cache.Adds {ancestor ∈ lineage source template | isTemplateText ancestor = false}
      (final (tokenizeWithin source fuel false template store)).cache := by
  cases fuel with
  | zero => exact .refl _ _
  | succ fuel =>
      rw [tokenizeWithin_passing named]
      have sought : search source (tokenizeWithin source fuel true) template =
          seek source (tokenizeWithin source fuel true) template := by
        rw [seek, if_neg (by simp [named])]
      let ancestors := {ancestor ∈ lineage source template | isTemplateText ancestor = false}
      have asking : Asking (fun later => store.cache.Adds ancestors later.cache)
          (tokenizeWithin source fuel true) (Inherits source template) (source.Fails template)
          (seek source (tokenizeWithin source fuel true) template store) := by
        refine seek_asking (fun _ _ holds => holds) (fun parent inherits later holds => ?_)
          (.refl ancestors store.cache)
        have own : isTemplateText parent = false → parent ∈ ancestors :=
          fun plain => ⟨.single inherits, plain⟩
        have further : ∀ ancestor ∈ lineage source parent, isTemplateText ancestor = false →
            ancestor ∈ ancestors := fun ancestor reached plain => ⟨.head inherits reached, plain⟩
        exact tokenizeWithin_adds fuel own further holds
      rw [sought]
      exact asking.keeps

end

/-- Tokens that are found by a name without looking it up depend on what the cache has for the names
it inherits from, and on nothing else in it; entries for such names are all that the cache gains. So
the cache is passed by where there are no such names. -/
theorem tokenize_passing (library : Library) {name : String}
    (named : isTemplateText name = false) (store : Store) :
    let passing := tokenize library false name
    let ancestors := {ancestor ∈ lineage library.source name | isTemplateText ancestor = false}
    (∀ cache : Cache, (∀ ancestor ∈ ancestors, cache.get? ancestor = store.cache.get? ancestor) →
      outcome (passing { store with cache }) = outcome (passing store)) ∧
    store.cache.Adds ancestors (final (passing store)).cache ∧
    (ancestors = ∅ → outcome (passing { store with cache := .empty }) = outcome (passing store) ∧
      (final (passing store)).cache = store.cache) := by
  intro passing ancestors
  have same (cache : Cache)
      (alike : ∀ ancestor ∈ ancestors, cache.get? ancestor = store.cache.get? ancestor) :
      outcome (passing { store with cache }) = outcome (passing store) := by
    have mirrored : Mirrored ancestors { store with cache } store := ⟨alike, rfl⟩
    have mirrors : EndsAlike (Mirrored ancestors) Tokens passing passing :=
      tokenizeWithin_mirrors _ nofun fun ancestor reached plain => ⟨reached, plain⟩
    exact (mirrors _ _ mirrored).1
  have adds : store.cache.Adds ancestors (final (passing store)).cache :=
    tokenizeWithin_passing_adds named store
  refine ⟨same, adds, fun none => ⟨same .empty (by simp [none]), ?_⟩⟩
  rw [none] at adds
  exact adds.eq_of_empty

/-- The base of a page inherits from nothing, so that a stale entry for it is neither seen nor
replaced. -/
theorem tokenize_passing_base :
    let passing := tokenize ⟨pageChain.ask .empty, 1000⟩ false "base"
    let stale : Store := { Store.fresh with cache := ⟨[(.text "base", [])]⟩ }
    isTemplateText "base" = false ∧
      outcome (passing { stale with cache := .empty }) = outcome (passing stale) ∧
      (final (passing stale)).cache = stale.cache := by
  intro passing stale
  have named : isTemplateText "base" = false := by decide +kernel
  have alone (parent : String) : ¬ Inherits (pageChain.ask .empty) "base" parent := by
    rintro ⟨text, spells, asked⟩
    rw [Spells, if_neg (by simp [named]), pageChain, Chain.answer_mapping] at spells
    cases spells
    have none : (Scan.ofText (pageTemplates.entries[0].2).toList).parents [] = [] := by
      decide +kernel
    exact List.not_mem_nil (none ▸ asked)
  refine ⟨named, (tokenize_passing ⟨pageChain.ask .empty, 1000⟩ named stale).2.2 ?_⟩
  refine Set.eq_empty_of_forall_notMem fun ancestor reached => ?_
  obtain ⟨parent, inherits, _⟩ := Relation.TransGen.head'_iff.mp reached.1
  exact alone parent inherits

/-- A page that inherits from a base brings the base into the cache, even where the cache is passed
by, and takes it from there, so that an entry for it saves a page that would not be found. -/
theorem passing_page :
    let passing (templates : Table String) : Action Tokens :=
      tokenize ⟨Chain.ask .empty (.only (.mapping templates) none 0), 1000⟩ false "page"
    let orphan : Table String := ⟨[("page", "\x7b\x7b<base\x7d\x7d\x7b\x7b/base\x7d\x7d")]⟩
    let restored : Store := { Store.fresh with cache := ⟨[(.text "base", [.content "B"])]⟩ }
    (final (passing pageTemplates .fresh)).cache ≠ Store.fresh.cache ∧
      outcome (passing orphan restored) ≠
        outcome (passing orphan { restored with cache := .empty }) := by
  intro passing orphan restored
  constructor
  · intro same
    have kept : ((final (passing pageTemplates .fresh)).cache.get? "base").isSome = true := by
      decide +kernel
    rw [same] at kept
    contradiction
  · intro same
    have found : (outcome (passing orphan restored)).toOption.isSome = true := by decide +kernel
    have lost : (outcome (passing orphan { restored with cache := .empty })).toOption.isSome =
        false := by
      decide +kernel
    rw [same, lost] at found
    contradiction

end Logicless
