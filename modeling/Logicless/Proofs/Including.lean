import Logicless.Proofs.Naming
import Logicless.Proofs.Sealing

namespace Logicless

/-!
How deep templates include one another.

Whatever a template includes by name is written in some text: in its own, in one that it inherits
from, or in one that fills in for a part of these (`Means.within`). So only finitely many names are
ever included where the texts are finitely many. If none of them includes itself, directly or
through others, there is a bound on the levels of nested blocks that rendering takes, whatever the
view (`exists_levels`).
-/

namespace Tokens

/-- Whether tokens include only partials of given names. -/
def Within (names : Set String) (tokens : Tokens) : Prop := ∀ name ∈ included tokens, name ∈ names

variable {names : Set String} {tokens rest : Tokens} {token : Token}

theorem mem_included_iff {name : String} :
    name ∈ included tokens ↔ ∃ token ∈ tokens, name ∈ token.included := by
  induction tokens with
  | nil => simp [included]
  | cons token rest ih => simp [included, ih]

theorem within_iff :
    Within names tokens ↔ ∀ token ∈ tokens, ∀ name ∈ token.included, name ∈ names := by
  simp only [Within, mem_included_iff, forall_exists_index, and_imp]
  exact ⟨fun held token member name inside => held name token member inside,
    fun held name token member inside => held token member name inside⟩

@[simp] theorem within_nil (names : Set String) : Tokens.Within names [] := nofun

theorem within_cons :
    Within names (token :: rest) ↔ (∀ name ∈ token.included, name ∈ names) ∧ Within names rest := by
  simp only [within_iff, List.forall_mem_cons]

theorem Within.reverse (within : Within names tokens) : Within names tokens.reverse := by
  rw [within_iff] at within ⊢
  exact fun token member => within token (List.mem_reverse.mp member)

end Tokens

theorem Tag.included_leaf (tag : Tag) : ∀ name ∈ tag.leaf.included, name = tag.body := by
  unfold leaf
  split
  case h_3 => simp [Token.included]
  case h_5 =>
    cases Text.words tag.body.toList with
    | nil => exact nofun
    | cons word rest => exact nofun
  all_goals exact nofun

namespace Table

variable {α : Type} {name : String} {value : α}

theorem get?_of_get?_foldl {entries : List (String × α)} {table : Table α}
    (found : (entries.foldl (fun table entry => table.insert entry.1 entry.2) table).get? name =
      some value) : table.get? name = some value ∨ (name, value) ∈ entries := by
  induction entries generalizing table with
  | nil => exact .inl found
  | cons entry rest ih =>
      rcases ih found with before | later
      · by_cases same : name = entry.1
        · rw [same, get?_insert_self, Option.some.injEq] at before
          exact .inr (by simp [same, ← before])
        · rw [get?_insert_of_ne _ same] at before
          exact .inl before
      · exact .inr (.tail _ later)

theorem mem_of_get?_ofList {entries : List (String × α)}
    (found : (ofList entries).get? name = some value) : (name, value) ∈ entries :=
  (get?_of_get?_foldl found).resolve_left (by simp)

end Table

theorem Tokens.mem_of_override {tokens replacement : Tokens} {name : String}
    (found : (Tokens.overrides tokens).get? name = some replacement) :
    .placeholder name replacement ∈ tokens := by
  obtain ⟨token, member, given⟩ := List.mem_filterMap.mp (Table.mem_of_get?_ofList found)
  cases token <;> cases given
  exact member

section

variable {names : Set String} {overrides : Overrides}

mutual

theorem Token.within_substitute
    (replaced : ∀ name replacement, overrides.get? name = some replacement →
      Tokens.Within names replacement) :
    (token : Token) → (∀ name ∈ token.included, name ∈ names) →
      ∀ name ∈ (token.substitute overrides).included, name ∈ names
  | .placeholder name content, within => by
      unfold Token.substitute
      cases found : overrides.get? name with
      | some replacement => exact replaced name replacement found
      | none => exact Tokens.within_substitute replaced content within
  | .block _ content _, within => Tokens.within_substitute replaced content within
  | .inverted _ content, within => Tokens.within_substitute replaced content within
  | .partialKnown tokens, within => Tokens.within_substitute replaced tokens within
  | .content _, within | .escaped _, within | .unescaped _, within | .partialNamed _, within
  | .pragma .., within | .delimiters .., within | .comment _, within => within

theorem Tokens.within_substitute
    (replaced : ∀ name replacement, overrides.get? name = some replacement →
      Tokens.Within names replacement) :
    (tokens : Tokens) → Tokens.Within names tokens →
      Tokens.Within names (Tokens.substitute overrides tokens)
  | [], _ => nofun
  | token :: rest, within => by
      rw [Tokens.within_cons] at within
      rw [Tokens.substitute, Tokens.within_cons]
      exact ⟨Token.within_substitute replaced token within.1,
        Tokens.within_substitute replaced rest within.2⟩

end

end

/-- Nests all tokens of which include only partials of given names. -/
structure Nest.Within (names : Set String) (nest : Nest) : Prop where
  blocks : ∀ block ∈ nest.blocks, Tokens.Within names block.content
  outside : Tokens.Within names nest.outside

namespace Nest.Within

variable {names : Set String} {nest next : Nest}

theorem add (within : nest.Within names) {token : Token}
    (inside : ∀ name ∈ token.included, name ∈ names) (text : List Char) :
    (nest.add token text).Within names := by
  unfold Nest.add
  cases blocks : nest.blocks with
  | nil => exact ⟨by simp, Tokens.within_cons.mpr ⟨inside, within.outside⟩⟩
  | cons block outer =>
      have held := within.blocks
      rw [blocks, List.forall_mem_cons] at held
      refine ⟨List.forall_mem_cons.mpr ⟨?_, held.2⟩, within.outside⟩
      exact Tokens.within_cons.mpr ⟨inside, held.1⟩

theorem addChunk (within : nest.Within names) (chunk : List Char) :
    (nest.addChunk chunk).Within names := by
  unfold Nest.addChunk
  split
  · exact within
  · exact within.add (by simp [Token.included]) chunk

/-- A closed block includes what it encloses, or what the template that it inherits from does. -/
theorem close_within {block : OpenBlock} {parent : Tokens}
    (content : Tokens.Within names block.content) (inherited : Tokens.Within names parent) :
    ∀ name ∈ (block.close parent).included, name ∈ names := by
  unfold OpenBlock.close
  cases block.shape with
  | block | inverted | placeholder => exact content.reverse
  | parent =>
      refine Tokens.within_substitute (fun name replacement found => ?_) parent inherited
      exact Tokens.within_iff.mp content.reverse _ (Tokens.mem_of_override found)

theorem addTag (within : nest.Within names) {tag : Tag} (named : tag.body ∈ names)
    {parent : Tokens} (inherited : Tokens.Within names parent)
    (added : nest.addTag parent tag = .ok next) : next.Within names := by
  unfold Nest.addTag at added
  split at added
  · cases added
    exact ⟨List.forall_mem_cons.mpr ⟨nofun, within.blocks⟩, within.outside⟩
  · split at added
    · unfold Nest.close at added
      cases blocks : nest.blocks with
      | nil =>
          rw [blocks] at added
          cases added
      | cons block outer =>
          simp only [blocks] at added
          have held := within.blocks
          rw [blocks, List.forall_mem_cons] at held
          split at added
          · cases added
            have around : Nest.Within names { nest with blocks := outer } :=
              ⟨held.2, within.outside⟩
            exact around.add (close_within held.1 inherited) _
          · cases added
    · cases added
      refine within.add (fun name inside => ?_) _
      rw [tag.included_leaf name inside]
      exact named

end Nest.Within

/-- Nested tags include what is written in them, if the templates that are inherited from do. -/
theorem compileScan_upheld {W : Warrant} (lawful : Lawful W) {names : Set String}
    {parent : String → Action Tokens} {template : Option String}
    (fails : ∀ flaw, W Tokens (Tokens.Within names) (throw (.malformed flaw template)))
    {nest : Nest} {scan : Scan} (within : nest.Within names)
    (written : ∀ tag ∈ scan.tags, tag.body ∈ names)
    (parents : ∀ name ∈ scan.parents nest.frames, W Tokens (Tokens.Within names) (parent name)) :
    W Tokens (Tokens.Within names) (compileScan parent template nest scan) := by
  induction scan generalizing nest with
  | finished chunk =>
      simp only [compileScan]
      cases finished : (nest.addChunk chunk).finish with
      | error flaw => exact fails flaw
      | ok tokens =>
          unfold Nest.finish at finished
          split at finished
          · cases finished
            exact lawful.gives (within.addChunk chunk).outside.reverse
          · cases finished
  | broken chunk flaw => exact fails flaw
  | tagged chunk tag rest ih =>
      simp only [compileScan]
      have reached := within.addChunk chunk
      rw [← Nest.frames_addChunk nest chunk] at parents
      generalize nest.addChunk chunk = nest at reached parents ⊢
      simp only [Scan.tags, List.forall_mem_cons] at written
      have later {tokens : Tokens} {next : Nest} (inherited : Tokens.Within names tokens)
          (added : nest.addTag tokens tag = .ok next) :
          W Tokens (Tokens.Within names) (compileScan parent template next rest) :=
        ih (reached.addTag written.1 inherited added) written.2 fun name asked =>
          parents name ((Nest.mem_parents chunk rest added).2 name asked)
      cases asked : nest.parent? tag with
      | none =>
          refine lawful.andThen (lawful.gives (Tokens.within_nil names)) fun tokens inherited => ?_
          cases added : nest.addTag tokens tag with
          | error flaw => exact fails flaw
          | ok next => exact later inherited added
      | some name =>
          have found := parents name (Nest.mem_parents_of_asked asked)
          refine lawful.andThen found fun tokens inherited => ?_
          cases added : nest.addTag tokens tag with
          | error flaw => exact fails flaw
          | ok next => exact later inherited added

theorem compileText_upheld {W : Warrant} (lawful : Lawful W) {names : Set String}
    {parent : String → Action Tokens} {template : Option String}
    (fails : ∀ flaw, W Tokens (Tokens.Within names) (throw (.malformed flaw template)))
    {text : String} (written : ∀ tag ∈ (Scan.ofText text.toList).tags, tag.body ∈ names)
    (parents : ∀ name ∈ (Scan.ofText text.toList).parents [],
      W Tokens (Tokens.Within names) (parent name)) :
    W Tokens (Tokens.Within names) (compileText parent template text) := by
  have empty : Nest.empty.Within names := ⟨nofun, nofun⟩
  refine lawful.andThen (compileScan_upheld lawful fails empty written parents) ?_
  exact fun tokens within => lawful.andThen (lawful.report _) fun _ _ => lawful.gives within

/-- A computation that keeps an invariant as long as it succeeds, gives only what meets a condition,
and fails only in certain ways. -/
def Behaves (kept : Store → Prop) (blamed : Fault → Store → Prop) : Warrant := fun _ holds action =>
  ∀ store, kept store →
    (∀ result after, action store = .ok result after → kept after ∧ holds result) ∧
      ∀ fault after, action store = .error fault after → blamed fault after

section

variable {kept : Store → Prop} {blamed : Fault → Store → Prop} {α : Type} {holds : α → Prop}

theorem lawful_behaves (reports : ∀ (store : Store) (events : List Event), kept store →
    kept { store with reports := events }) : Lawful (Behaves kept blamed) where
  gives here store holds := by
    refine ⟨fun _ _ run => ?_, nofun⟩
    cases run
    exact ⟨holds, here⟩
  andThen := by
    intro α β middle holds first next begins later store here
    obtain ⟨given, failed⟩ := begins store here
    cases run : first store with
    | error fault after =>
        rw [bind_of_error run]
        refine ⟨nofun, fun raised reached same => ?_⟩
        cases same
        exact failed fault after run
    | ok result after =>
        rw [bind_of_ok run]
        obtain ⟨still, meets⟩ := given result after run
        exact later result meets after still
  report event store here := by
    refine ⟨fun _ _ run => ?_, nofun⟩
    cases run
    exact ⟨reports store _ here, trivial⟩

theorem Behaves.throw {fault : Fault} (fails : ∀ store, kept store → blamed fault store) :
    Behaves kept blamed α holds (throw fault) := by
  refine fun store here => ⟨nofun, fun raised after run => ?_⟩
  cases run
  exact fails store here

theorem Behaves.ok {action : Action α} {result : α} {store after : Store}
    (behaves : Behaves kept blamed α holds action) (here : kept store)
    (run : action store = .ok result after) : kept after ∧ holds result :=
  (behaves store here).1 result after run

end

/-- Whether the tags of a text have only given bodies. -/
def Writes (names : Set String) (text : String) : Prop :=
  ∀ tag ∈ (Scan.ofText text.toList).tags, tag.body ∈ names

/-- The parts of some texts, among them whatever is written in their tags. -/
def partsOf (texts : Set String) : Set String :=
  {name | ∃ text ∈ texts, name.toList <:+: text.toList}

theorem writes_partsOf {texts : Set String} {text : String} (known : text ∈ partsOf texts) :
    Writes (partsOf texts) text := by
  obtain ⟨whole, stored, inside⟩ := known
  exact fun tag member => ⟨whole, stored, (Scan.body_infix member).1.trans inside⟩

theorem mem_partsOf {texts : Set String} {text : String} (stored : text ∈ texts) :
    text ∈ partsOf texts := ⟨text, stored, List.infix_rfl⟩

/-- Whether all that the templates of a source may include has one of given names. -/
structure Source.Names (source : Source) (names : Set String) : Prop where
  stored {text : String} : text ∈ source.texts → Writes names text
  written {name : String} : name ∈ names → Writes names name
  compiled {name : String} {tokens : Tokens} : (source name).answer = .ok (.tokens tokens) →
    Tokens.Within names tokens

/-- Whether all tokens in a cache include only partials of given names. -/
def Cache.Within (names : Set String) (cache : Cache) : Prop :=
  ∀ name tokens, cache.get? name = some tokens → Tokens.Within names tokens

theorem Cache.within_empty (names : Set String) : Cache.empty.Within names := nofun

theorem Cache.Within.insert {names : Set String} {cache : Cache} (within : cache.Within names)
    {tokens : Tokens} (inside : Tokens.Within names tokens) (name : String) :
    (cache.insert (.text name) tokens).Within names := by
  intro other found known
  by_cases same : other = name
  · rw [same, get?_insert_self, Option.some.injEq] at known
    exact known ▸ inside
  · rw [get?_insert_of_ne _ same] at known
    exact within other found known

/-- Whether the faults that searches among the templates of a source end in are blamed. -/
structure Source.Blamed (source : Source) (blamed : Fault → Store → Prop) : Prop where
  endless (store : Store) : blamed .endless store
  malformed (flaw : Flaw) (origin : Option String) (store : Store) :
    blamed (.malformed flaw origin) store
  unusable (name : String) (store : Store) : blamed (.templateUnusable name) store
  missing {name : String} {fault : Fault} {store : Store} :
    (source name).needed name = .error fault →
      (∀ event ∈ (source name).reports, event ∈ store.reports) → blamed fault store

section

variable {source : Source} {names : Set String} {blamed : Fault → Store → Prop}
  (named : source.Names names) (fails : source.Blamed blamed)

include named fails

omit named in
theorem compileText_behaves {parent : String → Action Tokens} (origin : Option String)
    {text : String} (writes : Writes names text)
    (parents : ∀ name ∈ names,
      Behaves (fun store => store.cache.Within names) blamed Tokens (Tokens.Within names)
        (parent name)) :
    Behaves (fun store => store.cache.Within names) blamed Tokens (Tokens.Within names)
      (compileText parent origin text) := by
  refine compileText_upheld (lawful_behaves fun _ _ within => within) (fun flaw => ?_) writes ?_
  · exact .throw fun store _ => fails.malformed flaw origin store
  · intro name asked
    obtain ⟨tag, member, rfl⟩ := Scan.exists_tag_of_mem_parents asked
    exact parents tag.body (writes tag member)

theorem search_behaves {parent : String → Action Tokens} {template : String}
    (parents : ∀ name ∈ names,
      Behaves (fun store => store.cache.Within names) blamed Tokens (Tokens.Within names)
        (parent name)) :
    Behaves (fun store => store.cache.Within names) blamed Tokens (Tokens.Within names)
      (search source parent template) := by
  intro store within
  rw [search_begun]
  have begun : (store.asking source template).cache.Within names := within
  have lawful : Lawful (Behaves (fun store => store.cache.Within names) blamed) :=
    lawful_behaves fun _ _ within => within
  cases needed : (source template).needed template with
  | error fault =>
      refine ⟨nofun, fun raised after run => ?_⟩
      cases run
      refine fails.missing needed fun event member => ?_
      exact List.mem_append_left _ (List.mem_reverse.mpr member)
  | ok answer =>
      have answered := Retrieval.answer_of_needed needed
      cases answer with
      | text text =>
          have writes : Writes names text := named.stored ⟨template, answered⟩
          exact compileText_behaves fails (some template) writes parents _ begun
      | tokens tokens => exact lawful.gives (named.compiled answered) _ begun
      | absent | value => exact Behaves.throw (fun store _ => fails.unusable template store) _ begun

theorem tokenizeWithin_behaves (fuel : Nat) {template : String}
    (writes : isTemplateText template = true → Writes names template) (keep : Bool) :
    Behaves (fun store => store.cache.Within names) blamed Tokens (Tokens.Within names)
      (tokenizeWithin source fuel keep template) := by
  have lawful : Lawful (Behaves (fun store => store.cache.Within names) blamed) :=
    lawful_behaves fun _ _ within => within
  induction fuel generalizing template keep with
  | zero => exact .throw fun store _ => fails.endless store
  | succ fuel ih =>
      have parents (name : String) (inside : name ∈ names) := ih (fun _ => named.written inside) true
      cases text : isTemplateText template with
      | true =>
          rw [tokenizeWithin_text text]
          exact compileText_behaves fails none (writes text) parents
      | false =>
          have searched : Behaves (fun store => store.cache.Within names) blamed Tokens
              (Tokens.Within names) (search source (tokenizeWithin source fuel true) template) :=
            search_behaves named fails parents
          cases keep with
          | false =>
              rw [tokenizeWithin_passing text]
              exact searched
          | true =>
              intro store within
              cases known : store.cache.get? template with
              | some tokens =>
                  rw [tokenizeWithin_hit text known]
                  refine ⟨fun result after run => ?_, nofun⟩
                  cases run
                  exact ⟨within, within template tokens known⟩
              | none =>
                  rw [tokenizeWithin_miss text known]
                  refine lawful.andThen searched (fun tokens inside => ?_) store within
                  have remembers : Behaves (fun store => store.cache.Within names) blamed Unit
                      (fun _ => True) (Action.remember (.text template) tokens) := by
                    refine fun store within => ⟨fun result after run => ?_, nofun⟩
                    cases run
                    exact ⟨within.insert inside template, trivial⟩
                  exact lawful.andThen remembers fun _ _ => lawful.gives inside

theorem compile_behaves (chainLimit : Nat) (origin : Option String) {text : String}
    (writes : Writes names text) :
    Behaves (fun store => store.cache.Within names) blamed Tokens (Tokens.Within names)
      (compile ⟨source, chainLimit⟩ origin text) :=
  compileText_behaves fails origin writes fun _ inside =>
    tokenizeWithin_behaves named fails _ (fun _ => named.written inside) true

end

/-- The tokens that a template has in libraries of a source, those apart that cut it off. -/
def Source.Means (source : Source) (template : String) (tokens : Tokens) : Prop :=
  ∃ chainLimit, Library.meaning ⟨source, chainLimit⟩ template = .ok tokens

namespace Source.Means

variable {source : Source} {template : String} {tokens others : Tokens}

theorem unique (means : source.Means template tokens) (also : source.Means template others) :
    tokens = others := by
  obtain ⟨limit, meant⟩ := means
  obtain ⟨other, alsoMeant⟩ := also
  have alike : Matches True Tokens (tokenize ⟨source, limit⟩ true template)
      (tokenize ⟨source, other⟩ true template) := tokenizeWithin_matches (by simp) true
  rw [Library.meaning] at meant alsoMeant
  rcases alike .fresh .fresh rfl with ⟨same, _⟩ | ⟨_, endless | endless⟩
  · exact Except.ok.inj (meant.symm.trans (same.trans alsoMeant))
  · rw [meant] at endless
    cases endless
  · rw [alsoMeant] at endless
    cases endless

theorem within (means : source.Means template tokens) {names : Set String}
    (named : source.Names names)
    (writes : isTemplateText template = true → Writes names template) :
    Tokens.Within names tokens := by
  obtain ⟨limit, meant⟩ := means
  obtain ⟨after, run⟩ := ok_of_outcome meant
  have blameless : source.Blamed fun _ _ => True :=
    ⟨fun _ => trivial, fun _ _ _ => trivial, fun _ _ => trivial, fun _ _ => trivial⟩
  exact ((tokenizeWithin_behaves named blameless _ writes true).ok (Cache.within_empty names) run).2

end Source.Means

section

variable (source : Source) (aliases : Table Tokens)

/-- The tokens that a partial has: those of its alias, or else those of the template that goes by its
name. -/
def Stands (name : String) (tokens : Tokens) : Prop :=
  match aliases.get? name with
  | some known => tokens = known
  | none => source.Means name tokens

def Includes (name other : String) : Prop :=
  ∃ tokens, Stands source aliases name tokens ∧ other ∈ Tokens.included tokens

/-- Whether no partial includes itself, directly or through others. -/
def InclusionEnds : Prop := ∀ name, ¬ Relation.TransGen (Includes source aliases) name name

/-- A token opens the block that it encloses, or that of the partial that it includes. -/
def Token.Opens (token : Token) (inner : Tokens) : Prop :=
  token.enclosed? = some inner ∨
    ∃ name, token = .partialNamed name ∧ Stands source aliases name inner

/-- Whether blocks open one another to at most so many levels, whichever of them are rendered. -/
def Shallow : Nat → Tokens → Prop
  | 0, _ => False
  | levels + 1, tokens => ∀ token ∈ tokens, ∀ inner, token.Opens source aliases inner →
      Shallow levels inner

end

section

variable {source : Source} {aliases : Table Tokens} {name : String} {tokens others : Tokens}

theorem Stands.unique (stands : Stands source aliases name tokens)
    (also : Stands source aliases name others) : tokens = others := by
  unfold Stands at stands also
  cases known : aliases.get? name with
  | some given =>
      rw [known] at stands also
      exact stands.trans also.symm
  | none =>
      rw [known] at stands also
      exact Source.Means.unique stands also

theorem Shallow.mono {levels more : Nat} (shallow : Shallow source aliases levels tokens)
    (atMost : levels ≤ more) : Shallow source aliases more tokens := by
  induction levels generalizing more tokens with
  | zero => exact shallow.elim
  | succ levels ih =>
      cases more with
      | zero => contradiction
      | succ more =>
          intro token member inner opens
          exact ih (shallow token member inner opens) (Nat.le_of_succ_le_succ atMost)

mutual

/-- Tokens are shallow if the partials are that they include. -/
theorem Token.exists_shallow : (token : Token) →
    (∀ name others, name ∈ token.included → Stands source aliases name others →
      ∃ levels, Shallow source aliases levels others) →
    ∃ levels, ∀ inner, token.Opens source aliases inner → Shallow source aliases levels inner
  | .partialNamed name, known => by
      by_cases stands : ∃ tokens, Stands source aliases name tokens
      · obtain ⟨tokens, stands⟩ := stands
        obtain ⟨levels, shallow⟩ := known name tokens (.head _) stands
        refine ⟨levels, fun inner opens => ?_⟩
        rcases opens with encloses | ⟨other, same, alike⟩
        · cases encloses
        · cases same
          exact stands.unique alike ▸ shallow
      · refine ⟨0, fun inner opens => ?_⟩
        rcases opens with encloses | ⟨other, same, alike⟩
        · cases encloses
        · cases same
          exact absurd ⟨inner, alike⟩ stands
  | .block _ inner _, known | .inverted _ inner, known | .placeholder _ inner, known
  | .partialKnown inner, known => by
      obtain ⟨levels, shallow⟩ := Tokens.exists_shallow inner known
      refine ⟨levels, fun opened opens => ?_⟩
      rcases opens with encloses | ⟨_, same, _⟩
      · cases encloses
        exact shallow
      · cases same
  | .content _, _ | .escaped _, _ | .unescaped _, _ | .pragma .., _ | .delimiters .., _
  | .comment _, _ => by
      refine ⟨0, fun opened opens => ?_⟩
      rcases opens with encloses | ⟨_, same, _⟩
      · cases encloses
      · cases same

theorem Tokens.exists_shallow : (tokens : Tokens) →
    (∀ name others, name ∈ Tokens.included tokens → Stands source aliases name others →
      ∃ levels, Shallow source aliases levels others) →
    ∃ levels, Shallow source aliases levels tokens
  | [], _ => ⟨1, nofun⟩
  | token :: rest, known => by
      obtain ⟨levels, shallow⟩ := Token.exists_shallow token fun name others member =>
        known name others (List.mem_append_left _ member)
      obtain ⟨more, others⟩ := Tokens.exists_shallow rest fun name others member =>
        known name others (List.mem_append_right _ member)
      refine ⟨max levels more + 1, fun found member inner opens => ?_⟩
      rcases List.mem_cons.mp member with rfl | later
      · exact (shallow inner opens).mono (Nat.le_max_left _ _)
      · cases more with
        | zero => exact others.elim
        | succ more => exact (others found later inner opens).mono (by omega)

end

/-- The partials that a partial includes, directly or through others. -/
def inclusions (source : Source) (aliases : Table Tokens) (name : String) : Set String :=
  {other | Relation.TransGen (Includes source aliases) name other}

/-- Where finitely many names are included, and none of them by itself, rendering takes finitely many
levels of blocks. -/
theorem exists_levels {names : Set String} (finite : names.Finite)
    (closed : ∀ name ∈ names, ∀ other, Includes source aliases name other → other ∈ names)
    (ends : InclusionEnds source aliases) (within : Tokens.Within names tokens) :
    ∃ levels, Shallow source aliases levels tokens := by
  have reached {name other : String} (known : name ∈ names)
      (includes : Relation.TransGen (Includes source aliases) name other) : other ∈ names := by
    induction includes with
    | single includes => exact closed _ known _ includes
    | tail _ includes ih => exact closed _ ih _ includes
  have partials (count : Nat) (name : String) (known : name ∈ names)
      (few : (inclusions source aliases name).ncard < count) (others : Tokens)
      (stands : Stands source aliases name others) :
      ∃ levels, Shallow source aliases levels others := by
    induction count generalizing name others with
    | zero => exact absurd few (Nat.not_lt_zero _)
    | succ count ih =>
        refine Tokens.exists_shallow others fun other inner member innerStands => ?_
        have includes : Includes source aliases name other := ⟨others, stands, member⟩
        have bounded : (inclusions source aliases name).Finite :=
          finite.subset fun _ includes => reached known includes
        -- what is included includes less, since it does not include itself
        have smaller : inclusions source aliases other ⊂ inclusions source aliases name := by
          refine ⟨fun _ further => .head includes further, fun same => ends other ?_⟩
          exact same (.single includes)
        have fewer := Set.ncard_lt_ncard smaller bounded
        exact ih other (closed name known other includes) (by omega) inner innerStands
  refine Tokens.exists_shallow tokens fun name others member stands => ?_
  exact partials _ name (within name member) (Nat.lt_succ_self _) others stands

end

section

variable {source : Source} (bare : ∀ name, (source name).answer = .ok .absent)

include bare

theorem acyclic_of_bare : Acyclic source := by
  refine acyclic_of_rank (fun _ => 0) fun name parent named inherits => ?_
  obtain ⟨text, spells, _⟩ := inherits
  rw [Spells, if_neg (by simp [named]), bare] at spells
  cases spells

/-- Without stored templates and aliases, a partial is a text, and includes only parts of itself. -/
theorem inclusionEnds_of_bare : InclusionEnds source .empty := by
  have shorter {name other : String} (includes : Includes source .empty name other) :
      other.length < name.length := by
    obtain ⟨tokens, stands, member⟩ := includes
    have means : source.Means name tokens := stands
    let names : Set String := {part | part.length < name.length}
    have writes (text : String) (atMost : text.length ≤ name.length) : Writes names text :=
      fun tag tagged => (Scan.body_infix tagged).2.trans_le atMost
    have named : source.Names names := by
      refine ⟨fun stored => ?_, fun less => writes _ (Nat.le_of_lt less), fun compiled => ?_⟩
      · obtain ⟨other, answered⟩ := stored
        rw [bare] at answered
        cases answered
      · rw [bare] at compiled
        cases compiled
    exact means.within named (fun _ => writes name (Nat.le_refl _)) other member
  intro name cycle
  have less {other : String} (reached : Relation.TransGen (Includes source .empty) name other) :
      other.length < name.length := by
    induction reached with
    | single includes => exact shorter includes
    | tail _ includes ih => exact (shorter includes).trans ih
  exact Nat.lt_irrefl _ (less cycle)

end

end Logicless
