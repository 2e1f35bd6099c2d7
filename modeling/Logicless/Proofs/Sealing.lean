import Logicless.Pragma.Probe
import Logicless.Proofs.Inheritance
import Logicless.Proofs.Views
import Logicless.Session

namespace Logicless

/-!
What aliases shut out.

Aliases come before templates of the same names. Where they have all the partials that tokens
include by name, those in the tokens of aliases among them, nothing in the view can be called, and
pragmas ask for no template by name, rendering ends in the same way whatever library and cache there
are, and leaves the cache as it was (`render_sealed`). All blocks of a call have the same aliases,
so aliases may include each other and themselves: `Table.Closes` asks for every name once, not along
the paths of rendering.
-/

mutual

/-- The names by which a token includes partials, itself or in the tokens that it encloses. -/
def Token.included : Token → List String
  | .partialNamed name => [name]
  | .block _ inner _ | .inverted _ inner | .placeholder _ inner | .partialKnown inner =>
      Tokens.included inner
  | _ => []
termination_by structural token => token

def Tokens.included : List Token → List String
  | [] => []
  | token :: rest => token.included ++ Tokens.included rest
termination_by structural tokens => tokens

end

theorem Token.included_of_enclosed {token : Token} {inner : Tokens}
    (encloses : token.enclosed? = some inner) : token.included = Tokens.included inner := by
  cases token <;> simp only [Token.enclosed?, Option.some.injEq, reduceCtorEq] at encloses
  all_goals
    subst encloses
    rfl

theorem Tokens.mem_included_of_mem {tokens : Tokens} {token : Token} (member : token ∈ tokens)
    {name : String} (included : name ∈ token.included) : name ∈ Tokens.included tokens := by
  induction tokens with
  | nil => cases member
  | cons first rest ih =>
      rw [Tokens.included, List.mem_append]
      rcases List.mem_cons.mp member with rfl | later
      · exact .inl included
      · exact .inr (ih later)

/-- Aliases that have all these names. -/
def Table.Covers (aliases : Table Tokens) (names : List String) : Prop :=
  ∀ name ∈ names, aliases.contains name = true

/-- Aliases that have all partials that tokens, or tokens of their own, include by name. -/
structure Table.Closes (aliases : Table Tokens) (tokens : Tokens) : Prop where
  tokens : aliases.Covers (Tokens.included tokens)
  aliases {name : String} {others : Tokens} : aliases.get? name = some others →
    aliases.Covers (Tokens.included others)

/-- Computations that end in the same way from states that are alike, and of which the first gives
only what meets a condition. -/
def GivesAlike (alike : Store → Store → Prop) : Bond := fun α holds left right =>
  EndsAlike alike α left right ∧
    ∀ store result after, left store = .ok result after → holds result

theorem binding_givesAlike (alike : Store → Store → Prop) : Binding (GivesAlike alike) where
  gives here := by
    refine ⟨fun _ _ same => ⟨rfl, same⟩, fun _ _ _ run => ?_⟩
    cases run
    exact here
  andThen := by
    intro α β middle holds first other next later begins continues
    have continued (store : Store) (result : α) (after : Store)
        (run : first store = .ok result after) :=
      continues result (begins.2 store result after run)
    refine ⟨begins.1.andThen fun store result after run => (continued store result after run).1,
      fun store result after run => ?_⟩
    cases begun : first store with
    | error fault reached =>
        rw [bind_of_error begun] at run
        cases run
    | ok given reached =>
        rw [bind_of_ok begun] at run
        exact (continued store given reached begun).2 reached result after run

theorem GivesAlike.ofView {alike : Store → Store → Prop} {α : Type} {holds : α → Prop}
    {result : Except Trouble α} (here : ∀ value, result = .ok value → holds value) :
    GivesAlike alike α holds (Action.ofView result) (Action.ofView result) := by
  cases result with
  | ok value => exact (binding_givesAlike alike).gives (here value rfl)
  | error trouble => exact ⟨fun _ _ same => ⟨rfl, same⟩, nofun⟩

/-- States in which the view has been used alike, with a cache each. -/
structure Apart (cache other : Cache) (store second : Store) : Prop where
  cache : store.cache = cache
  other : second.cache = other
  memory : store.memory = second.memory

theorem congruence_apart (cache other : Cache) : Congruence (EndsAlike (Apart cache other)) :=
  congruence_endsAlike (fun _ _ _ _ same => ⟨same.cache, same.other, same.memory⟩)
    (fun _ _ same => same.memory) fun _ _ _ same => ⟨same.cache, same.other, rfl⟩

/-- A handling that asks for no template by name, neither itself nor for a text to inherit from. -/
def Handling.Unaided : Handling → Prop
  | .gives _ | .raises _ => True
  | .tokenizes template _ next =>
      isTemplateText template = true ∧ (Scan.ofText template.toList).parents [] = [] ∧
        ∀ tokens, (next tokens).Unaided

theorem Handling.unaided_ofView (result : Except Trouble Value) : (ofView result).Unaided := by
  cases result <;> trivial

def Registry.Unaided (registry : Registry) : Prop :=
  ∀ name pragma, registry.get? name = some pragma → ∀ offer, (pragma.render offer).Unaided

namespace Registry

theorem Unaided.register {registry : Registry} {pragma : Pragma} (unaided : registry.Unaided)
    (added : ∀ offer, (pragma.render offer).Unaided) :
    (registry.register pragma).1.Unaided := by
  intro name found known
  rcases Table.get?_insert_elim known with rfl | before
  · exact added
  · exact unaided name found before

theorem unaided_standard : standard.Unaided :=
  Unaided.register nofun fun _ => Handling.unaided_ofView _

end Registry

/-- What rendering comes by where aliases have all partials. -/
def coveredTerms (root : Value) (aliases : Table Tokens) : Terms where
  view := root.Leads
  token token := aliases.Covers token.included
  nested tokens := aliases.Covers (Tokens.included tokens)
  active _ := True
  piece _ := True
  aliases := aliases

section

variable {root : Value} {aliases : Table Tokens} {cache other : Cache}

theorem partialTokens_covered {scope : Scope} {name : String} (same : scope.aliases = aliases)
    (covers : aliases.Covers [name])
    (closed : ∀ {name others}, aliases.get? name = some others →
      aliases.Covers (Tokens.included others)) (left right : Setting) :
    GivesAlike (Apart cache other) Tokens (fun tokens => aliases.Covers (Tokens.included tokens))
      (partialTokens left scope name) (partialTokens right scope name) := by
  have binding := binding_givesAlike (Apart cache other)
  have reported := (congruence_apart cache other).report (.aliased name)
  obtain ⟨others, known⟩ := Option.isSome_iff_exists.mp (covers name (.head _))
  simp only [partialTokens, same, known]
  exact binding.andThen ⟨reported, fun _ _ _ _ => trivial⟩ fun _ _ => binding.gives (closed known)

/-- The tokens of a text that inherits from nothing are the same everywhere. -/
theorem tokenize_apart {template : String} (plain : isTemplateText template = true)
    (none : (Scan.ofText template.toList).parents [] = []) (keep : Bool) (first second : Library) :
    EndsAlike (Apart cache other) Tokens (tokenize first keep template)
      (tokenize second keep template) := by
  have sequential := (congruence_apart cache other).toSequential
  have compiled (library : Library) : ∃ parent, tokenize library keep template =
      compileText parent .none template := by
    have some : 0 < template.length := by
      rcases Nat.eq_zero_or_pos template.length with blank | some
      · rw [String.length_eq_zero_iff.mp blank] at plain
        exact absurd plain (by decide +kernel)
      · exact some
    obtain ⟨fuel, levels⟩ : ∃ fuel, library.chainLimit + template.length = fuel + 1 :=
      Nat.exists_eq_add_one.mpr (by omega)
    refine ⟨tokenizeWithin library.source fuel true, ?_⟩
    rw [tokenize, levels, tokenizeWithin_text plain]
  obtain ⟨parent, same⟩ := compiled first
  obtain ⟨further, also⟩ := compiled second
  rw [same, also]
  refine compileText_related sequential .none fun name asked => ?_
  exact absurd (none ▸ asked) List.not_mem_nil

theorem run_apart {handling : Handling} (unaided : handling.Unaided) (first second : Library) :
    EndsAlike (Apart cache other) Value (handling.run first) (handling.run second) := by
  have congruence := congruence_apart cache other
  induction handling with
  | gives piece => exact congruence.gives piece
  | raises trouble => exact congruence.fails (.trouble trouble) (by simp)
  | tokenizes template keep next ih =>
      obtain ⟨plain, none, behind⟩ := unaided
      exact congruence.andThen (tokenize_apart plain none keep first second)
        fun tokens => ih tokens (behind tokens)

/-- Settings that differ in their libraries only render alike where aliases have all partials. -/
theorem binds_covered {left right : Setting}
    (hosts : left.Hosts (EndsAlike (Apart cache other)) right)
    (closed : ∀ {name others}, aliases.get? name = some others →
      aliases.Covers (Tokens.included others))
    (inert : ∀ value, root.Leads value → value.kind ≠ .ok .callable) :
    Binds (GivesAlike (Apart cache other)) left right (coveredTerms root aliases) where
  toBinding := binding_givesAlike _
  encloses held encloses _ included :=
    held _ ((Token.included_of_enclosed encloses).symm ▸ included)
  inactive := trivial
  silent := trivial
  content _ := trivial
  joins _ := trivial
  joinsPieces _ := .ofView fun _ _ => trivial
  offers _ _ := ⟨offer_related (congruence_apart _ _) hosts _ _ _ _, fun _ _ _ _ _ _ => trivial⟩
  escapes _ _ := ⟨renderEscaped_related (congruence_apart _ _) hosts _ _, fun _ _ _ _ => trivial⟩
  unescapes _ _ := ⟨renderUnescaped_related (congruence_apart _ _) _ _, fun _ _ _ _ => trivial⟩
  finds led _ _ := ⟨(congruence_apart _ _).finds _ _, fun _ _ _ run => .found led run⟩
  kinds _ := .ofView fun _ known => known
  takes led listed :=
    ⟨(congruence_apart _ _).takes _, fun _ _ _ run _ member => .item led listed run member⟩
  calls _ _ led called := absurd called (inert _ led)
  includes admits held := partialTokens_covered admits.aliases held closed left right
  activates _ _ := ⟨activate_related (congruence_apart _ _) hosts _ _ _, fun _ _ _ _ => trivial⟩

/-- Managers that differ in their templates and caches render tokens to the same end, and leave
their caches as they were, if aliases have all partials, nothing in the view can be called and
pragmas ask for no template by name. -/
theorem render_sealed {tokens : Tokens} (closes : aliases.Closes tokens)
    (inert : ∀ value, root.Leads value → value.kind ≠ .ok .callable) {pragmas : Registry}
    (unaided : pragmas.Unaided) (managerEscape escape : Escaper) (maxDepth : Option Int)
    (nestingLimit : Nat) (first second : Library) (store : Store) (cache : Cache) :
    let setting (library : Library) : Setting :=
      ⟨some ⟨pragmas, library, managerEscape⟩, escape, maxDepth, nestingLimit⟩
    let run := render (setting first) tokens root aliases store
    let other := render (setting second) tokens root aliases { store with cache }
    outcome run = outcome other ∧ (final run).cache = store.cache ∧ (final other).cache = cache := by
  intro setting run other
  have hosts : (setting first).Hosts (EndsAlike (Apart store.cache cache)) (setting second) :=
    ⟨rfl, .ofRuns (congruence_apart _ _) rfl rfl fun name pragma known offer =>
      run_apart (unaided name pragma known offer) first second⟩
  have binds : Binds (GivesAlike (Apart store.cache cache)) (setting first) (setting second)
      (coveredTerms root aliases) := binds_covered hosts closes.aliases inert
  have entered (depth : Nat) : EndsAlike (Apart store.cache cache) Unit (Action.enter depth)
      (Action.enter depth) := fun _ _ same => ⟨rfl, same.cache, same.other, same.memory⟩
  have held := render_binds binds rfl (fun _ => ⟨fun _ _ same => ⟨rfl, same⟩, nofun⟩)
    (fun depth => ⟨entered depth, fun _ _ _ _ => trivial⟩)
    (fun _ covered _ member _ included => covered _ (Tokens.mem_included_of_mem member included))
    rfl .here closes.tokens
  obtain ⟨ended, after⟩ := held.1 store { store with cache } ⟨rfl, rfl, rfl⟩
  exact ⟨ended, after.cache, after.other⟩

end

/-- A row that includes itself through its alias, which the libraries and caches of two managers
have as something else, or not at all. -/
theorem render_sealed_rows :
    let rows : Tokens := [.escaped "cell", .block "next" [.partialNamed "row"] ""]
    let aliases : Table Tokens := ⟨[("row", rows)]⟩
    let view : Value := .mapping [(.text "cell", .text "a"),
      (.text "next", .mapping [(.text "cell", .text "b")])]
    let wall : Library := ⟨fun _ => .found (.text "wall"), 1⟩
    let bare : Library := ⟨fun _ => .absent, 1⟩
    let kept := Cache.empty.insert (.text "row") [.content "stone"]
    let setting (library : Library) : Setting := ⟨some ⟨.standard, library, .html⟩, .html, some 4, 1⟩
    let run := render (setting wall) [.partialNamed "row"] view aliases .fresh
    let other := render (setting bare) [.partialNamed "row"] view aliases
      { Store.fresh with cache := kept }
    aliases.Closes [.partialNamed "row"] ∧ outcome run = .ok "ab" ∧ outcome other = .ok "ab" ∧
      (final other).cache = kept := by
  intro rows aliases view wall bare kept setting run other
  have covers : aliases.Covers ["row"] := fun name member => by
    rw [List.mem_singleton.mp member]
    rfl
  have closes : aliases.Closes [.partialNamed "row"] := by
    refine ⟨covers, fun {name others} known => ?_⟩
    have same : others = rows := by
      simp only [Table.get?, aliases, Table.findEntry] at known
      split at known
      · exact (Option.some.inj known).symm
      · cases known
    rw [same]
    exact covers
  have data : view.IsData := by simp [view, Value.IsData, Value.EntriesData]
  have alike := render_sealed closes data.inert Registry.unaided_standard .html .html (some 4) 1
    wall bare .fresh kept
  have written : outcome run = .ok "ab" := rfl
  exact ⟨closes, written, alike.1.symm.trans written, alike.2.2⟩

/-- Of two managers with the same pragmas, one renders otherwise if a pragma asks for a template that
the other does not have, or if its renderer has been handed on to a manager without the pragma. -/
theorem render_unsealed :
    let wall : Library := ⟨fun _ => .found (.text "wall"), 1⟩
    let bare : Library := ⟨fun _ => .absent, 1⟩
    let asking : Pragma :=
      ⟨"ASK", [.content], fun _ => .tokenizes "stone" true fun _ => .gives (.text "found")⟩
    let asked (library : Library) :=
      render ⟨some ⟨⟨[("ASK", asking)]⟩, library, .html⟩, .html, none, 2000⟩
        [.pragma "ASK" .empty, .content "x"] (.mapping []) .empty .fresh
    let echo := Probe.echo.pragma "P" [.content]
    let steps : List (String × Step) :=
      [("m", .create true), ("m", .addPragma (.fitting echo)), ("n", .create true),
        ("n", .addPragma (.fitting echo)), ("k", .create true), ("k", .shareRenderer "n")]
    let reached := steps.foldl
      (fun workspace step => final (Session.perform step.1 step.2 workspace)) (.empty .empty [])
    let rendered (manager : String) :=
      Work.renderTokens manager [.pragma "P" .empty, .content "x"] (.mapping []) .empty reached
    (outcome (asked wall)).toOption = some "found" ∧
      outcome (asked bare) = .error (.templateNotFound "stone") ∧
      (outcome (rendered "m")).toOption = some "<P content x>" ∧
      (outcome (rendered "n")).toOption = none := by
  intro wall bare asking asked echo steps reached rendered
  have found : (outcome (asked wall)).toOption = some "found" := by decide +kernel
  have shown : (outcome (rendered "m")).toOption = some "<P content x>" := by decide +kernel
  have failed : (outcome (rendered "n")).toOption = none := by decide +kernel
  exact ⟨found, rfl, shown, failed⟩

end Logicless
