import Logicless.Proofs.Upholding
import Logicless.Proofs.Views

namespace Logicless

/-- Names no step of which consists of digits that spell no number. -/
def Readable (name : String) : Prop := ∀ step ∈ Value.steps name, ¬ Value.Illegible step

instance (step : String) : Decidable (Value.Illegible step) :=
  inferInstanceAs (Decidable (Text.readNumeral step.toList = .unreadable))

instance (name : String) : Decidable (Readable name) :=
  inferInstanceAs (Decidable (∀ step ∈ Value.steps name, ¬ Value.Illegible step))

mutual

/-- Tokens that neither include templates nor activate pragmas, and look up readable names only. -/
def Token.Plain : Token → Prop
  | .content _ | .delimiters .. | .comment _ => True
  | .escaped name | .unescaped name => Readable name
  | .block name inner _ | .inverted name inner => Readable name ∧ Tokens.Plain inner
  | .placeholder _ inner => Tokens.Plain inner
  | .partialNamed _ | .partialKnown _ | .pragma .. => False
termination_by structural token => token

def Tokens.Plain : List Token → Prop
  | [] => True
  | token :: rest => token.Plain ∧ Tokens.Plain rest
termination_by structural tokens => tokens

end

mutual

/-- How many blocks are nested in a token, one in the other. -/
def Token.depth : Token → Nat
  | .block _ inner _ | .inverted _ inner | .placeholder _ inner | .partialKnown inner =>
      Tokens.depth inner + 1
  | _ => 0
termination_by structural token => token

def Tokens.depth : List Token → Nat
  | [] => 0
  | token :: rest => max token.depth (Tokens.depth rest)
termination_by structural tokens => tokens

end

theorem Tokens.plain_iff (tokens : Tokens) :
    Tokens.Plain tokens ↔ ∀ token ∈ tokens, token.Plain := by
  induction tokens with
  | nil => simp [Plain]
  | cons token rest ih => simp [Plain, ih]

theorem Token.depth_le_of_mem {tokens : Tokens} {token : Token} (member : token ∈ tokens) :
    token.depth ≤ Tokens.depth tokens := by
  induction tokens with
  | nil => contradiction
  | cons first rest ih =>
      simp only [Tokens.depth]
      rcases List.mem_cons.mp member with rfl | later
      · exact Nat.le_max_left _ _
      · exact Nat.le_trans (ih later) (Nat.le_max_right _ _)

theorem Token.Plain.enclosed {token : Token} {inner : Tokens} (plain : token.Plain)
    (encloses : token.enclosed? = some inner) :
    Tokens.Plain inner ∧ Tokens.depth inner + 1 = token.depth := by
  cases token <;> simp only [Token.enclosed?, Option.some.injEq, reduceCtorEq] at encloses
  all_goals subst encloses
  case block | inverted => exact ⟨plain.2, rfl⟩
  case placeholder => exact ⟨plain, rfl⟩
  case partialKnown => exact plain.elim

/-- A computation that always gives something. -/
def Gives : Warrant := fun _ holds action =>
  ∀ store, ∃ result after, action store = .ok result after ∧ holds result

theorem lawful_gives : Lawful Gives where
  gives here store := ⟨_, store, rfl, here⟩
  andThen first later store := by
    obtain ⟨result, middle, begun, holds⟩ := first store
    rw [bind_of_ok begun]
    exact later result holds middle
  report event store := ⟨(), _, rfl, trivial⟩

theorem Gives.ofView {α : Type} {holds : α → Prop} {result : Except Trouble α} {value : α}
    (given : result = .ok value) (here : holds value) : Gives α holds (Action.ofView result) := by
  subst given
  exact lawful_gives.gives here

theorem find_gives {view : Value} (data : view.IsData) {name : String} (readable : Readable name) :
    Gives Value Value.IsData (find view name) := by
  intro store
  rcases Value.lookup_data data name with ⟨found, known, inside⟩ | ⟨step, member, illegible, _⟩
  · exact ⟨found, store, find_present (Value.IsData.isFixed_eq _ data) known store, inside⟩
  · exact absurd illegible (readable step member)

/-- What rendering plain tokens against data comes by, where nested blocks have so many levels. -/
def dataTerms (aliases : Table Tokens) (levels : Nat) : Terms where
  view := Value.IsData
  token token := token.Plain ∧ token.depth ≤ levels
  nested tokens := Tokens.Plain tokens ∧ Tokens.depth tokens < levels
  active := (· = .empty)
  piece piece := piece.isJoinable = true
  aliases := aliases

section

variable {setting : Setting} {aliases : Table Tokens} {levels : Nat}

theorem renderEscaped_gives (escape : setting.escape = .html) {scope : Scope}
    (admits : (dataTerms aliases levels).Admits scope) {name : String} (readable : Readable name) :
    Gives Piece (fun piece => piece.isJoinable = true) (renderEscaped setting scope name) := by
  refine lawful_gives.andThen (find_gives admits.view readable) fun value _ => ?_
  rw [escape, show scope.active = .empty from admits.active, offer_empty]
  split
  · split
    · exact lawful_gives.gives rfl
    · split
      · exact lawful_gives.gives rfl
      · exact .ofView rfl rfl
  · exact lawful_gives.gives rfl

theorem upholds_gives (escape : setting.escape = .html) (aliases : Table Tokens) (levels : Nat) :
    Upholds Gives setting (dataTerms aliases levels) where
  toBinding := lawful_gives.binding
  encloses held encloses := by
    obtain ⟨plain, deeper⟩ := held.1.enclosed encloses
    have within := held.2
    exact ⟨plain, by omega⟩
  inactive := rfl
  silent := rfl
  content _ := rfl
  joins _ := rfl
  joinsPieces joinable := .ofView (if_pos (List.all_eq_true.mpr joinable)) rfl
  offers admits _ := by
    rw [show _ = Table.empty from admits.active, offer_empty]
    exact lawful_gives.gives nofun
  escapes admits held := renderEscaped_gives escape admits held.1
  unescapes admits held :=
    lawful_gives.andThen (find_gives admits.view held.1) fun _ _ => lawful_gives.gives rfl
  finds := by
    intro view token name data held named
    cases token <;> simp only [Token.condition?, Option.some.injEq, reduceCtorEq] at named
    all_goals subst named
    case block | inverted => exact find_gives data held.1.1
  kinds data := by
    obtain ⟨kind, known, _⟩ := Value.IsData.exists_kind data
    exact .ofView known known
  takes data listed store := by
    obtain ⟨items, taken, inside⟩ := Value.IsData.takeItems_eq data listed store
    exact ⟨items, store, taken, inside⟩
  calls _ _ data called := by
    obtain ⟨kind, known, shapes⟩ := Value.IsData.exists_kind data
    rw [known] at called
    cases called
    simp at shapes
  includes _ held := held.1.elim
  activates _ held := held.1.elim

theorem renderWithin_gives (escape : setting.escape = .html) (unlimited : setting.maxDepth = none)
    (aliases : Table Tokens) (levels : Nat) :
    (dataTerms aliases levels).Nests Gives.alone (renderWithin setting levels)
      (renderWithin setting levels) := by
  induction levels with
  | zero => exact fun _ _ _ nested => absurd nested.2 (Nat.not_lt_zero _)
  | succ levels ih =>
      intro scope tokens admits nested
      have allowed : setting.exceeds scope.depth = none := by
        simp only [Setting.exceeds, unlimited]
      rw [renderWithin_entered allowed]
      have enters : Gives Unit (fun _ => True) (Action.enter scope.depth) :=
        fun store => ⟨(), _, rfl, trivial⟩
      refine lawful_gives.andThen enters fun _ _ => ?_
      have here : (dataTerms aliases levels).Admits scope :=
        ⟨admits.view, admits.active, admits.aliases⟩
      refine lawful_gives.weaken (renderTokens_binds (upholds_gives escape aliases levels) ih here
        fun token member => ?_) fun _ block => ⟨block.text, block.active⟩
      have deep := Token.depth_le_of_mem member
      have within := nested.2
      exact ⟨(Tokens.plain_iff tokens).mp nested.1 token member, by omega⟩

end

/-- Looking a name up in data has a result, unless a step of the name cannot be read, and rendering
plain tokens against data has a text. -/
theorem data_never_fails {view : Value} (data : view.IsData) :
    (∀ name, (∃ found, view.lookup name = .ok (.present found)) ∨
      ∃ step ∈ Value.steps name, Value.Illegible step ∧
        view.lookup name = .error (Value.illegible step)) ∧
    ∀ (setting : Setting) (tokens : Tokens) (aliases : Table Tokens) (store : Store),
      setting.escape = .html → setting.maxDepth = none → Tokens.Plain tokens →
        Tokens.depth tokens < setting.nestingLimit →
          ∃ text after, render setting tokens view aliases store = .ok text after := by
  refine ⟨fun name => ?_, fun setting tokens aliases store escape unlimited plain shallow => ?_⟩
  · refine (Value.lookup_data data name).imp_left ?_
    rintro ⟨found, known, _⟩
    exact ⟨found, known⟩
  · have levels : setting.levels = setting.nestingLimit := by
      simp only [Setting.levels, unlimited]
    have nests := renderWithin_gives escape unlimited aliases setting.levels
    have admits : (dataTerms aliases setting.levels).Admits ⟨view, aliases, .empty, 0⟩ :=
      ⟨data, rfl, rfl⟩
    obtain ⟨rendered, after, run, _⟩ := nests _ tokens admits ⟨plain, levels ▸ shallow⟩ store
    exact ⟨rendered.text, after, by rw [render, bind_of_ok run]; rfl⟩

/-- The rows of a table, one of which has no such column. -/
theorem data_never_fails_rows :
    let row (cell : Value) : Value := .mapping [(.text "cell", cell)]
    let view : Value := .mapping [(.text "rows", .list [row (.list [.int 1]), .mapping []])]
    view.IsData ∧ ∃ text after, render ⟨none, .html, none, 2⟩
      [.block "rows" [.escaped "cell.0"] "", .inverted "rows.2" [.content "end"]] view .empty
      .fresh = .ok text after := by
  intro row view
  have data : view.IsData := by simp [view, row, Value.IsData, Value.AllData, Value.EntriesData]
  refine ⟨data, (data_never_fails data).2 _ _ _ _ rfl rfl ?_ (by decide)⟩
  have rows : Readable "rows" := by decide +kernel
  have cell : Readable "cell.0" := by decide +kernel
  have third : Readable "rows.2" := by decide +kernel
  exact ⟨⟨rows, cell, trivial⟩, ⟨third, trivial, trivial⟩, trivial⟩

/-- A superscript is a digit, but spells no number, and a range can be too long to be counted. -/
theorem data_fails :
    (Value.mapping []).lookup "²" = .error (Value.illegible "²") ∧
      (Value.range 0 1000000000000000000000000000000 1).lookup "0" =
        .error (.overflow "Python int too large to convert to C ssize_t") := by
  constructor
  · rfl
  · rfl

end Logicless
