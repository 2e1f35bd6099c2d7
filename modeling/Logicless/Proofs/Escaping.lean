import Logicless.Escape
import Logicless.Proofs.Upholding
import Logicless.Proofs.Views

namespace Logicless

/-!
What of the data gets past the escaper.

A template without unescaped variables and pragmas, rendered with the standard escaper, writes its
own text, escaped scalars, and the printed forms of what its variables find besides, which are not
escaped (`render_woven`). So where variables find scalars, or nothing with a mark of markup in its
printed form, no such mark gets into the text. A list of texts is a way around the escaper
(`list_unescaped`).
-/

/-- The characters that open and close tags and end attributes. -/
def IsMark (c : Char) : Prop := c = '<' ∨ c = '>' ∨ c = '"'

def MarkFree (text : String) : Prop := ∀ c ∈ text.toList, ¬ IsMark c

theorem markFree_join {texts : List String} (free : ∀ text ∈ texts, MarkFree text) :
    MarkFree (String.join texts) := by
  intro c member
  rw [String.toList_join] at member
  obtain ⟨text, inside, here⟩ := List.mem_flatMap.mp member
  exact free text inside c here

theorem markFree_escapedHtml (value : Value) : MarkFree (escapedHtml value) := by
  intro c member mark
  rw [escapedHtml, String.toList_ofList] at member
  exact not_mem_escapeHtml mark member

/-- A token that rendering comes by, or what it finds the cache to be. -/
inductive Visit where
  | token (token : Token)
  | cache (cache : Cache)

/-- What rendering tokens comes by: the tokens themselves, those nested in them, and those of their
partials, which have aliases or are found in the library of the setting. -/
inductive Visits (setting : Setting) (aliases : Table Tokens) (tokens : Tokens) (begun : Cache) :
    Visit → Prop where
  | given {token : Token} (member : token ∈ tokens) :
      Visits setting aliases tokens begun (.token token)
  | nested {token outer : Token} {inner : Tokens}
      (around : Visits setting aliases tokens begun (.token outer))
      (encloses : outer.enclosed? = some inner) (member : token ∈ inner) :
      Visits setting aliases tokens begun (.token token)
  | aliased {token : Token} {name : String} {others : Tokens}
      (included : Visits setting aliases tokens begun (.token (.partialNamed name)))
      (known : aliases.get? name = some others) (member : token ∈ others) :
      Visits setting aliases tokens begun (.token token)
  | found {token : Token} {name : String} {home : Home} {store after : Store} {others : Tokens}
      (included : Visits setting aliases tokens begun (.token (.partialNamed name)))
      (unknown : aliases.get? name = none) (settled : setting.home = some home)
      (reached : Visits setting aliases tokens begun (.cache store.cache))
      (run : tokenize home.library true name store = .ok others after) (member : token ∈ others) :
      Visits setting aliases tokens begun (.token token)
  | begun : Visits setting aliases tokens begun (.cache begun)
  | searched {name : String} {home : Home} {store : Store}
      (included : Visits setting aliases tokens begun (.token (.partialNamed name)))
      (unknown : aliases.get? name = none) (settled : setting.home = some home)
      (reached : Visits setting aliases tokens begun (.cache store.cache)) :
      Visits setting aliases tokens begun
        (.cache (final (tokenize home.library true name store)).cache)

/-- Tokens that write no data unescaped, activate no pragma, and have no marks in their text. -/
def Token.Tame : Token → Prop
  | .content text => MarkFree text
  | .unescaped _ | .pragma .. => False
  | _ => True

/-- Texts put together from pieces without marks and from the printed forms of certain values. -/
inductive Woven (shown : Value → Prop) : String → Prop where
  | clean {text : String} (free : MarkFree text) : Woven shown text
  | printed {value : Value} (here : shown value) : Woven shown value.printed
  | join {texts : List String} (pieces : ∀ text ∈ texts, Woven shown text) :
      Woven shown (String.join texts)

theorem Woven.markFree {shown : Value → Prop} {text : String} (woven : Woven shown text)
    (free : ∀ value, shown value → MarkFree value.printed) : MarkFree text := by
  induction woven with
  | clean free => exact free
  | printed here => exact free _ here
  | join _ ih => exact markFree_join ih

section

variable {setting : Setting} {aliases : Table Tokens} {tokens : Tokens} {begun : Cache}
  {root : Value}

/-- What a variable writes unescaped: values that are no scalars. -/
inductive Unescaped (setting : Setting) (aliases : Table Tokens) (tokens : Tokens) (begun : Cache)
    (root : Value) : Value → Prop where
  | mk {value inner : Value} {name : String} {store after : Store}
      (met : Visits setting aliases tokens begun (.token (.escaped name)))
      (led : root.Leads inner) (finds : find inner name store = .ok value after)
      (compound : value.isScalar = false) : Unescaped setting aliases tokens begun root value

/-- What rendering such a template comes by. -/
def wovenTerms (setting : Setting) (aliases : Table Tokens) (tokens : Tokens) (begun : Cache)
    (root : Value) : Terms where
  view := root.Leads
  token token := Visits setting aliases tokens begun (.token token)
  nested inner := ∀ token ∈ inner, Visits setting aliases tokens begun (.token token)
  active := (· = .empty)
  piece piece := Woven (Unescaped setting aliases tokens begun root) (pieceText piece)
  aliases := aliases

theorem joinPieces_woven {shown : Value → Prop} {pieces : List Piece} {text : String}
    (woven : ∀ piece ∈ pieces, Woven shown (pieceText piece))
    (joined : joinPieces pieces = .ok text) : Woven shown text := by
  unfold joinPieces at joined
  split at joined
  · cases joined
    exact .join (List.forall_mem_map.mpr woven)
  · cases joined

/-- The states in which rendering may find the cache. -/
abbrev Reached (setting : Setting) (aliases : Table Tokens) (tokens : Tokens) (begun : Cache)
    (store : Store) : Prop :=
  Visits setting aliases tokens begun (.cache store.cache)

theorem lawful_reached (setting : Setting) (aliases : Table Tokens) (tokens : Tokens)
    (begun : Cache) : Lawful (Keeps (Reached setting aliases tokens begun)) :=
  lawful_keeps fun _ _ kept => kept

theorem find_keeps (name : String) {inner : Value} (led : root.Leads inner) :
    Keeps (Reached setting aliases tokens begun) Value
      (fun value => root.Leads value ∧ ∃ store after, find inner name store = .ok value after)
      (find inner name) := by
  have lawful := lawful_reached setting aliases tokens begun
  apply lawful.weaken (keeps_find (fun _ _ kept => kept) inner name)
  rintro value ⟨store, after, run⟩
  exact ⟨.found led run, store, after, run⟩

theorem takeItems_keeps {value : Value} (led : root.Leads value) (listed : value.kind = .ok .list) :
    Keeps (Reached setting aliases tokens begun) (List Value)
      (fun items => ∀ item ∈ items, root.Leads item) (takeItems value) := by
  have lawful := lawful_reached setting aliases tokens begun
  apply lawful.weaken (keeps_takeItems (fun _ _ kept => kept) value)
  rintro items ⟨store, after, run⟩ item member
  exact .item led listed run member

theorem partialTokens_keeps {scope : Scope} {name : String} (aliased : scope.aliases = aliases)
    (included : Visits setting aliases tokens begun (.token (.partialNamed name))) :
    Keeps (Reached setting aliases tokens begun) Tokens
      (fun others => ∀ token ∈ others, Visits setting aliases tokens begun (.token token))
      (partialTokens setting scope name) := by
  have lawful := lawful_reached setting aliases tokens begun
  unfold partialTokens
  rw [aliased]
  cases known : aliases.get? name with
  | some others =>
      refine lawful.andThen (lawful.report _) fun _ _ => lawful.gives fun token member => ?_
      exact .aliased included known member
  | none =>
      cases settled : setting.home with
      | none => exact .throw _
      | some home =>
          refine lawful.andThen (lawful.report _) fun _ _ store kept => ?_
          refine ⟨.searched included known settled kept, fun others after run token member => ?_⟩
          exact .found included known settled kept run member

theorem renderEscaped_keeps (escape : setting.escape = .html) {scope : Scope}
    (admits : (wovenTerms setting aliases tokens begun root).Admits scope) {name : String}
    (met : Visits setting aliases tokens begun (.token (.escaped name))) :
    Keeps (Reached setting aliases tokens begun) Piece
      (wovenTerms setting aliases tokens begun root).piece (renderEscaped setting scope name) := by
  have lawful := lawful_reached setting aliases tokens begun
  have nothing : (wovenTerms setting aliases tokens begun root).piece .null := .clean nofun
  refine lawful.andThen (find_keeps name admits.view) fun value found => ?_
  obtain ⟨_, store, after, finds⟩ := found
  rw [escape, show scope.active = .empty from admits.active, offer_empty]
  split
  · split
    · exact lawful.gives nothing
    · split
      · exact lawful.gives nothing
      · refine .ofView fun piece escaped => ?_
        cases escaped
        exact .clean (markFree_escapedHtml value)
  · rename_i compound
    exact lawful.gives (.printed ⟨met, admits.view, finds, by simpa using compound⟩)

theorem upholds_woven (escape : setting.escape = .html)
    (tame : ∀ token, Visits setting aliases tokens begun (.token token) → token.Tame)
    (inert : ∀ value, root.Leads value → value.kind ≠ .ok .callable) :
    Upholds (Keeps (Reached setting aliases tokens begun)) setting
      (wovenTerms setting aliases tokens begun root) where
  toBinding := (lawful_reached setting aliases tokens begun).binding
  encloses held encloses token member := .nested held encloses member
  inactive := rfl
  silent := .clean nofun
  content held := .clean (tame _ held)
  joins pieces := .join pieces
  joinsPieces pieces := .ofView fun text joined => joinPieces_woven pieces joined
  offers admits _ := by
    rw [show _ = Table.empty from admits.active, offer_empty]
    exact (lawful_reached setting aliases tokens begun).gives nofun
  escapes admits held := renderEscaped_keeps escape admits held
  unescapes _ held := (tame _ held).elim
  finds led _ _ :=
    (lawful_reached setting aliases tokens begun).weaken (find_keeps _ led) fun _ found => found.1
  kinds led := .ofView fun kind known => known
  takes led listed := takeItems_keeps led listed
  calls _ _ led called := absurd called (inert _ led)
  includes admits held := partialTokens_keeps admits.aliases held
  activates _ held := (tame _ held).elim

/-- A text rendered with the standard escaper, where no token writes marks or unescaped data and
nothing can be called, is woven from pieces without marks and from the printed forms of what
variables find that is no scalar. Where these have no marks, the text has none. -/
theorem render_woven (escape : setting.escape = .html) {store after : Store} {text : String}
    (tame : ∀ token, Visits setting aliases tokens store.cache (.token token) → token.Tame)
    (inert : ∀ value, root.Leads value → value.kind ≠ .ok .callable)
    (run : render setting tokens root aliases store = .ok text after) :
    Woven (Unescaped setting aliases tokens store.cache root) text ∧
      ((∀ value, Unescaped setting aliases tokens store.cache root value → MarkFree value.printed) →
        MarkFree text) := by
  have held := render_upheld (upholds_woven escape tame inert) .throw
    (fun _ _ kept => ⟨kept, fun _ _ _ => trivial⟩) (fun _ nested => nested) .here
    (fun _ member => .given member)
  have woven : Woven (Unescaped setting aliases tokens store.cache root) text :=
    (held store .begun).2 text after run
  exact ⟨woven, woven.markFree⟩

end

/-- Tokens that neither enclose nor include others are all that rendering comes by. -/
theorem Visits.mem_of_flat {setting : Setting} {aliases : Table Tokens} {tokens : Tokens}
    {begun : Cache}
    (flat : ∀ token ∈ tokens, token.enclosed? = none ∧ ∀ name, token ≠ .partialNamed name)
    {token : Token} (visited : Visits setting aliases tokens begun (.token token)) :
    token ∈ tokens := by
  generalize visit : Visit.token token = thing at visited
  induction visited generalizing token with
  | given member =>
      cases visit
      exact member
  | nested _ encloses _ ih =>
      have opened := (flat _ (ih rfl)).1
      rw [opened] at encloses
      cases encloses
  | aliased _ _ _ ih => exact absurd rfl ((flat _ (ih rfl)).2 _)
  | found _ _ _ _ _ _ ih => exact absurd rfl ((flat _ (ih rfl)).2 _)
  | begun | searched => cases visit

/-- A tag in a text is escaped. -/
theorem render_woven_tag :
    let root : Value := .mapping [(.text "x", .text "<b>")]
    let tokens : Tokens := [.content "a", .escaped "x"]
    ∃ text, outcome (render ⟨none, .html, none, 2⟩ tokens root .empty .fresh) = .ok text ∧
      Woven (Unescaped ⟨none, .html, none, 2⟩ .empty tokens Store.fresh.cache root) text := by
  intro root tokens
  have data : root.IsData := ⟨rfl, trivial, trivial⟩
  have tame : ∀ token ∈ tokens, token.Tame := by
    simp [tokens, Token.Tame, MarkFree, IsMark]
  have flat : ∀ token ∈ tokens, token.enclosed? = none ∧ ∀ name, token ≠ .partialNamed name := by
    simp [tokens, Token.enclosed?]
  have run : render ⟨none, .html, none, 2⟩ tokens root .empty .fresh = .ok "a&lt;b&gt;" _ := rfl
  have woven := render_woven rfl (fun token visited => tame token (visited.mem_of_flat flat))
    data.inert run
  exact ⟨"a&lt;b&gt;", by rw [run]; rfl, woven.1⟩

/-- A tag in a text in a list is not: nothing else lets a mark through here. -/
theorem list_unescaped :
    let setting : Setting := ⟨none, .html, none, 2⟩
    let root : Value := .mapping [(.text "x", .list [.text "<b>"])]
    (∀ token, Visits setting .empty [.escaped "x"] .empty (.token token) → token.Tame) ∧
      (∀ value, root.Leads value → value.kind ≠ .ok .callable) ∧
      outcome (render setting [.escaped "x"] root .empty .fresh) = .ok "['<b>']" ∧
      ¬ MarkFree "['<b>']" := by
  intro setting root
  have data : root.IsData := ⟨rfl, ⟨trivial, trivial⟩, trivial⟩
  refine ⟨fun token visited => ?_, data.inert, rfl, fun free => ?_⟩
  · have member := visited.mem_of_flat (by simp [Token.enclosed?])
    rw [List.mem_singleton.mp member]
    trivial
  · exact free '<' (by decide) (.inl rfl)

end Logicless
