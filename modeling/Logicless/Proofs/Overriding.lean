import Logicless.Proofs.Caching
import Logicless.Proofs.Lineage
import Logicless.Proofs.Nesting

namespace Logicless

namespace Table

variable {α β : Type}

theorem findEntry_append (name : String) (left right : List (String × α)) :
    findEntry name (left ++ right) = (findEntry name left).or (findEntry name right) := by
  induction left with
  | nil => rfl
  | cons entry rest ih =>
      obtain ⟨other, value⟩ := entry
      by_cases same : other = name
      · simp [findEntry, same]
      · simp [findEntry, same, ih]

theorem get?_map (given : α → β) (table : Table α) (name : String) :
    (table.map given).get? name = (table.get? name).map given := by
  obtain ⟨entries⟩ := table
  simp only [get?, map]
  induction entries with
  | nil => rfl
  | cons entry rest ih =>
      obtain ⟨other, value⟩ := entry
      by_cases same : other = name
      · simp [findEntry, same]
      · simp [findEntry, same, ih]

end Table

namespace Overrides

/-- The content of a name is the later one, or else the earlier one with the later ones in it. -/
def Composes (first second both : Overrides) : Prop :=
  ∀ name, both.get? name =
    (second.get? name).or ((first.get? name).map (Tokens.substitute second))

def andThen (first second : Overrides) : Overrides :=
  ⟨second.entries ++ (first.map (Tokens.substitute second)).entries⟩

theorem composes_andThen (first second : Overrides) :
    first.Composes second (first.andThen second) := by
  intro name
  have mapped := Table.get?_map (Tokens.substitute second) first name
  simp only [Table.get?] at mapped ⊢
  rw [andThen, Table.findEntry_append, mapped]

/-- A name that is overridden twice by the same content has it. -/
theorem composes_self (overrides : Overrides) : overrides.Composes overrides overrides := by
  intro name
  cases overrides.get? name <;> rfl

end Overrides

mutual

theorem Token.substitute_substitute {first second both : Overrides}
    (composes : first.Composes second both) : (token : Token) →
    Token.substitute second (Token.substitute first token) = Token.substitute both token
  | .placeholder name content => by
      have joined := composes name
      cases earlier : first.get? name with
      | some replacement =>
          -- what has replaced the content is replaced again, or replaced in
          cases later : second.get? name <;> simp [Token.substitute, earlier, later, joined]
      | none =>
          have within := Tokens.substitute_substitute composes content
          cases later : second.get? name <;>
            simp [Token.substitute, earlier, later, joined, within]
  | .block name content template => by
      simp only [Token.substitute, Tokens.substitute_substitute composes content]
  | .inverted name content => by
      simp only [Token.substitute, Tokens.substitute_substitute composes content]
  | .partialKnown tokens => by
      simp only [Token.substitute, Tokens.substitute_substitute composes tokens]
  | .content _ | .escaped _ | .unescaped _ | .partialNamed _ | .pragma .. | .delimiters ..
  | .comment _ => by simp only [Token.substitute]

theorem Tokens.substitute_substitute {first second both : Overrides}
    (composes : first.Composes second both) : (tokens : List Token) →
    Tokens.substitute second (Tokens.substitute first tokens) = Tokens.substitute both tokens
  | [] => rfl
  | token :: rest => by
      simp only [Tokens.substitute, Token.substitute_substitute composes token,
        Tokens.substitute_substitute composes rest]

end

theorem Tokens.substitute_append (overrides : Overrides) (left right : Tokens) :
    Tokens.substitute overrides (left ++ right) =
      Tokens.substitute overrides left ++ Tokens.substitute overrides right := by
  induction left with
  | nil => rfl
  | cons token rest ih => simp only [List.cons_append, Tokens.substitute, ih]

namespace Overrides

/-- The overrides of a line of templates as one set. The one nearest to the root comes first. -/
def joint : List Overrides → Overrides
  | [] => .empty
  | level :: later => level.andThen (joint later)

theorem joint_get? (level : Overrides) (later : List Overrides) (name : String) :
    (joint (level :: later)).get? name =
      ((joint later).get? name).or ((level.get? name).map (Tokens.substitute (joint later))) :=
  composes_andThen level (joint later) name

theorem joint_get?_eq_none {levels : List Overrides} {name : String} :
    (joint levels).get? name = none ↔ ∀ level ∈ levels, level.get? name = none := by
  induction levels with
  | nil => simp [joint]
  | cons level later ih => simp [joint_get?, ih, and_comm]

/-- The level furthest from the root that has a name decides, with the levels behind it replacing in
what it has. -/
theorem joint_get?_of_last {levels earlier later : List Overrides} {level : Overrides}
    {name : String} {content : Tokens} (split : levels = earlier ++ level :: later)
    (found : level.get? name = some content) (last : ∀ other ∈ later, other.get? name = none) :
    (joint levels).get? name = some (Tokens.substitute (joint later) content) := by
  subst split
  induction earlier with
  | nil => simp [joint_get?, joint_get?_eq_none.mpr last, found]
  | cons first earlier ih => simp [joint_get?, ih]

end Overrides

/-- A template that fills in another: the tokens before, in and behind its inheriting block. -/
structure Filling where
  before : Tokens
  content : Tokens
  after : Tokens

/-- Tokens as a known partial among others. -/
def Tokens.embed (before tokens after : Tokens) : Tokens := before ++ .partialKnown tokens :: after

theorem Tokens.substitute_embed (overrides : Overrides) (before tokens after : Tokens) :
    Tokens.substitute overrides (Tokens.embed before tokens after) =
      Tokens.embed (Tokens.substitute overrides before) (Tokens.substitute overrides tokens)
        (Tokens.substitute overrides after) := by
  simp only [embed, substitute_append, Tokens.substitute, Token.substitute]

namespace Filling

def overrides (filling : Filling) : Overrides := Tokens.overrides filling.content

/-- The tokens of the template, from those of its parent. -/
def fill (filling : Filling) (parent : Tokens) : Tokens :=
  Tokens.embed filling.before (Tokens.substitute filling.overrides parent) filling.after

/-- The tokens of the last of a line of templates, from those of its root. -/
def descended : List Filling → Tokens → Tokens
  | [], root => root
  | filling :: later, root => descended later (filling.fill root)

theorem descended_concat (fillings : List Filling) (filling : Filling) (root : Tokens) :
    descended (fillings ++ [filling]) root = filling.fill (descended fillings root) := by
  induction fillings generalizing root with
  | nil => rfl
  | cons first later ih => exact ih (first.fill root)

def joint (fillings : List Filling) : Overrides := Overrides.joint (fillings.map overrides)

/-- Tokens within all that a line of templates puts around them, in which the templates further from
the root have replaced as well. -/
def enclosed : List Filling → Tokens → Tokens
  | [], tokens => tokens
  | filling :: later, tokens =>
      enclosed later (Tokens.embed (Tokens.substitute (joint later) filling.before) tokens
        (Tokens.substitute (joint later) filling.after))

/-- A line of templates replaces in its root once. -/
theorem descended_eq (fillings : List Filling) (root : Tokens) :
    descended fillings root =
      enclosed fillings (Tokens.substitute (joint fillings) root) := by
  induction fillings generalizing root with
  | nil => exact (Tokens.substitute_empty root).symm
  | cons filling later ih =>
      have composes : filling.overrides.Composes (joint later) (joint (filling :: later)) :=
        Overrides.composes_andThen filling.overrides (joint later)
      rw [descended, ih, fill, Tokens.substitute_embed, Tokens.substitute_substitute composes]
      rfl

end Filling

namespace Nest

/-- The tokens of the parent that a tag asks for, if it asks for one. -/
def inherited (parent : String → Action Tokens) (nest : Nest) (tag : Tag) : Action Tokens :=
  match nest.parent? tag with
  | some name => parent name
  | none => pure []

/-- Adds pieces one by one. `parent` gives the tokens that a closing tag asks for. -/
def ask (parent : String → Action Tokens) (template : Option String) :
    Nest → List Stretch → Action Nest
  | nest, [] => pure nest
  | nest, .chunk text :: rest =>
      ask parent template (nest.add (.content (String.ofList text)) text) rest
  | nest, .tag tag :: rest => do
      let tokens ← nest.inherited parent tag
      match nest.addTag tokens tag with
      | .ok next => ask parent template next rest
      | .error flaw => throw (.malformed flaw template)

variable {parent : String → Action Tokens} {template : Option String}

theorem ask_append (nest : Nest) (left right : List Stretch) :
    nest.ask parent template (left ++ right) =
      nest.ask parent template left >>= fun next => next.ask parent template right := by
  induction left generalizing nest with
  | nil => simp [ask]
  | cons piece rest ih =>
      cases piece with
      | chunk text => exact ih _
      | tag tag =>
          simp only [List.cons_append, ask, bind_assoc]
          refine congrArg _ (funext fun tokens => ?_)
          cases nest.addTag tokens tag with
          | ok next => exact ih next
          | error flaw => rfl

theorem ask_ofChunk (nest : Nest) (chunk : List Char) (rest : List Stretch) :
    nest.ask parent template (Stretch.ofChunk chunk ++ rest) =
      (nest.addChunk chunk).ask parent template rest := by
  cases chunk <;> rfl

/-- The tokens of a nest into which a whole scan has gone. -/
def finishScan (template : Option String) (scan : Scan) (nest : Nest) : Action Tokens :=
  match scan.flaw? with
  | some flaw => throw (.malformed flaw template)
  | none =>
      match nest.finish with
      | .ok tokens => pure tokens
      | .error flaw => throw (.malformed flaw template)

theorem compileScan_eq_ask (nest : Nest) (scan : Scan) :
    compileScan parent template nest scan =
      nest.ask parent template scan.pieces >>= finishScan template scan := by
  induction scan generalizing nest with
  | finished chunk =>
      have asked := @ask_ofChunk parent template nest chunk []
      rw [List.append_nil] at asked
      rw [Scan.pieces, asked]
      rfl
  | broken chunk flaw =>
      have asked := @ask_ofChunk parent template nest chunk []
      rw [List.append_nil] at asked
      rw [Scan.pieces, asked]
      rfl
  | tagged chunk tag rest ih =>
      have step (tokens : Tokens) :
          (match (nest.addChunk chunk).addTag tokens tag with
          | .ok next => compileScan parent template next rest
          | .error flaw => throw (.malformed flaw template)) =
          (match (nest.addChunk chunk).addTag tokens tag with
          | .ok next => next.ask parent template rest.pieces
          | .error flaw => throw (.malformed flaw template)) >>= finishScan template rest := by
        cases (nest.addChunk chunk).addTag tokens tag with
        | ok next => exact ih next
        | error flaw => rfl
      rw [Scan.pieces, ask_ofChunk, ask, bind_assoc]
      simp only [compileScan, inherited]
      cases (nest.addChunk chunk).parent? tag with
      | some name => exact congrArg (parent name >>= ·) (funext step)
      | none => exact step []

theorem ask_of_feed {tag : Tag} {rest : List Stretch} {nest next : Nest}
    (alone : nest.parent? tag = none) (fed : nest.feed (.tag tag :: rest) = .ok next)
    (later : ∀ reached, nest.addTag [] tag = .ok reached → reached.feed rest = .ok next →
      reached.ask parent template rest = pure next) :
    nest.ask parent template (.tag tag :: rest) = pure next := by
  simp only [feed] at fed
  simp only [ask, inherited, alone, pure_bind]
  cases added : nest.addTag [] tag with
  | ok reached =>
      rw [added] at fed
      exact later reached added fed
  | error flaw => simp [added] at fed

/-- Pieces that yield tokens and do not ask for a parent are fed, whatever the parents are. -/
theorem ask_eq_feed {pieces : List Stretch} {tokens : Tokens} (yields : Yields pieces tokens)
    (plain : ∀ tag ∈ tagsOf pieces, tag.sigil ≠ .parent) {nest next : Nest}
    (fed : nest.feed pieces = .ok next) : nest.ask parent template pieces = pure next := by
  induction yields generalizing nest next with
  | nil =>
      cases fed
      rfl
  | chunk _ ih => exact ih plain fed
  | leaf flat open_ _ ih =>
      refine ask_of_feed (parent?_of_not_closing open_ nest) fed fun reached _ fed => ?_
      exact ih (fun tag member => plain tag (.tail _ member)) fed
  | @block shape opening closing inner rest content tokens opens closes same within _ ihInner
      ihRest =>
      simp only [List.cons_append, tagsOf_tag, tagsOf_append] at plain
      have begins : opening.sigil ≠ .closing := by
        intro closing
        simp [closing, Sigil.shape?] at opens
      rw [List.cons_append] at fed ⊢
      refine ask_of_feed (parent?_of_not_closing begins nest) fed fun reached added fed => ?_
      rw [addTag_opening opens] at added
      cases added
      obtain ⟨filled, fedInner, grown⟩ :=
        feed_yields within { nest with blocks := ⟨shape, opening, [], []⟩ :: nest.blocks }
      rw [feed_append, fedInner] at fed
      rw [ask_append, ihInner (fun tag member => plain tag (by simp [member])) fedInner, pure_bind]
      -- the block that the closing tag closes is the one that was opened
      obtain ⟨_, block, blocks, kind, _⟩ := grown
      have known : shape ≠ .parent := Sigil.shape_ne_parent (plain opening (.head _)) opens
      have alone : filled.parent? closing = none := by
        simp [parent?, closes, blocks, kind, known]
      refine ask_of_feed alone fed fun reached _ fed => ?_
      exact ihRest (fun tag member => plain tag (by simp [member])) fed

/-- Where no block is open, such pieces add their tokens to those outside. -/
theorem ask_outside {pieces : List Stretch} {tokens : Tokens} (yields : Yields pieces tokens)
    (plain : ∀ tag ∈ tagsOf pieces, tag.sigil ≠ .parent) (outside : List Token) :
    ask parent template ⟨[], outside⟩ pieces = pure ⟨[], tokens.reverse ++ outside⟩ := by
  obtain ⟨⟨_, _⟩, fed, rfl, rfl⟩ := feed_yields yields ⟨[], outside⟩
  exact ask_eq_feed yields plain fed

theorem ask_opening {tag : Tag} (opens : tag.sigil = .parent) (nest : Nest)
    (rest : List Stretch) :
    nest.ask parent template (.tag tag :: rest) =
      ask parent template { nest with blocks := ⟨.parent, tag, [], []⟩ :: nest.blocks } rest := by
  have begins : tag.sigil ≠ .closing := by simp [opens]
  have shape : tag.sigil.shape? = some .parent := by simp [opens, Sigil.shape?]
  simp only [ask, inherited, parent?_of_not_closing begins, pure_bind, addTag_opening shape]

theorem ask_closing {block : OpenBlock} {tag : Tag} (inherits : block.shape = .parent)
    (closes : tag.sigil = .closing) (same : tag.body = block.opening.body) (outside : Tokens)
    (rest : List Stretch) :
    ask parent template ⟨[block], outside⟩ (.tag tag :: rest) =
      parent tag.body >>= fun tokens =>
        ask parent template ⟨[], .partialKnown
          (Tokens.substitute (Tokens.overrides block.content.reverse) tokens) :: outside⟩ rest := by
  have asked : parent? ⟨[block], outside⟩ tag = some tag.body := by
    simp [parent?, closes, inherits, same]
  simp only [ask, inherited, asked, addTag_closing closes]
  simp only [close, same, if_true, OpenBlock.close, inherits, add]

/-- An inheriting block outside all others becomes the tokens of its parent, with the placeholders
in it as overrides. -/
theorem ask_inheriting {opening closing : Tag} {inner back : List Stretch} {content : Tokens}
    (opens : opening.sigil = .parent) (closes : closing.sigil = .closing)
    (same : closing.body = opening.body) (yields : Yields inner content)
    (plain : ∀ tag ∈ tagsOf inner, tag.sigil ≠ .parent) (outside : Tokens) :
    ask parent template ⟨[], outside⟩ (.tag opening :: (inner ++ .tag closing :: back)) =
      parent opening.body >>= fun tokens =>
        ask parent template ⟨[], .partialKnown
          (Tokens.substitute (Tokens.overrides content) tokens) :: outside⟩ back := by
  obtain ⟨⟨_, _⟩, fed, rfl, block, rfl, shape, opened, held, _⟩ :=
    feed_yields yields ⟨[⟨.parent, opening, [], []⟩], outside⟩
  have filled : block.content.reverse = content := by simp [held]
  rw [ask_opening opens, ask_append, ask_eq_feed yields plain fed, pure_bind,
    ask_closing shape closes (by rw [same, opened]), filled, same]

end Nest

/-- Whether a text fills in a parent template: it is one inheriting block among tokens that ask for
no parent. -/
structure Fills (text parent : String) (filling : Filling) : Prop where
  whole : (Scan.ofText text.toList).flaw? = none
  block : ∃ front inner back opening closing,
    (Scan.ofText text.toList).pieces =
        front ++ .tag opening :: (inner ++ .tag closing :: back) ∧
      opening.sigil = .parent ∧ opening.body = parent ∧
      closing.sigil = .closing ∧ closing.body = parent ∧
      Yields front filling.before ∧ Yields inner filling.content ∧ Yields back filling.after ∧
      ∀ tag ∈ tagsOf (front ++ inner ++ back), tag.sigil ≠ .parent

theorem Fills.ne_empty {text parent : String} {filling : Filling}
    (fills : Fills text parent filling) : text ≠ "" := by
  rintro rfl
  obtain ⟨_, front, inner, back, opening, closing, pieces, _⟩ := fills
  have nothing : (Scan.ofText "".toList).tags = [] := by decide +kernel
  have tags := congrArg tagsOf pieces
  rw [Scan.tagsOf_pieces, nothing, tagsOf_append] at tags
  simp at tags

/-- Compiling a text that fills in a parent template asks for the tokens of the parent. -/
theorem compileText_fills {text name : String} {filling : Filling} (fills : Fills text name filling)
    (parent : String → Action Tokens) (template : Option String) :
    compileText parent template text = do
      let tokens ← parent name
      Action.report (.compiled template (filling.fill tokens).length)
      return filling.fill tokens := by
  obtain ⟨whole, front, inner, back, opening, closing, pieces, opens, rfl, closes, same, before,
    content, after, plain⟩ := fills
  simp only [tagsOf_append, List.mem_append] at plain
  have finished (tokens : Tokens) :
      Nest.finishScan template (Scan.ofText text.toList)
        ⟨[], filling.after.reverse ++ .partialKnown (Tokens.substitute filling.overrides tokens) ::
          (filling.before.reverse ++ [])⟩ = pure (filling.fill tokens) := by
    simp [Nest.finishScan, whole, Nest.finish, Filling.fill, Tokens.embed]
  rw [compileText, Nest.compileScan_eq_ask, pieces, Nest.ask_append, Nest.empty,
    Nest.ask_outside before fun tag member => plain tag (.inl (.inl member)), pure_bind,
    Nest.ask_inheriting opens closes same content
      (fun tag member => plain tag (.inl (.inr member))), bind_assoc, bind_assoc]
  refine congrArg (parent opening.body >>= ·) (funext fun tokens => ?_)
  rw [Nest.ask_outside after fun tag member => plain tag (.inr member), pure_bind,
    ← Filling.overrides, finished, pure_bind]

/-- The parent that a text fills in is one that compiling it asks for: otherwise it would not matter
what that parent is. -/
theorem Fills.mem_parents {text name : String} {filling : Filling}
    (fills : Fills text name filling) :
    name ∈ (Scan.ofText text.toList).parents [] := by
  by_contra absent
  let failing (other : String) : Action Tokens := if other = name then throw .endless else pure []
  have same : compileText failing none text = compileText (fun _ => pure []) none text := by
    refine compileText_related congruence_eq.toSequential none fun other asked => ?_
    have different : other ≠ name := fun here => absent (here ▸ asked)
    simp only [failing, if_neg different]
  rw [compileText_fills fills, compileText_fills fills] at same
  have ended := congrArg (fun action => outcome (action .fresh)) same
  simp only [failing, if_true] at ended
  cases ended

section

variable {library : Library} (bounded : library.Bounded)

include bounded

/-- From a coherent cache, and with any bound that suffices, a template has its meaning. -/
theorem outcome_tokenizeWithin {fuel : Nat} {template : String}
    (ends : EndsWithin library.source fuel template) {store : Store}
    (coherent : store.cache.Coherent library) :
    outcome (tokenizeWithin library.source fuel true template store) =
      library.meaning template := by
  obtain ⟨expected, steady⟩ := tokenizeWithin_steady bounded ends true
  rw [Library.meaning, tokenize, tokenizeWithin_eq (bounded template) ends,
    (steady store.memory store ⟨coherent, rfl⟩).1,
    (steady .start .fresh ⟨Cache.coherent_empty library, rfl⟩).1]

/-- A template that fills in a parent means the parent filled in. -/
theorem meaning_fills {template text parent : String} {filling : Filling}
    (spells : Spells library.source template text) (fills : Fills text parent filling) :
    library.meaning template = (library.meaning parent).map filling.fill := by
  have inherits : Inherits library.source template parent := ⟨text, spells, fills.mem_parents⟩
  have ends := bounded template
  rw [Library.meaning, tokenize]
  cases limit : library.chainLimit + template.length with
  | zero =>
      rw [limit] at ends
      exact ends.elim
  | succ fuel =>
      rw [limit] at ends
      have compiled (named : Option String) (store : Store)
          (coherent : store.cache.Coherent library) :
          outcome (compileText (tokenizeWithin library.source fuel true) named text store) =
            (library.meaning parent).map filling.fill := by
        rw [compileText_fills fills,
          ← outcome_tokenizeWithin bounded (ends parent inherits) coherent]
        cases run : tokenizeWithin library.source fuel true parent store with
        | ok tokens after =>
            rw [bind_of_ok run]
            rfl
        | error fault after =>
            rw [bind_of_error run]
            rfl
      cases plain : isTemplateText template with
      | true =>
          rw [Spells, if_pos plain] at spells
          rw [tokenizeWithin_text plain, ← spells]
          exact compiled none .fresh (Cache.coherent_empty library)
      | false =>
          rw [Spells, if_neg (by simp [plain])] at spells
          have needed : (library.source template).needed template = .ok (.text text) := by
            simp [Retrieval.needed, spells, Answer.isEmpty, fills.ne_empty]
          rw [tokenizeWithin_miss plain rfl, outcome_remembered, search, fetch]
          simp only [needed]
          exact compiled (some template) _ (Cache.coherent_empty library)

end

/-- A line of templates from a root, each filling in the one before it. -/
inductive Descends (source : Source) (root : String) : List Filling → String → Prop where
  | root : Descends source root [] root
  | child {fillings : List Filling} {template text parent : String} {filling : Filling}
      (line : Descends source root fillings parent) (spells : Spells source template text)
      (fills : Fills text parent filling) : Descends source root (fillings ++ [filling]) template

theorem meaning_descends {library : Library} (bounded : library.Bounded) {root template : String}
    {fillings : List Filling} (line : Descends library.source root fillings template) :
    library.meaning template = (library.meaning root).map (Filling.descended fillings) := by
  induction line with
  | root => cases library.meaning root <;> rfl
  | @child fillings template text parent filling _ spells fills ih =>
      rw [meaning_fills bounded spells fills, ih]
      cases library.meaning root with
      | error fault => rfl
      | ok tokens => simp only [Except.map, Filling.descended_concat]

/-- Overriding twice is overriding once, so that a line of templates of any length amounts to one
replacement in its root, where the block furthest from the root wins, and overriding with the same
blocks again changes nothing. -/
theorem overriding_composes :
    (∀ (first second both : Overrides) (tokens : Tokens), first.Composes second both →
      Tokens.substitute second (Tokens.substitute first tokens) =
        Tokens.substitute both tokens) ∧
    (∀ (library : Library) (root template : String) (fillings : List Filling), library.Bounded →
      Descends library.source root fillings template →
      library.meaning template = (library.meaning root).map fun tokens =>
        Filling.enclosed fillings (Tokens.substitute (Filling.joint fillings) tokens)) ∧
    (∀ (earlier later : List Filling) (filling : Filling) (name : String) (content : Tokens),
      filling.overrides.get? name = some content →
      (∀ other ∈ later, other.overrides.get? name = none) →
      (Filling.joint (earlier ++ filling :: later)).get? name =
        some (Tokens.substitute (Filling.joint later) content)) ∧
    (∀ (fillings : List Filling) (name : String), (Filling.joint fillings).get? name = none ↔
      ∀ filling ∈ fillings, filling.overrides.get? name = none) ∧
    ∀ (overrides : Overrides) (tokens : Tokens),
      Tokens.substitute overrides (Tokens.substitute overrides tokens) =
        Tokens.substitute overrides tokens := by
  refine ⟨?_, ?_, ?_, ?_, ?_⟩
  · exact fun first second both tokens composes => Tokens.substitute_substitute composes tokens
  · intro library root template fillings bounded line
    rw [meaning_descends bounded line]
    exact congrArg (Except.map · _) (funext fun tokens => Filling.descended_eq fillings tokens)
  · intro earlier later filling name content found last
    refine Overrides.joint_get?_of_last (List.map_append ..) found fun other member => ?_
    obtain ⟨further, among, rfl⟩ := List.mem_map.mp member
    exact last further among
  · intro fillings name
    simp [Filling.joint, Overrides.joint_get?_eq_none]
  · exact fun overrides tokens => Tokens.substitute_substitute overrides.composes_self tokens

def layeredTemplates : Table String :=
  ⟨[("base", "[\x7b\x7b$x\x7d\x7d\x7b\x7b/x\x7d\x7d]"),
    ("page", "\x7b\x7b<base\x7d\x7d\x7b\x7b$x\x7d\x7da\x7b\x7b$y\x7d\x7d\x7b\x7b/y\x7d\x7d" ++
      "\x7b\x7b/x\x7d\x7d\x7b\x7b/base\x7d\x7d"),
    ("cover", "\x7b\x7b<page\x7d\x7d\x7b\x7b$y\x7d\x7db\x7b\x7b/y\x7d\x7d\x7b\x7b/page\x7d\x7d")]⟩

def layeredChain : Chain := .only (.mapping layeredTemplates) none 0

theorem acyclic_layeredChain : Acyclic (layeredChain.ask .empty) :=
  acyclic_mapping none 0
    (fun name => if name = "cover" then 2 else if name = "page" then 1 else 0)
    (by decide +kernel)

/-- The page fills in the base, and the cover the page. -/
theorem descends_cover : Descends (layeredChain.ask .empty) "base"
    [⟨[], [.placeholder "x" [.content "a", .placeholder "y" []]], []⟩,
      ⟨[], [.placeholder "y" [.content "b"]], []⟩] "cover" := by
  have spells {name text : String} (named : isTemplateText name = false)
      (stored : layeredTemplates.get? name = some text) :
      Spells (layeredChain.ask .empty) name text := by
    rw [Spells, if_neg (by simp [named]), layeredChain, Chain.answer_mapping, Resolver.askMapping,
      stored]
  have fills {text parent : String} {opening closing : Tag} {inner : List Stretch}
      {content : Tokens} (whole : (Scan.ofText text.toList).flaw? = none)
      (pieces : (Scan.ofText text.toList).pieces = .tag opening :: (inner ++ [.tag closing]))
      (sigils : opening.sigil = .parent ∧ closing.sigil = .closing)
      (bodies : opening.body = parent ∧ closing.body = parent)
      (fed : Nest.empty.feed inner = .ok ⟨[], content.reverse⟩)
      (plain : ∀ tag ∈ tagsOf inner, tag.sigil ≠ .parent) :
      Fills text parent ⟨[], content, []⟩ := by
    have yields := (Nest.traced_empty.feed fed).yields rfl
    rw [List.reverse_reverse] at yields
    exact ⟨whole, [], inner, [], opening, closing, pieces, sigils.1, bodies.1, sigils.2, bodies.2,
      .nil, yields, .nil, by simpa using plain⟩
  let tag (sigil : Sigil) (body written : String) (column : Nat) : Stretch :=
    .tag ⟨sigil, body, [], written.toList, [], ⟨1, column⟩⟩
  let inPage : List Stretch :=
    [tag .placeholder "x" "\x7b\x7b$x\x7d\x7d" 10, .chunk ['a'],
      tag .placeholder "y" "\x7b\x7b$y\x7d\x7d" 17, tag .closing "y" "\x7b\x7b/y\x7d\x7d" 23,
      tag .closing "x" "\x7b\x7b/x\x7d\x7d" 29]
  let inCover : List Stretch :=
    [tag .placeholder "y" "\x7b\x7b$y\x7d\x7d" 10, .chunk ['b'],
      tag .closing "y" "\x7b\x7b/y\x7d\x7d" 17]
  have page : (Scan.ofText (layeredTemplates.entries[1].2).toList).pieces =
      tag .parent "base" "\x7b\x7b<base\x7d\x7d" 1 ::
        (inPage ++ [tag .closing "base" "\x7b\x7b/base\x7d\x7d" 35]) := by
    decide +kernel
  have cover : (Scan.ofText (layeredTemplates.entries[2].2).toList).pieces =
      tag .parent "page" "\x7b\x7b<page\x7d\x7d" 1 ::
        (inCover ++ [tag .closing "page" "\x7b\x7b/page\x7d\x7d" 23]) := by
    decide +kernel
  have toBase : Fills layeredTemplates.entries[1].2 "base"
      ⟨[], [.placeholder "x" [.content "a", .placeholder "y" []]], []⟩ :=
    fills (by decide +kernel) page ⟨rfl, rfl⟩ ⟨rfl, rfl⟩ rfl (by decide +kernel)
  have toPage : Fills layeredTemplates.entries[2].2 "page"
      ⟨[], [.placeholder "y" [.content "b"]], []⟩ :=
    fills (by decide +kernel) cover ⟨rfl, rfl⟩ ⟨rfl, rfl⟩ rfl (by decide +kernel)
  have line := Descends.child .root
    (spells (by decide +kernel : isTemplateText "page" = false) rfl) toBase
  exact line.child (spells (by decide +kernel : isTemplateText "cover" = false) rfl) toPage

/-- The cover replaces in what the page puts into the base. -/
theorem overriding_composes_cover : ∃ limit,
    Library.Bounded ⟨layeredChain.ask .empty, limit⟩ ∧
    Library.meaning ⟨layeredChain.ask .empty, limit⟩ "cover" =
      (Library.meaning ⟨layeredChain.ask .empty, limit⟩ "base").map fun tokens =>
        [.partialKnown [.partialKnown (Tokens.substitute
          ⟨[("y", [.content "b"]),
            ("x", [.content "a", .placeholder "y" [.content "b"]])]⟩ tokens)]] := by
  obtain ⟨limit, bounded⟩ := Chain.exists_limit FileTree.finite_empty acyclic_layeredChain
  exact ⟨limit, bounded, overriding_composes.2.1 ⟨layeredChain.ask .empty, limit⟩ "base" "cover" _
    bounded descends_cover⟩

end Logicless
