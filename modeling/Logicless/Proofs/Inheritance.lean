import Logicless.Proofs.Congruence
import Logicless.Proofs.Run

namespace Logicless

/-- What of an open block decides which tag may close it. -/
abbrev Frame := BlockShape × String

def OpenBlock.frame (block : OpenBlock) : Frame := (block.shape, block.opening.body)

def Nest.frames (nest : Nest) : List Frame := nest.blocks.map OpenBlock.frame

namespace Scan

/-- The parents that are asked for where blocks are open, up to the first misplaced tag. -/
def parents : List Frame → Scan → List String
  | _, finished _ | _, broken .. => []
  | frames, tagged _ tag rest =>
      match tag.sigil.shape? with
      | some shape => rest.parents ((shape, tag.body) :: frames)
      | none =>
          if tag.sigil = .closing then
            match frames with
            | [] => []
            | (shape, name) :: outer =>
                if name = tag.body then
                  if shape = .parent then name :: rest.parents outer else rest.parents outer
                else []
          else rest.parents frames

theorem exists_tag_of_mem_parents {name : String} {frames : List Frame} {scan : Scan}
    (asked : name ∈ scan.parents frames) : ∃ tag ∈ scan.tags, tag.body = name := by
  induction scan generalizing frames with
  | finished chunk => simp [parents] at asked
  | broken chunk flaw => simp [parents] at asked
  | tagged chunk tag rest ih =>
      have later {other : List Frame} (further : name ∈ rest.parents other) :
          ∃ tag' ∈ (tagged chunk tag rest).tags, tag'.body = name := by
        obtain ⟨found, member, same⟩ := ih further
        exact ⟨found, by simp [tags, member], same⟩
      simp only [parents] at asked
      split at asked
      · exact later asked
      · split at asked
        · split at asked
          · simp at asked
          · rename_i shape opened outer
            split at asked
            · rename_i same
              split at asked
              · rcases List.mem_cons.mp asked with here | further
                · exact ⟨tag, by simp [tags], by rw [here, same]⟩
                · exact later further
              · exact later asked
            · simp at asked
        · exact later asked

end Scan

namespace Nest

@[simp] theorem frames_add (nest : Nest) (token : Token) (text : List Char) :
    (nest.add token text).frames = nest.frames := by
  unfold add
  cases blocks : nest.blocks with
  | nil => simp [frames, blocks]
  | cons block outer => simp [frames, blocks, OpenBlock.frame]

@[simp] theorem frames_addChunk (nest : Nest) (chunk : List Char) :
    (nest.addChunk chunk).frames = nest.frames := by
  unfold addChunk
  split
  · rfl
  · exact frames_add nest _ _

theorem parent?_of_not_closing {tag : Tag} (other : tag.sigil ≠ .closing) (nest : Nest) :
    nest.parent? tag = none := by
  unfold parent?
  split
  · rename_i closing _
    exact absurd closing other
  · rfl

/-- What a tag asks for, and what is open afterwards, depends on the frames alone. -/
theorem parents_addTag {nest next : Nest} {tokens : Tokens} {tag : Tag} (chunk : List Char)
    (rest : Scan) (added : nest.addTag tokens tag = .ok next) :
    (Scan.tagged chunk tag rest).parents nest.frames =
      (nest.parent? tag).toList ++ rest.parents next.frames := by
  unfold addTag at added
  cases opens : tag.sigil.shape? with
  | some shape =>
      simp only [opens, Except.ok.injEq] at added
      subst added
      have other : tag.sigil ≠ .closing := by
        intro closing
        simp [closing, Sigil.shape?] at opens
      simp [Scan.parents, opens, parent?_of_not_closing other, frames, OpenBlock.frame]
  | none =>
      simp only [opens] at added
      split at added
      · rename_i closing
        unfold close at added
        cases blocks : nest.blocks with
        | nil => simp [blocks] at added
        | cons block outer =>
            simp only [blocks] at added
            split at added
            · rename_i same
              cases added
              have here : nest.frames = block.frame :: outer.map OpenBlock.frame := by
                simp [frames, blocks]
              have asked : nest.parent? tag =
                  if block.shape = .parent then some tag.body else none := by
                simp [parent?, closing, blocks, same]
              simp only [Scan.parents, closing, Sigil.shape?, here, OpenBlock.frame, same, if_true,
                frames_add, asked]
              split <;> rfl
            · contradiction
      · rename_i other
        cases added
        simp [Scan.parents, opens, other, parent?_of_not_closing other]

theorem mem_parents {nest next : Nest} {tokens : Tokens} {tag : Tag} (chunk : List Char)
    (rest : Scan) (added : nest.addTag tokens tag = .ok next) :
    (∀ name, nest.parent? tag = some name →
        name ∈ (Scan.tagged chunk tag rest).parents nest.frames) ∧
      ∀ name ∈ rest.parents next.frames,
        name ∈ (Scan.tagged chunk tag rest).parents nest.frames := by
  rw [parents_addTag chunk rest added]
  refine ⟨fun name asked => ?_, fun name later => List.mem_append_right _ later⟩
  exact List.mem_append_left _ (by simp [asked])

/-- A tag that asks for a parent closes a block, so it is not misplaced. -/
theorem mem_parents_of_asked {nest : Nest} {tag : Tag} {name : String} {chunk : List Char}
    {rest : Scan} (asked : nest.parent? tag = some name) :
    name ∈ (Scan.tagged chunk tag rest).parents nest.frames := by
  cases added : nest.addTag [] tag with
  | ok next => exact (mem_parents chunk rest added).1 name asked
  | error flaw =>
      unfold parent? at asked
      split at asked
      · rename_i block outer closing blocks
        split at asked
        · rename_i inherits
          simp only [Bool.and_eq_true, decide_eq_true_eq] at inherits
          simp [addTag, closing, Sigil.shape?, close, blocks, inherits.2] at added
        · contradiction
      · contradiction

end Nest

section

variable {R : ActionRelation} (sequential : Sequential R) {parent other : String → Action Tokens}

include sequential

theorem compileScan_related (template : Option String) {nest : Nest} {scan : Scan}
    (parents : ∀ name ∈ scan.parents nest.frames, R Tokens (parent name) (other name)) :
    R Tokens (compileScan parent template nest scan) (compileScan other template nest scan) := by
  induction scan generalizing nest with
  | finished chunk =>
      simp only [compileScan]
      split
      · exact sequential.gives _
      · exact sequential.fails _ (by simp)
  | broken chunk flaw => exact sequential.fails _ (by simp)
  | tagged chunk tag rest ih =>
      simp only [compileScan]
      rw [← Nest.frames_addChunk nest chunk] at parents
      generalize nest.addChunk chunk = reached at parents ⊢
      have later {tokens : Tokens} {next : Nest} (added : reached.addTag tokens tag = .ok next) :
          R Tokens (compileScan parent template next rest) (compileScan other template next rest) :=
        ih fun name asked => parents name ((Nest.mem_parents chunk rest added).2 name asked)
      cases asked : reached.parent? tag with
      | none =>
          refine sequential.andThen (sequential.gives []) fun tokens => ?_
          cases added : reached.addTag tokens tag with
          | error flaw => exact sequential.fails _ (by simp)
          | ok next => exact later added
      | some name =>
          have inherited := parents name (Nest.mem_parents_of_asked asked)
          refine sequential.andThen inherited fun tokens => ?_
          cases added : reached.addTag tokens tag with
          | error flaw => exact sequential.fails _ (by simp)
          | ok next => exact later added

theorem compileText_related (template : Option String) {text : String}
    (parents : ∀ name ∈ (Scan.ofText text.toList).parents [], R Tokens (parent name) (other name)) :
    R Tokens (compileText parent template text) (compileText other template text) := by
  refine sequential.andThen (compileScan_related sequential template parents) fun tokens => ?_
  exact sequential.andThen (sequential.report _) fun _ => sequential.gives _

end

theorem Retrieval.answer_of_needed {retrieval : Retrieval} {name : String} {answer : Answer}
    (found : retrieval.needed name = .ok answer) : retrieval.answer = .ok answer := by
  unfold needed at found
  split at found
  · rename_i given answered
    split at found
    · contradiction
    · cases found
      exact answered
  · contradiction

theorem Retrieval.error_of_needed {retrieval : Retrieval} {name : String} {fault : Fault}
    (failed : retrieval.needed name = .error fault) :
    retrieval.answer = .error fault ∨ fault = .templateNotFound name := by
  unfold needed at failed
  split at failed
  · split at failed
    · cases failed
      exact .inr rfl
    · contradiction
  · rename_i raised answered
    cases failed
    exact .inl answered

theorem fetch_related {R : ActionRelation} (sequential : Sequential R)
    {parent other : String → Action Tokens} {source : Source} {template : String}
    (breaks : ∀ fault, (source template).answer = .error fault →
      R Tokens (throw fault) (throw fault))
    (parents : ∀ text, (source template).answer = .ok (.text text) →
      ∀ name ∈ (Scan.ofText text.toList).parents [], R Tokens (parent name) (other name)) :
    R Tokens (fetch source parent template) (fetch source other template) := by
  refine sequential.andThen (sequential.reports _) fun _ => ?_
  cases needed : (source template).needed template with
  | error fault =>
      rcases Retrieval.error_of_needed needed with raised | absent
      · exact breaks fault raised
      · exact sequential.fails fault (by simp [absent])
  | ok answer =>
      have answered := Retrieval.answer_of_needed needed
      cases answer with
      | text text => exact compileText_related sequential (some template) (parents text answered)
      | tokens tokens => exact sequential.gives tokens
      | absent | value => exact sequential.fails _ (by simp)

/-- The text that a template stands for, if it is known as text. -/
def Spells (source : Source) (template text : String) : Prop :=
  if isTemplateText template then text = template
  else (source template).answer = .ok (.text text)

def Inherits (source : Source) (template parent : String) : Prop :=
  ∃ text, Spells source template text ∧ parent ∈ (Scan.ofText text.toList).parents []

/-- Whether every line of templates from this one on, each inheriting from the next, has at most so
many members. -/
def EndsWithin (source : Source) : Nat → String → Prop
  | 0, _ => False
  | count + 1, template =>
      ∀ parent, Inherits source template parent → EndsWithin source count parent

theorem EndsWithin.mono {source : Source} {count more : Nat} {template : String}
    (ends : EndsWithin source count template) (atMost : count ≤ more) :
    EndsWithin source more template := by
  induction count generalizing more template with
  | zero => exact ends.elim
  | succ count ih =>
      cases more with
      | zero => contradiction
      | succ more =>
          exact fun parent inherits => ih (ends parent inherits) (Nat.le_of_succ_le_succ atMost)

structure Searching (R : ActionRelation) : Prop extends Sequential R where
  recalls (name : String) : R (Option Tokens) (Action.cached? name) (Action.cached? name)
  remembers (key : Value) (tokens : Tokens) :
    R Unit (Action.remember key tokens) (Action.remember key tokens)

/-- Finding the tokens of a template that the cache does not have. -/
def search (source : Source) (parent : String → Action Tokens) (template : String) :
    Action Tokens := do
  Action.report (.cacheMiss template)
  fetch source parent template

theorem tokenizeWithin_text {template : String} (text : isTemplateText template = true)
    (source : Source) (fuel : Nat) (keep : Bool) :
    tokenizeWithin source (fuel + 1) keep template =
      compileText (tokenizeWithin source fuel true) none template := by
  simp only [tokenizeWithin, text, if_true]

theorem tokenizeWithin_passing {template : String} (named : isTemplateText template = false)
    (source : Source) (fuel : Nat) :
    tokenizeWithin source (fuel + 1) false template =
      search source (tokenizeWithin source fuel true) template := by
  simp only [tokenizeWithin, named, search, Bool.false_eq_true, if_false, pure_bind, bind_pure]

theorem tokenizeWithin_keeping {template : String} (named : isTemplateText template = false)
    (source : Source) (fuel : Nat) :
    tokenizeWithin source (fuel + 1) true template = (do
      match ← Action.cached? template with
      | some tokens => do
          Action.report (.cacheHit template)
          return tokens
      | none => do
          let tokens ← search source (tokenizeWithin source fuel true) template
          Action.remember (.text template) tokens
          return tokens) := by
  funext store
  have recalled : Action.cached? template store = .ok (store.cache.get? template) store := rfl
  simp only [tokenizeWithin, named, Bool.false_eq_true, if_false, if_true]
  rw [bind_of_ok recalled, bind_of_ok recalled]
  cases store.cache.get? template <;> rfl

section

variable {R : ActionRelation} {source : Source} {template : String}
  (breaks : ∀ fault, (source template).answer = .error fault → R Tokens (throw fault) (throw fault))

include breaks

/-- One step of the search for tokens: the parents of the template decide. -/
theorem search_related (sequential : Sequential R) {parent other : String → Action Tokens}
    (named : isTemplateText template = false)
    (parents : ∀ name, Inherits source template name → R Tokens (parent name) (other name)) :
    R Tokens (search source parent template) (search source other template) := by
  refine sequential.andThen (sequential.report _) fun _ => ?_
  refine fetch_related sequential breaks fun text answered name asked => ?_
  refine parents name ⟨text, ?_, asked⟩
  rwa [Spells, if_neg (by simp [named])]

/-- Finding the tokens of a template, where the parents and its own entry in the cache decide. -/
theorem tokenizeWithin_related_of (sequential : Sequential R) {fuel more : Nat}
    (parents : ∀ parent, Inherits source template parent →
      R Tokens (tokenizeWithin source fuel true parent) (tokenizeWithin source more true parent))
    (keep : Bool)
    (recalls : keep = true → isTemplateText template = false →
      R (Option Tokens) (Action.cached? template) (Action.cached? template))
    (remembers : ∀ tokens,
      R Unit (Action.remember (.text template) tokens) (Action.remember (.text template) tokens)) :
    R Tokens (tokenizeWithin source (fuel + 1) keep template)
      (tokenizeWithin source (more + 1) keep template) := by
  cases named : isTemplateText template with
  | true =>
      rw [tokenizeWithin_text named, tokenizeWithin_text named]
      refine compileText_related sequential none fun name asked => parents name ?_
      exact ⟨template, by rw [Spells, if_pos named], asked⟩
  | false =>
      have searched := search_related breaks sequential named parents
      cases keep with
      | false =>
          rw [tokenizeWithin_passing named, tokenizeWithin_passing named]
          exact searched
      | true =>
          rw [tokenizeWithin_keeping named, tokenizeWithin_keeping named]
          refine sequential.andThen (recalls rfl named) fun known => ?_
          cases known with
          | some tokens => exact sequential.andThen (sequential.report _) fun _ => sequential.gives _
          | none =>
              refine sequential.andThen searched fun tokens => ?_
              exact sequential.andThen (remembers tokens) fun _ => sequential.gives _

theorem tokenizeWithin_related (searching : Searching R) {fuel more : Nat}
    (parents : ∀ parent, Inherits source template parent →
      R Tokens (tokenizeWithin source fuel true parent) (tokenizeWithin source more true parent))
    (keep : Bool) :
    R Tokens (tokenizeWithin source (fuel + 1) keep template)
      (tokenizeWithin source (more + 1) keep template) :=
  tokenizeWithin_related_of breaks searching.toSequential parents keep
    (fun _ _ => searching.recalls template) (searching.remembers _)

end

/-- Finding the tokens of a template is related to itself if all that it is made of is. -/
theorem tokenizeWithin_self {R : ActionRelation} (searching : Searching R)
    (breaks : ∀ fault, R Tokens (throw fault) (throw fault)) (source : Source) (fuel : Nat)
    (keep : Bool) (template : String) :
    R Tokens (tokenizeWithin source fuel keep template)
      (tokenizeWithin source fuel keep template) := by
  induction fuel generalizing keep template with
  | zero => exact breaks .endless
  | succ fuel ih =>
      exact tokenizeWithin_related (fun fault _ => breaks fault) searching
        (fun parent _ => ih true parent) keep

theorem Setting.related_self {R : ActionRelation} (congruence : Congruence R)
    (searching : Searching R) (breaks : ∀ fault, R Tokens (throw fault) (throw fault))
    (setting : Setting) : setting.Related R setting :=
  .ofSame congruence rfl rfl
    (fun library keep name => tokenizeWithin_self searching breaks library.source _ keep name)
    fun library _ => compileText_related searching.toSequential none
      fun parent _ => tokenizeWithin_self searching breaks library.source _ true parent

theorem searching_eq : Searching fun _ left right => left = right where
  toSequential := congruence_eq.toSequential
  recalls _ := rfl
  remembers _ _ := rfl

/-- A bound that a template stays within is as good as any other. -/
theorem tokenizeWithin_eq {source : Source} {fuel more : Nat} {template : String}
    (ends : EndsWithin source fuel template) (longer : EndsWithin source more template)
    (keep : Bool) :
    tokenizeWithin source fuel keep template = tokenizeWithin source more keep template := by
  induction fuel generalizing more template keep with
  | zero => exact ends.elim
  | succ fuel ih =>
      cases more with
      | zero => exact longer.elim
      | succ more =>
          refine tokenizeWithin_related (fun _ _ => rfl) searching_eq ?_ keep
          exact fun parent inherits => ih (ends parent inherits) (longer parent inherits) true

end Logicless
