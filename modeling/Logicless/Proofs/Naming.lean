import Logicless.Proofs.Ending
import Logicless.Proofs.Keeping

namespace Logicless

/-- The first answer that a link gives to a name, an error being an answer as well. -/
def Resolver.firstAnswer (tree : FileTree) (name : String) (links : List (Rank × Resolver)) :
    Except Fault Answer :=
  ((links.map fun link => (link.2.ask tree name).answer).find? answers).getD (.ok .absent)
where
  answers : Except Fault Answer → Bool
    | .ok .absent => false
    | _ => true

theorem Resolver.answer_askLinks (tree : FileTree) (name : String)
    (links : List (Rank × Resolver)) :
    (Resolver.askLinks tree name links).answer = Resolver.firstAnswer tree name links := by
  induction links with
  | nil => rfl
  | cons link rest ih =>
      obtain ⟨rank, resolver⟩ := link
      simp only [askLinks, Retrieval.orElse, firstAnswer, List.map_cons, List.find?_cons]
      cases asked : (resolver.ask tree name).answer with
      | error fault => exact asked
      | ok answer =>
          cases answer with
          | absent => exact ih
          | text | tokens | value => exact asked

def Chain.firstAnswer (tree : FileTree) (name : String) (chain : Chain) : Except Fault Answer :=
  Resolver.firstAnswer tree name chain.links

theorem Chain.answer_ask (tree : FileTree) (name : String) (chain : Chain) :
    (chain.ask tree name).answer = chain.firstAnswer tree name :=
  Resolver.answer_askLinks tree name chain.links

/-- Nobody answers a name exactly if every link leaves it unanswered. -/
theorem Chain.firstAnswer_eq_absent_iff (tree : FileTree) (name : String) (chain : Chain) :
    chain.firstAnswer tree name = .ok .absent ↔
      ∀ link ∈ chain.links, (link.2.ask tree name).answer = .ok .absent := by
  unfold Chain.firstAnswer
  induction chain.links with
  | nil => simp [Resolver.firstAnswer]
  | cons link rest ih =>
      simp only [Resolver.firstAnswer, List.map_cons, List.find?_cons, List.forall_mem_cons] at ih ⊢
      cases asked : (link.2.ask tree name).answer with
      | error fault => simp [Resolver.firstAnswer.answers]
      | ok answer =>
          cases answer with
          | absent => simpa [Resolver.firstAnswer.answers] using ih
          | text | tokens | value => simp [Resolver.firstAnswer.answers]

/-- The faults of resolvers: those of files. -/
def Fault.OfFiles (fault : Fault) : Prop :=
  (∃ flaw, fault = .file flaw) ∨ ∃ flaw, fault = .undecodable flaw

def Source.FailsOnFiles (source : Source) : Prop :=
  ∀ name fault, (source name).answer = .error fault → fault.OfFiles

namespace Source.FailsOnFiles

theorem orElse {first second : Source} (one : first.FailsOnFiles) (other : second.FailsOnFiles) :
    Source.FailsOnFiles fun name => (first name).orElse (second name) := by
  intro name fault failed
  rcases Retrieval.answer_orElse (first name) (second name) with same | same
  · exact one name fault (same ▸ failed)
  · exact other name fault (same ▸ failed)

theorem found (answers : String → Answer) :
    Source.FailsOnFiles fun name => .found (answers name) :=
  fun _ _ => nofun

end Source.FailsOnFiles

theorem Folders.failsOnFiles (tree : FileTree) (folders : Folders) :
    Source.FailsOnFiles fun name => folders.ask tree name := by
  have place (place : Place) :
      Source.FailsOnFiles fun name => askPlace tree name (folders.fileOf name) place := by
    intro name fault failed
    simp only [askPlace] at failed
    split at failed
    · exact .inl ⟨_, (Except.error.inj failed).symm⟩
    · split at failed
      · split at failed
        · exact .inl ⟨_, (Except.error.inj failed).symm⟩
        · simp only [textOf] at failed
          split at failed
          · cases failed
          · exact .inr ⟨_, (Except.error.inj failed).symm⟩
        · cases failed
      · cases failed
  unfold ask
  generalize folders.places = places
  induction places with
  | nil => exact .found fun _ => .absent
  | cons first rest ih =>
      have both := (place first).orElse ih
      simpa only [List.foldr_cons] using both

mutual

theorem Resolver.failsOnFiles (tree : FileTree) :
    (resolver : Resolver) → Source.FailsOnFiles fun name => Resolver.ask tree name resolver
  | .mapping templates => .found fun name => askMapping templates name
  | .folders places => places.failsOnFiles tree
  | .compiled templates => .found fun name => askCompiled templates name
  | .constant value => .found fun _ => .ofValue value
  | .chain links => Resolver.linksFailOnFiles tree links

theorem Resolver.linksFailOnFiles (tree : FileTree) :
    (links : List (Rank × Resolver)) →
      Source.FailsOnFiles fun name => Resolver.askLinks tree name links
  | [] => .found fun _ => .absent
  | (_, resolver) :: rest =>
      (Resolver.failsOnFiles tree resolver).orElse (Resolver.linksFailOnFiles tree rest)

end

theorem Chain.failsOnFiles (tree : FileTree) (chain : Chain) :
    Source.FailsOnFiles (chain.ask tree) :=
  Resolver.linksFailOnFiles tree chain.links

/-- A search fails because of the template that it is for, or because of one that this inherits
from. -/
theorem tokenizeWithin_blames (source : Source) (fuel : Nat) {template : String}
    {store after : Store}
    {fault : Fault} (failed : tokenizeWithin source fuel true template store = .error fault after) :
    fault = .endless ∨
      ∃ blamed, Relation.ReflTransGen (Inherits source) template blamed ∧
        source.Fails blamed fault := by
  induction fuel generalizing template store after fault with
  | zero =>
      cases failed
      exact .inl rfl
  | succ fuel ih =>
      have asking : Asking (fun _ => True) (tokenizeWithin source fuel true)
          (Inherits source template) (source.Fails template)
          (seek source (tokenizeWithin source fuel true) template store) :=
        seek_asking (fun _ _ _ => trivial) (fun _ _ _ _ => trivial) trivial
      have ending := tokenizeWithin_ending source fuel template store
      rw [failed] at ending
      cases ending with
      | failed _ run =>
          rcases asking.blames fault after run with own | ⟨parent, inherits, _, _, _, raised⟩
          · exact .inr ⟨template, .refl, own⟩
          · refine (ih raised).imp_right ?_
            rintro ⟨blamed, reached, fails⟩
            exact ⟨blamed, .head inherits reached, fails⟩

/-- A name is reported as not found only if its answer is empty, whoever inherits from it. -/
theorem empty_of_not_found {source : Source} (files : source.FailsOnFiles) {fuel : Nat}
    {template name : String} {store after : Store}
    (failed : tokenizeWithin source fuel true template store =
      .error (.templateNotFound name) after) :
    ∃ answer, (source name).answer = .ok answer ∧ answer.isEmpty = true := by
  rcases tokenizeWithin_blames source fuel failed with endless | ⟨blamed, _, fails⟩
  · cases endless
  · rcases fails with ⟨flaw, origin, malformed⟩ | missing | unusable
    · cases malformed
    · unfold Retrieval.needed at missing
      split at missing
      · rename_i answer answered
        split at missing
        · rename_i empty
          cases missing
          exact ⟨answer, answered, empty⟩
        · cases missing
      · rename_i fault raised
        cases missing
        rcases files blamed _ raised with ⟨flaw, file⟩ | ⟨flaw, undecodable⟩
        · cases file
        · cases undecodable
    · cases unusable

/-- Whether two computations end in the same way unless one of them is cut off. -/
def SameEnd (cut : Prop) {α : Type} (left right : Except Fault α) : Prop :=
  left = right ∨ cut ∧ (left = .error .endless ∨ right = .error .endless)

/-- Computations that end in the same way from the same cache and leave the same cache behind,
unless one of them is cut off. -/
def Matches (cut : Prop) : ActionRelation := fun _ left right =>
  ∀ store other : Store, store.cache = other.cache →
    (outcome (left store) = outcome (right other) ∧
      (final (left store)).cache = (final (right other)).cache) ∨
    cut ∧ (outcome (left store) = .error .endless ∨ outcome (right other) = .error .endless)

theorem outcome_bind_of_error {α β : Type} {first : Action α} {next : α → Action β} {store : Store}
    {fault : Fault} (failed : outcome (first store) = .error fault) :
    outcome ((first >>= next) store) = .error fault := by
  obtain ⟨after, run⟩ := error_of_outcome failed
  rw [bind_of_error run]
  rfl

theorem searching_matches (cut : Prop) : Searching (Matches cut) where
  gives _ _ _ same := .inl ⟨rfl, same⟩
  fails _ _ _ _ same := .inl ⟨rfl, same⟩
  andThen := by
    intro α β first other next later agree continued store second same
    rcases agree store second same with ⟨ended, kept⟩ | ⟨cut, endless⟩
    · cases run : first store with
      | error fault after =>
          rw [run] at ended kept
          obtain ⟨otherAfter, otherRun⟩ := error_of_outcome ended.symm
          rw [otherRun] at kept
          rw [bind_of_error run, bind_of_error otherRun]
          exact .inl ⟨rfl, kept⟩
      | ok result after =>
          rw [run] at ended kept
          obtain ⟨otherAfter, otherRun⟩ := ok_of_outcome ended.symm
          rw [otherRun] at kept
          rw [bind_of_ok run, bind_of_ok otherRun]
          exact continued result after otherAfter kept
    · exact .inr ⟨cut, endless.imp outcome_bind_of_error outcome_bind_of_error⟩
  reports _ _ _ same := .inl ⟨rfl, same⟩
  recalls name store other same := .inl ⟨by
    change Except.ok (store.cache.get? name) = .ok (other.cache.get? name)
    rw [same], same⟩
  remembers key tokens store other same := .inl ⟨rfl, by
    change store.cache.insert key tokens = other.cache.insert key tokens
    rw [same]⟩

theorem tokenizeWithin_matches {cut : Prop} {source : Source} {fuel more : Nat} {template : String}
    (allowed : ¬ cut → EndsWithin source fuel template ∧ EndsWithin source more template)
    (keep : Bool) :
    Matches cut Tokens (tokenizeWithin source fuel keep template)
      (tokenizeWithin source more keep template) := by
  induction fuel generalizing more template keep with
  | zero =>
      intro store other _
      exact .inr ⟨Classical.not_not.mp fun uncut => (allowed uncut).1, .inl rfl⟩
  | succ fuel ih =>
      cases more with
      | zero =>
          intro store other _
          exact .inr ⟨Classical.not_not.mp fun uncut => (allowed uncut).2, .inr rfl⟩
      | succ more =>
          refine tokenizeWithin_related (fun fault _ _ _ same => .inl ⟨rfl, same⟩)
            (searching_matches cut) (fun parent inherits => ?_) keep
          refine ih (fun uncut => ?_) true
          exact ⟨(allowed uncut).1 parent inherits, (allowed uncut).2 parent inherits⟩

/-- How the search for a name ends, given the first answer to it and what its text compiles to. -/
inductive Answer.Settles (cut : Prop) (name : String) (compiled : String → Except Fault Tokens) :
    Except Fault Answer → Except Fault Tokens → Prop where
  | broken (fault : Fault) : Settles cut name compiled (.error fault) (.error fault)
  | empty (answer : Answer) (empty : answer.isEmpty = true) :
      Settles cut name compiled (.ok answer) (.error (.templateNotFound name))
  | text (text : String) (result : Except Fault Tokens) (solid : text.isEmpty = false)
      (same : SameEnd cut result (compiled text)) :
      Settles cut name compiled (.ok (.text text)) result
  | tokens (tokens : Tokens) (solid : tokens.isEmpty = false) :
      Settles cut name compiled (.ok (.tokens tokens)) (.ok tokens)
  | unusable (value : Value) (solid : value.truthy = true) :
      Settles cut name compiled (.ok (.value value)) (.error (.templateUnusable name))

theorem Answer.Settles.of_empty {cut : Prop} {name : String}
    {compiled : String → Except Fault Tokens} {answer : Answer} {result : Except Fault Tokens}
    (settles : Answer.Settles cut name compiled (.ok answer) result)
    (empty : answer.isEmpty = true) : result = .error (.templateNotFound name) := by
  cases settles with
  | empty => rfl
  | text text _ solid => simp [isEmpty, solid] at empty
  | tokens tokens solid => simp [isEmpty, solid] at empty
  | unusable value solid => simp [isEmpty, solid] at empty

theorem search_settles {library : Library} {name : String} (named : isTemplateText name = false)
    {fuel : Nat} (bound : library.chainLimit + name.length = fuel + 1) (store : Store) :
    Answer.Settles (¬ library.Bounded) name
      (fun text => outcome (compile library (some name) text store)) (library.source name).answer
      (outcome (search library.source (tokenizeWithin library.source fuel true) name store)) := by
  rw [search_begun]
  cases answered : (library.source name).answer with
  | error fault =>
      simp only [Retrieval.needed, answered]
      exact .broken fault
  | ok answer =>
      cases empty : answer.isEmpty with
      | true =>
          simp only [Retrieval.needed, answered, empty, if_true]
          exact .empty answer empty
      | false =>
          simp only [Retrieval.needed, answered, empty, Bool.false_eq_true, if_false]
          cases answer with
          | absent => simp [Answer.isEmpty] at empty
          | tokens tokens => exact .tokens tokens empty
          | value value => exact .unusable value (by simpa [Answer.isEmpty] using empty)
          | text text =>
              have compiles : Matches (¬ library.Bounded) Tokens
                  (compileText (tokenizeWithin library.source fuel true) (some name) text)
                  (compile library (some name) text) := by
                refine compileText_related (searching_matches _).toSequential (some name) ?_
                intro parent asked
                refine tokenizeWithin_matches (fun bounded => ?_) true
                have bounded := Classical.not_not.mp bounded
                have ends : EndsWithin library.source (fuel + 1) name := bound ▸ bounded name
                have spells : Spells library.source name text := by
                  rw [Spells, if_neg (by simp [named]), answered]
                exact ⟨ends parent ⟨text, spells, asked⟩, bounded parent⟩
              refine .text text _ (by simpa [Answer.isEmpty] using empty) ?_
              exact (compiles (store.asking library.source name) store rfl).imp_left And.left

/-- How the search for a name that is not kept yet ends; that the name is not found exactly if
nobody answers it or the first answer is empty; and that it is kept exactly if its tokens are
found. -/
theorem tokenize_named (tree : FileTree) (chain : Chain) {limit : Nat} (positive : 0 < limit)
    {name : String} (named : isTemplateText name = false) {store : Store}
    (absent : store.cache.get? name = none) :
    let library : Library := ⟨chain.ask tree, limit⟩
    let run := tokenize library true name store
    Answer.Settles (¬ library.Bounded) name
        (fun text => outcome (compile library (some name) text store))
        (chain.firstAnswer tree name) (outcome run) ∧
      (outcome run = .error (.templateNotFound name) ↔
        (∀ link ∈ chain.links, (link.2.ask tree name).answer = .ok .absent) ∨
          ∃ answer, chain.firstAnswer tree name = .ok answer ∧ answer ≠ .absent ∧
            answer.isEmpty = true) ∧
      (final run).cache.get? name = (outcome run).toOption := by
  intro library run
  obtain ⟨fuel, bound⟩ : ∃ fuel, limit + name.length = fuel + 1 :=
    ⟨limit + name.length - 1, by omega⟩
  have whole : run = tokenizeWithin library.source (fuel + 1) true name store := by
    rw [← bound]
    rfl
  have searched : outcome run =
      outcome (search library.source (tokenizeWithin library.source fuel true) name store) := by
    rw [whole, tokenizeWithin_miss named absent, outcome_remembered]
  have settles := searched ▸ search_settles named bound store
  rw [Chain.answer_ask] at settles
  refine ⟨settles, ⟨fun missing => ?_, fun missing => ?_⟩, ?_⟩
  · cases ended : run with
    | ok tokens after => simp [ended] at missing
    | error fault after =>
        rw [ended] at missing
        cases missing
        obtain ⟨answer, answered, empty⟩ :=
          empty_of_not_found (chain.failsOnFiles tree) (whole.symm.trans ended)
        rw [Chain.answer_ask] at answered
        by_cases unknown : answer = .absent
        · exact .inl ((chain.firstAnswer_eq_absent_iff tree name).mp (unknown ▸ answered))
        · exact .inr ⟨answer, answered, unknown, empty⟩
  · rcases missing with unknown | ⟨answer, answered, _, empty⟩
    · rw [(chain.firstAnswer_eq_absent_iff tree name).mpr unknown] at settles
      exact settles.of_empty rfl
    · rw [answered] at settles
      exact settles.of_empty empty
  · rw [whole]
    exact tokenizeWithin_kept (fuel + 1) named absent

/-- The page is found, as a text that is compiled. -/
theorem tokenize_named_page :
    0 < 1000 ∧ isTemplateText "page" = false ∧ Store.fresh.cache.get? "page" = none ∧
      outcome (tokenize ⟨pageChain.ask .empty, 1000⟩ true "page" .fresh) ≠
        .error (.templateNotFound "page") := by
  refine ⟨by decide, by decide +kernel, rfl, fun missing => ?_⟩
  have settled := tokenize_named .empty pageChain (by decide : 0 < 1000)
    (by decide +kernel : isTemplateText "page" = false) (rfl : Store.fresh.cache.get? "page" = none)
  rcases settled.2.1.mp missing with unknown | ⟨answer, answered, _, empty⟩
  · have asked := unknown _ (.head _)
    cases asked
  · cases answered
    revert empty
    decide +kernel

/-- A template that is there, but has nothing in it. -/
def blankChain : Chain := .only (.mapping ⟨[("blank", "")]⟩) none 0

/-- An empty text is answered and compiles to no tokens, but its name is not found. -/
theorem blankChain_not_found :
    let library : Library := ⟨blankChain.ask .empty, 1000⟩
    blankChain.firstAnswer .empty "blank" = .ok (.text "") ∧
      outcome (compile library (some "blank") "" .fresh) = .ok [] ∧
      outcome (tokenize library true "blank" .fresh) = .error (.templateNotFound "blank") := by
  have scanned : Scan.ofText "".toList = .finished [] := by
    rw [Scan.ofText, Scan.ofTextFrom]
    rfl
  refine ⟨rfl, ?_, ?_⟩
  · rw [compile, compileText, scanned]
    rfl
  · rfl

end Logicless
