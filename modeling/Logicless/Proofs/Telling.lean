import Logicless.CommandLine
import Logicless.Proofs.Configuring
import Logicless.Proofs.Documents
import Logicless.Proofs.Including

namespace Logicless

/-- Whether there is something to read in a text. -/
def Speaks (text : String) : Prop := text.toList.any (fun c => !Text.isBlank c) = true

theorem Speaks.ofList {c : Char} {rest : List Char} (shown : Text.isBlank c = false) :
    Speaks (String.ofList (c :: rest)) := by
  simp [Speaks, shown]

theorem Speaks.append {text : String} (speaks : Speaks text) (more : String) :
    Speaks (text ++ more) := by
  simp only [Speaks, String.toList_append, List.any_append, Bool.or_eq_true] at speaks ⊢
  exact .inl speaks

theorem FlawCause.speaks (cause : FlawCause) : Speaks cause.text := by
  cases cause with
  | emptyTag => exact .ofList rfl
  | unclosedTag opening => exact (Speaks.append (.ofList rfl) opening).append _
  | badDelimiters body => exact (Speaks.append (.ofList rfl) body).append _
  | strayClosing body => exact (Speaks.append (.ofList rfl) body).append _
  | mismatchedClosing body expected =>
      exact (((Speaks.append (.ofList rfl) body).append _).append expected).append _
  | unclosedBlock name => exact (Speaks.append (.ofList rfl) name).append _

namespace Fault

/-- Faults that somebody can mend and that say what there is to mend. -/
structure Told (fault : Fault) : Prop where
  mendable : CommandLine.RunFault.isMendableFault fault = true
  speaks : Speaks fault.message

/-- A fault that somebody can mend says so, unless what it says is not its own. -/
theorem told_of_mendable {fault : Fault}
    (mendable : CommandLine.RunFault.isMendableFault fault = true)
    (worded : ∀ reason, fault = .trouble (.illegible reason) → Speaks reason) : fault.Told := by
  refine ⟨mendable, ?_⟩
  cases fault with
  | malformed flaw template =>
      exact ((((flaw.cause.speaks.append _).append _).append _).append _).append _
  | notAnEscaper typeName => exact .append (.ofList rfl) typeName
  | unknownPragma name => exact (Speaks.append (.ofList rfl) name).append _
  | inheritanceUnmanaged parent => exact (Speaks.append (.ofList rfl) parent).append _
  | partialUnmanaged name => exact (Speaks.append (.ofList rfl) name).append _
  | partialsNotNamed typeName => exact .append (.ofList rfl) typeName
  | partialUnusable name typeName => exact ((Speaks.append (.ofList rfl) name).append _).append _
  | notTokens | partialAmbiguous => exact .ofList rfl
  | templateUnusable name => exact (Speaks.append (.ofList rfl) name).append _
  | templateNotFound name => exact (Speaks.append (.ofList rfl) name).append _
  | tooDeep limit => exact (Speaks.append (.ofList rfl) _).append _
  | notADirectory path => exact .append (.ofList rfl) path
  | file flaw =>
      obtain rfl : flaw = .zero := by
        simpa [CommandLine.RunFault.isMendableFault] using mendable
      exact .ofList rfl
  | undecodable cause => exact ((Speaks.append (.ofList rfl) _).append _).append _
  | trouble cause =>
      cases cause with
      | invalidValue => exact .ofList rfl
      | illegible reason => exact worded reason rfl
      | _ => cases mendable
  | notAPragma | notAResolver | endless => cases mendable

theorem Told.ne_endless {fault : Fault} (told : fault.Told) : fault ≠ .endless := by
  rintro rfl
  cases told.mendable

theorem told_illegible (step : String) : Told (.trouble (Value.illegible step)) := by
  refine told_of_mendable rfl fun reason same => ?_
  cases same
  exact .append (.ofList rfl) _

end Fault

namespace FileTree

/-- Whether a path that has been looked at is too long. -/
def OverLong (tree : FileTree) (events : List Event) : Prop :=
  ∃ (base : Place) (path : Path), .consulted path.toString ∈ events ∧
    tree.entryAt base path = .error .tooLong

theorem OverLong.mono {tree : FileTree} {events more : List Event} (overLong : tree.OverLong events)
    (within : events ⊆ more) : tree.OverLong more := by
  obtain ⟨base, path, consulted, refused⟩ := overLong
  exact ⟨base, path, within consulted, refused⟩

/-- Whether a fault is one that a user is told of, or lies in a path that has been looked at. -/
def Blames (tree : FileTree) (fault : Fault) (events : List Event) : Prop :=
  fault.Told ∨ fault = .file .tooLong ∧ tree.OverLong events

theorem Blames.mono {tree : FileTree} {fault : Fault} {events more : List Event}
    (blames : tree.Blames fault events) (within : events ⊆ more) : tree.Blames fault more :=
  blames.imp_right fun ⟨same, overLong⟩ => ⟨same, overLong.mono within⟩

/-- What a name is answered with that stands for a file of a tree. -/
def Answers (tree : FileTree) (retrieval : Retrieval) : Prop :=
  match retrieval.answer with
  | .ok .absent => True
  | .ok (.text text) => text ∈ tree.texts
  | .ok _ => False
  | .error fault => tree.Blames fault retrieval.reports

theorem Answers.orElse {tree : FileTree} {first second : Retrieval} (one : tree.Answers first)
    (other : tree.Answers second) : tree.Answers (first.orElse second) := by
  unfold Retrieval.orElse
  split
  · obtain ⟨reports, answer⟩ := second
    cases answer with
    | ok answer => cases answer <;> exact other
    | error fault => exact Blames.mono other (List.subset_append_right _ _)
  · exact one

end FileTree

namespace Folders

variable {tree : FileTree} {folders : Folders}

theorem textOf_answers {content : List UInt8} {place : Place} (events : List Event)
    (entry : tree.entry place = .file content) : tree.Answers ⟨events, textOf content⟩ := by
  cases read : textOf content with
  | ok answer =>
      unfold textOf at read
      split at read
      · cases read
        rename_i chars decoded
        refine ⟨place, content, entry, ?_⟩
        simp only [textOf, decoded]
      · cases read
  | error fault =>
      unfold textOf at read
      split at read
      · cases read
      · cases read
        exact .inl (Fault.told_of_mendable rfl (by simp))

theorem askPlace_answers (tree : FileTree) (name : String) (file : Path) (place : Place) :
    tree.Answers (askPlace tree name file place) := by
  unfold askPlace
  extract_lets candidate shown
  split
  · exact .inl (Fault.told_of_mendable rfl (by simp))
  · split
    · cases found : tree.entryAt [] candidate with
      | error flaw =>
          cases FileTree.entryAt_refuses found
          exact .inr ⟨rfl, [], candidate, .head _, found⟩
      | ok entry =>
          cases entry with
          | missing | directory => trivial
          | file content =>
              obtain ⟨stored, entry⟩ := FileTree.exists_entry found
              exact textOf_answers _ entry
    · trivial

theorem add_blames {base : Place} {path : Path}
    {fault : Fault} {events : List Event} (failed : folders.add tree base path = .error fault)
    (consulted : .consulted path.toString ∈ events) : tree.Blames fault events := by
  unfold add at failed
  cases found : tree.entryAt base path with
  | error flaw =>
      rw [found] at failed
      cases failed
      cases FileTree.entryAt_refuses found
      exact .inr ⟨rfl, base, path, consulted, found⟩
  | ok entry =>
      rw [found] at failed
      cases entry with
      | directory => cases failed
      | missing | file =>
          cases failed
          exact .inl (Fault.told_of_mendable rfl (by simp))

/-- Template directories answer a name with the text of a file, or not at all, or in the way of a
fault that a user is told of, but for paths that are too long. -/
theorem ask_answers (tree : FileTree) (folders : Folders) (name : String) :
    tree.Answers (folders.ask tree name) := by
  have each (place : Place) := askPlace_answers tree name (folders.fileOf name) place
  unfold ask
  generalize askPlace tree name (folders.fileOf name) = found at each ⊢
  induction folders.places with
  | nil => trivial
  | cons place rest ih => exact (each place).orElse ih

end Folders

theorem Chain.ask_answers (tree : FileTree) (folders : Folders) (label : Option String)
    (priority : Int) (name : String) :
    tree.Answers ((Chain.only (.folders folders) label priority).ask tree name) :=
  (folders.ask_answers tree name).orElse trivial

section

variable {tree : FileTree} {source : Source} (answers : ∀ name, tree.Answers (source name))

include answers

theorem names_of_answers {names : Set String}
    (stored : ∀ text ∈ tree.texts, Writes names text)
    (written : ∀ name ∈ names, Writes names name) : source.Names names where
  stored := by
    rintro text ⟨name, answered⟩
    have answer := answers name
    rw [FileTree.Answers, answered] at answer
    exact stored text answer
  written := written _
  compiled := by
    intro name tokens answered
    have answer := answers name
    rw [FileTree.Answers, answered] at answer
    exact answer.elim

/-- Whether a fault is blamed on a tree, or on a bound. -/
def FileTree.Blamed (tree : FileTree) (fault : Fault) (store : Store) : Prop :=
  tree.Blames fault store.reports ∨ fault = .endless

theorem blamed_of_answers : source.Blamed tree.Blamed where
  endless _ := .inr rfl
  malformed _ _ _ := .inl (.inl (Fault.told_of_mendable rfl (by simp)))
  unusable _ _ := .inl (.inl (Fault.told_of_mendable rfl (by simp)))
  missing := by
    intro name fault store needed reported
    rcases Retrieval.error_of_needed needed with failed | rfl
    · have answer := answers name
      rw [FileTree.Answers, failed] at answer
      exact .inl (answer.mono reported)
    · exact .inl (.inl (Fault.told_of_mendable rfl (by simp)))

end

/-- Escapers that always give a text. -/
def Escaper.Writes (escape : Escaper) : Prop := ∀ value, ∃ text, escape value = .ok (.text text)

theorem Escaper.writes_html : Escaper.html.Writes := fun _ => ⟨_, rfl⟩

theorem Escaper.writes_none : Escaper.none.Writes := fun _ => ⟨_, rfl⟩

/-- A setting with the pragmas that there are from the start, and with escapers that give texts. -/
structure Setting.Ordinary (setting : Setting) (home : Home) : Prop where
  managed : setting.home = some home
  pragmas : home.pragmas = .standard
  homeEscape : home.escape.Writes
  escape : setting.escape.Writes

theorem ImplicitIterator.current_plain {view : Value} (plain : view.IsPlain) (marker : String) :
    ∃ item, ImplicitIterator.current marker view = .ok item := by
  unfold current
  split
  · exact ⟨_, rfl⟩
  · cases view with
    | mapping entries | ordered entries =>
        simp only [Value.plain, Value.opened]
        cases known : Value.findKey (.text marker) entries with
        | none => exact ⟨_, rfl⟩
        | some value =>
            obtain ⟨kind, shape, _⟩ := (Value.EntriesPlain.of_findKey plain known).exists_kind
            simp only [shape]
            cases kind <;> exact ⟨_, rfl⟩
    | _ => first | exact ⟨_, rfl⟩ | exact plain.elim

theorem ImplicitIterator.render_plain (offer : Offer) (plain : offer.view.IsPlain)
    (writes : (offer.escape.getD Escaper.html).Writes) :
    ∃ piece, ImplicitIterator.render offer = .ok piece ∧ Value.isJoinable piece = true := by
  unfold render
  extract_lets marker
  cases offer.payload with
  | token => exact ⟨_, rfl, rfl⟩
  | text name =>
      simp only
      split
      · obtain ⟨item, current⟩ := current_plain plain marker
        rw [current]
        cases item with
        | none => exact ⟨_, rfl, rfl⟩
        | some value =>
            obtain ⟨text, written⟩ := writes value
            cases value with
            | null => exact ⟨_, rfl, rfl⟩
            | bool b =>
                cases b with
                | false => exact ⟨_, rfl, rfl⟩
                | true => exact ⟨_, written, rfl⟩
            | _ => exact ⟨_, written, rfl⟩
      · exact ⟨_, rfl, rfl⟩

theorem Registry.eq_of_standard {name : String} {pragma : Pragma}
    (known : standard.get? name = some pragma) : pragma = ImplicitIterator.pragma := by
  rcases Table.get?_insert_elim known with same | before
  · exact same
  · cases before

/-- Whether states are kept whatever is reported, and all faults that a user is told of are blamed.
-/
structure Tells (kept : Store → Prop) (blamed : Fault → Store → Prop) : Prop where
  reports (store : Store) (events : List Event) : kept store →
    kept { store with reports := events }
  told {fault : Fault} (told : fault.Told) (store : Store) : blamed fault store

namespace Tells

variable {kept : Store → Prop} {blamed : Fault → Store → Prop} (tells : Tells kept blamed)

include tells

theorem lawful : Lawful (Behaves kept blamed) := lawful_behaves tells.reports

theorem fails {α : Type} {holds : α → Prop} {fault : Fault} (told : fault.Told) :
    Behaves kept blamed α holds (throw fault) :=
  Behaves.throw fun store _ => tells.told told store

theorem finds {view : Value} (plain : view.IsPlain) (name : String) :
    Behaves kept blamed Value Value.IsPlain (find view name) := by
  intro store here
  rcases Value.lookup_plain plain name with ⟨found, known, inside⟩ | ⟨step, _, _, failed⟩
  · rw [find_present plain.isFixed_eq known]
    exact tells.lawful.gives inside store here
  · rw [← Value.current_of_isFixed plain.isFixed_eq store.memory] at failed
    rw [find_of_error failed]
    exact tells.fails (Fault.told_illegible step) store here

variable {setting : Setting} {home : Home} (ordinary : setting.Ordinary home)

include ordinary

theorem offers {view : Value} (plain : view.IsPlain) (active : ActivePragmas) (kind : Token.Kind)
    (payload : Payload) :
    Behaves kept blamed (Option Piece) (fun offered => ∀ piece ∈ offered, piece.isJoinable = true)
      (setting.offer active kind payload view) := by
  simp only [Setting.offer, ordinary.managed]
  induction active.entries with
  | nil => exact tells.lawful.gives (by simp)
  | cons entry rest ih =>
      obtain ⟨name, options⟩ := entry
      simp only [offerTo, ordinary.pragmas]
      cases known : Registry.standard.get? name with
      | none => exact tells.fails (Fault.told_of_mendable rfl (by simp))
      | some pragma =>
          cases Registry.eq_of_standard known
          simp only
          split
          · rw [look_of_isFixed plain.isFixed_eq, pure_bind]
            let offer : Offer := ⟨kind, payload, view, options, some home.escape⟩
            obtain ⟨piece, given, joinable⟩ :=
              ImplicitIterator.render_plain offer plain ordinary.homeEscape
            have offers : Behaves kept blamed Piece (· = piece)
                ((ImplicitIterator.pragma.render offer).run home.library) := by
              rw [ImplicitIterator.pragma, Handling.run_ofView, given]
              exact tells.lawful.gives rfl
            refine tells.lawful.andThen offers ?_
            rintro _ rfl
            split
            · refine tells.lawful.gives fun found same => ?_
              cases same
              exact joinable
            · exact ih
          · exact ih

theorem escapes {scope : Scope} (plain : scope.view.IsPlain) (name : String) :
    Behaves kept blamed Piece (fun piece => piece.isJoinable = true)
      (renderEscaped setting scope name) := by
  refine tells.lawful.andThen (tells.finds plain name) fun value inside => ?_
  split
  · split
    · exact tells.lawful.gives rfl
    · split
      · exact tells.lawful.gives rfl
      · obtain ⟨text, written⟩ := ordinary.escape value
        rw [written]
        exact tells.lawful.gives rfl
  · have plain : (Value.mapping [(.text name, value)]).IsPlain := ⟨rfl, inside, trivial⟩
    have offered := tells.offers ordinary plain scope.active .escaped (.text name)
    refine tells.lawful.andThen offered fun piece joinable => tells.lawful.gives ?_
    cases piece with
    | none => rfl
    | some piece => exact joinable piece rfl

theorem activates (scope : Scope) (name : String) (options : Options) :
    Behaves kept blamed ActivePragmas (fun _ => True) (activate setting scope name options) := by
  have activated : Behaves kept blamed ActivePragmas (fun _ => True)
      (do Action.report (.activated name options); pure (scope.active.insert name options)) :=
    tells.lawful.andThen (tells.lawful.report _) fun _ _ => tells.lawful.gives trivial
  have thrown : Behaves kept blamed PUnit (fun _ => True) (throw (.unknownPragma name)) :=
    tells.fails (Fault.told_of_mendable rfl (by simp))
  simp only [activate, ordinary.managed]
  split
  · exact tells.lawful.andThen thrown fun _ _ => activated
  · exact activated

end Tells

/-- What rendering a document comes by, where tokens and nested blocks meet given conditions. -/
def documentTerms (aliases : Table Tokens) (token : Token → Prop) (nested : Tokens → Prop) :
    Terms where
  view := Value.IsPlain
  token := token
  nested := nested
  active _ := True
  piece piece := piece.isJoinable = true
  aliases := aliases

section

variable {kept : Store → Prop} {blamed : Fault → Store → Prop} {setting : Setting} {home : Home}
  {aliases : Table Tokens}

/-- Rendering behaves as finding the tokens of partials does. -/
theorem upholds_tells (tells : Tells kept blamed) (ordinary : setting.Ordinary home)
    {token : Token → Prop} {nested : Tokens → Prop}
    (encloses : ∀ found inner, token found → found.enclosed? = some inner → nested inner)
    (includes : ∀ scope name, scope.aliases = aliases → token (.partialNamed name) →
      Behaves kept blamed Tokens nested (partialTokens setting scope name)) :
    Upholds (Behaves kept blamed) setting (documentTerms aliases token nested) where
  toBinding := tells.lawful.binding
  encloses held enclosed := encloses _ _ held enclosed
  inactive := trivial
  silent := rfl
  content _ := rfl
  joins _ := rfl
  joinsPieces joinable := by
    rw [joinPieces, if_pos (List.all_eq_true.mpr joinable)]
    exact tells.lawful.gives rfl
  offers admits _ := tells.offers ordinary admits.view _ _ _
  escapes admits _ := tells.escapes ordinary admits.view _
  unescapes admits _ :=
    tells.lawful.andThen (tells.finds admits.view _) fun _ _ => tells.lawful.gives rfl
  finds plain _ _ := tells.finds plain _
  kinds plain := by
    obtain ⟨kind, known, _⟩ := plain.exists_kind
    rw [known]
    exact tells.lawful.gives rfl
  takes plain listed store here := by
    obtain ⟨items, taken, inside⟩ := plain.takeItems_eq listed store
    rw [taken]
    exact tells.lawful.gives inside store here
  calls _ _ plain called := by
    obtain ⟨kind, known, uncalled⟩ := plain.exists_kind
    rw [known] at called
    exact absurd (Except.ok.inj called) uncalled
  includes admits held := includes _ _ admits.aliases held
  activates _ _ := tells.activates ordinary _ _ _

/-- Blocks behave where those nested in them are held to less and less, down to a level at which they
are cut off. -/
theorem renderWithin_behaves (tells : Tells kept blamed)
    (entered : ∀ (store : Store) (deepest : Nat), kept store → kept { store with deepest })
    {token : Nat → Token → Prop} {nested : Nat → Tokens → Prop}
    (upholds : ∀ levels, Upholds (Behaves kept blamed) setting
      (documentTerms aliases (token levels) (nested levels)))
    (holds : ∀ levels tokens, nested (levels + 1) tokens → ∀ found ∈ tokens, token levels found)
    (cut : ∀ tokens store, nested 0 tokens → blamed .endless store) (levels : Nat) :
    (documentTerms aliases (token levels) (nested levels)).Nests (Behaves kept blamed).alone
      (renderWithin setting levels) (renderWithin setting levels) := by
  induction levels with
  | zero => exact fun scope tokens _ inside => .throw fun store _ => cut tokens store inside
  | succ levels ih =>
      intro scope tokens admits inside
      cases allowed : setting.exceeds scope.depth with
      | some limit =>
          rw [renderWithin_refused allowed]
          exact tells.fails (Fault.told_of_mendable rfl (by simp))
      | none =>
          rw [renderWithin_entered allowed]
          have enters : Behaves kept blamed Unit (fun _ => True) (Action.enter scope.depth) := by
            refine fun store here => ⟨fun result after run => ?_, nofun⟩
            cases run
            exact ⟨entered store _ here, trivial⟩
          refine tells.lawful.andThen enters fun _ _ => ?_
          have here : (documentTerms aliases (token levels) (nested levels)).Admits scope :=
            ⟨admits.view, admits.active, admits.aliases⟩
          have rendered := renderTokens_binds (upholds levels) ih here (holds levels tokens inside)
          exact tells.lawful.weaken rendered fun _ block => ⟨block.text, block.active⟩

end

section

variable {library : Library} {setting : Setting} {home : Home} {aliases : Table Tokens}
  {tree : FileTree} (answers : ∀ name, tree.Answers (library.source name))

include answers

theorem tokenize_tells (template : String) :
    Behaves (fun store => store.cache.Within Set.univ) tree.Blamed Tokens
      (Tokens.Within Set.univ) (tokenize library true template) := by
  have named : library.source.Names Set.univ :=
    names_of_answers answers (fun _ _ _ _ => trivial) fun _ _ _ _ => trivial
  exact tokenizeWithin_behaves named (blamed_of_answers answers) _ (fun _ _ _ => trivial) true

variable (ordinary : setting.Ordinary home) (known : home.library = library)

include ordinary known

/-- Rendering a document fails as a user is told, because of a path that is too long, or because it
is cut off. -/
theorem render_tells {view : Value} (plain : view.IsPlain) {tokens : Tokens} {store after : Store}
    {fault : Fault} (failed : render setting tokens view aliases store = .error fault after) :
    tree.Blamed fault after := by
  have tells : Tells (fun store => store.cache.Within Set.univ) tree.Blamed :=
    ⟨fun _ _ within => within, fun told _ => .inl (.inl told)⟩
  have includes (scope : Scope) (name : String) :
      Behaves (fun store => store.cache.Within Set.univ) tree.Blamed Tokens (fun _ => True)
        (partialTokens setting scope name) := by
    unfold partialTokens
    cases scope.aliases.get? name with
    | some tokens =>
        exact tells.lawful.andThen (tells.lawful.report _) fun _ _ => tells.lawful.gives trivial
    | none =>
        simp only [ordinary.managed, known]
        refine tells.lawful.andThen (tells.lawful.report _) fun _ _ => ?_
        exact tells.lawful.weaken (tokenize_tells answers name) fun _ _ => trivial
  have upholds : Upholds (Behaves (fun store => store.cache.Within Set.univ) tree.Blamed) setting
      (documentTerms aliases (fun _ => True) fun _ => True) :=
    upholds_tells tells ordinary (fun _ _ _ _ => trivial) fun scope name _ _ => includes scope name
  have nests := renderWithin_behaves tells (fun _ _ within => within) (fun _ => upholds)
    (fun _ _ _ _ _ => trivial) (fun _ _ _ => .inr rfl) setting.levels
  have rendered := nests ⟨view, aliases, .empty, 0⟩ tokens ⟨plain, trivial, rfl⟩ trivial
  have written : Behaves (fun store => store.cache.Within Set.univ) tree.Blamed String
      (fun _ => True) (render setting tokens view aliases) :=
    tells.lawful.andThen rendered fun _ _ => tells.lawful.gives trivial
  exact (written store fun _ _ _ _ _ => trivial).2 fault after failed

end

section

variable {library : Library} (stocked : library.source.Stocked) (bounded : library.Bounded)

include stocked bounded

theorem tokenize_uncut (keep : Bool) (template : String) :
    Ends Tokens (tokenize library keep template) (tokenize library keep template) :=
  tokenizeWithin_ends stocked (bounded template) keep

theorem compile_uncut (origin : Option String) (text : String) :
    Ends Tokens (compile library origin text) (compile library origin text) :=
  compileText_related searching_ends.toSequential origin fun name _ =>
    tokenize_uncut stocked bounded true name

/-- What is found under a name is what the name means. -/
theorem tokenize_means (name : String) :
    Behaves (fun store => store.cache.Coherent library) (fun fault _ => fault ≠ .endless) Tokens
      (library.source.Means name) (tokenize library true name) := by
  obtain ⟨expected, steady⟩ := tokenize_steady bounded true name
  have meant : library.meaning name = expected :=
    (steady .start .fresh ⟨Cache.coherent_empty library, rfl⟩).1
  intro store coherent
  obtain ⟨ended, still, _⟩ := steady store.memory store ⟨coherent, rfl⟩
  refine ⟨fun tokens after run => ?_, fun fault after run cut => ?_⟩
  · rw [run] at ended still
    exact ⟨still, library.chainLimit, meant.trans ended.symm⟩
  · rw [cut] at run
    exact tokenize_uncut stocked bounded true name store after run

variable {setting : Setting} {home : Home} (ordinary : setting.Ordinary home)
  (known : home.library = library) {aliases : Table Tokens} {tokens : Tokens} {store : Store}

include ordinary known

/-- Under a depth limit a rendering is never cut off. -/
theorem render_uncut_limited {limit : Int} (limited : setting.maxDepth = some limit) (view : Value)
    (after : Store) :
    render setting tokens view aliases store ≠ .error .endless after := by
  have related : setting.Related Ends setting := by
    refine ⟨rfl, ?_⟩
    rw [ordinary.managed]
    refine .ofLibraries congruence_ends rfl rfl (fun keep name => ?_) fun text => ?_
    · exact known ▸ tokenize_uncut stocked bounded keep name
    · exact known ▸ compile_uncut stocked bounded none text
  exact renderTo_guarded congruence_ends (fun _ _ _ => ok_ne_error) related limited limited
    (Nat.le_refl _) tokens view aliases store after

/-- Without a depth limit, the rendering of a document is not cut off where blocks open one another
to no more levels than there may be. -/
theorem render_uncut_shallow (unlimited : setting.maxDepth = none)
    (shallow : Shallow library.source aliases setting.nestingLimit tokens) {view : Value}
    (plain : view.IsPlain) (coherent : store.cache.Coherent library) (after : Store) :
    render setting tokens view aliases store ≠ .error .endless after := by
  have tells : Tells (fun store => store.cache.Coherent library) fun fault _ => fault ≠ .endless :=
    ⟨fun _ _ coherent => coherent, fun told _ => told.ne_endless⟩
  let token (levels : Nat) (found : Token) : Prop :=
    ∀ inner, found.Opens library.source aliases inner →
      Shallow library.source aliases levels inner
  have includes (levels : Nat) (scope : Scope) (name : String) (same : scope.aliases = aliases)
      (held : token levels (.partialNamed name)) :
      Behaves (fun store => store.cache.Coherent library) (fun fault _ => fault ≠ .endless) Tokens
        (Shallow library.source aliases levels) (partialTokens setting scope name) := by
    have opens {inner : Tokens} (stands : Stands library.source aliases name inner) :
        Shallow library.source aliases levels inner := held inner (.inr ⟨name, rfl, stands⟩)
    unfold partialTokens
    rw [same]
    unfold Stands at opens
    cases aliased : aliases.get? name with
    | some others =>
        rw [aliased] at opens
        exact tells.lawful.andThen (tells.lawful.report _) fun _ _ =>
          tells.lawful.gives (opens rfl)
    | none =>
        rw [aliased] at opens
        simp only [ordinary.managed, known]
        refine tells.lawful.andThen (tells.lawful.report _) fun _ _ => ?_
        exact tells.lawful.weaken (tokenize_means stocked bounded name) fun _ means => opens means
  have upholds (levels : Nat) :
      Upholds (Behaves (fun store => store.cache.Coherent library) fun fault _ => fault ≠ .endless)
        setting (documentTerms aliases (token levels) (Shallow library.source aliases levels)) :=
    upholds_tells tells ordinary (fun found inner held encloses => held inner (.inl encloses))
      (includes levels)
  have nests := renderWithin_behaves tells (fun _ _ coherent => coherent) upholds
    (fun _ _ shallow found member => shallow found member) (fun _ _ none => none.elim)
    setting.levels
  have levels : setting.levels = setting.nestingLimit := by rw [Setting.levels, unlimited]
  have rendered := nests ⟨view, aliases, .empty, 0⟩ tokens ⟨plain, trivial, rfl⟩
    (levels ▸ shallow)
  have written : Behaves (fun store => store.cache.Coherent library)
      (fun fault _ => fault ≠ .endless) String (fun _ => True)
      (render setting tokens view aliases) :=
    tells.lawful.andThen rendered fun _ _ => tells.lawful.gives trivial
  exact fun failed => (written store coherent).2 .endless after failed rfl

end

end Logicless
