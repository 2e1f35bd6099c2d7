import Logicless.Proofs.Preparing

namespace Logicless.CommandLine

/-- What a request gathers before it renders or shows anything. -/
structure Supplies where
  view : Value
  aliases : Table Tokens
  tokens : Tokens

def gather (request : Request) (input : String) : Run Supplies :=
  match request.command with
  | .render => do
      let view ← readView input request.data
      let partials ← request.partials.mapM readPartial
      let tokens ← readTemplate request.template
      return ⟨view, Table.ofList partials, tokens⟩
  | .tokens => do
      let tokens ← readTemplate request.template
      return ⟨.mapping [], .empty, tokens⟩

def supply (request : Request) (input : String) : Run Supplies := do
  prepareManager request
  gather request input

def conclude (command : Command) (supplies : Supplies) : Run String :=
  match command with
  | .render => Run.ofWork (Work.renderTokens managerName supplies.tokens supplies.view
      supplies.aliases)
  | .tokens => pure ((Tokens.dump supplies.tokens).pretty ++ "\n")

theorem perform_eq (request : Request) (input : String) :
    perform request input = (do
      let supplies ← supply request input
      conclude request.command supplies) := by
  unfold perform supply gather
  cases request.command with
  | render => simp only [bind_assoc, pure_bind, conclude]
  | tokens => simp only [bind_assoc, pure_bind, conclude]

namespace Request

/-- Whether a request has its data from a text: the input, or that of a file. -/
def HasData (request : Request) (surroundings : Surroundings) (text : List Char) : Prop :=
  request.data = some "-" ∧ text = surroundings.input.toList ∨
    ∃ data, request.data = some data ∧ data ≠ "-" ∧ surroundings.Holds (.ofString data) text

/-- Whether a request has its data from a directory. -/
def HasDirectory (request : Request) (surroundings : Surroundings) : Prop :=
  ∃ data, request.data = some data ∧
    surroundings.tree.entryAt surroundings.directory (.ofString data) = .ok .directory

/-- Whether a run ends in a fault that the user is told of, or for one of two other reasons. -/
def Blames (request : Request) (surroundings : Surroundings) (fault : RunFault)
    (events : List Event) : Prop :=
  Blamed surroundings.tree fault events ∨
    fault = .failure (.fault (.file .isDirectory)) ∧ request.HasDirectory surroundings

end Request

theorem Steps.excuse {ε α : Type} {surroundings : Surroundings} {bound : Nat} {site : Site}
    {blamed excused : ε → List Event → Prop} {holds : α → Site → Prop}
    {step : EStateM ε Workspace α} (steps : Steps surroundings bound blamed site holds step)
    (implies : ∀ fault events, blamed fault events → excused fault events) :
    Steps surroundings bound excused site holds step := by
  cases steps with
  | ok result reached here runs => exact .ok result reached here runs
  | error fault reached blame runs => exact .error fault reached (implies _ _ blame) runs

section

variable {surroundings : Surroundings} {bound : Nat} {site : Site} {request : Request}

theorem entryAt_steps (path : Path) :
    Steps surroundings bound (Blamed surroundings.tree) site
      (fun entry next => surroundings.tree.entryAt surroundings.directory path = .ok entry ∧
        next = site.report (.consulted path.toString)) (entryAt path) := by
  have looked : Steps surroundings bound (Blamed surroundings.tree) site
      (fun entry next => surroundings.tree.entryAt surroundings.directory path = .ok entry ∧
        next = site.report (.consulted path.toString)) (do
      Run.ofWork (Work.report (.consulted path.toString))
      Run.ofWork (Work.ofFiles (surroundings.tree.entryAt surroundings.directory path))) := by
    refine Steps.andThen (.ofWork (report_works _)) ?_
    rintro _ _ rfl
    refine .ofWork ?_
    cases found : surroundings.tree.entryAt surroundings.directory path with
    | error flaw =>
        cases FileTree.entryAt_refuses found
        exact .fails (.inr ⟨rfl, _, path, .head _, found⟩)
    | ok entry => exact .gives ⟨rfl, rfl⟩
  exact .reads (fun _ => rfl) looked

theorem holds_of_entryAt {path : Path} {content : List UInt8} {chars : List Char}
    (found : surroundings.tree.entryAt surroundings.directory path = .ok (.file content))
    (decoded : Text.decodeUtf8 content = .ok chars) :
    surroundings.Holds path (String.ofList (Text.plainNewlines chars)).toList := by
  unfold FileTree.entryAt at found
  split at found
  · cases found
  · exact ⟨content, chars, found, decoded, String.toList_ofList⟩

theorem textOf_steps (content : List UInt8) :
    Steps surroundings bound (Blamed surroundings.tree) site
      (fun text next => next = site ∧ ∃ chars, Text.decodeUtf8 content = .ok chars ∧
        text = String.ofList (Text.plainNewlines chars)) (textOf content) := by
  unfold textOf
  cases decoded : Text.decodeUtf8 content with
  | ok chars => exact .gives ⟨rfl, chars, rfl, rfl⟩
  | error flaw =>
      exact .fails (.inl (RunFault.told_of_fault (Fault.told_of_mendable rfl (by simp))))

theorem viewOf_steps (source : String) {text : String}
    (tame : surroundings.documents.Tames text.toList) :
    Steps surroundings bound (Blamed surroundings.tree) site
      (fun view next => next = site ∧ view.IsPlain) (viewOf source text) := by
  have gives {view : Value} (plain : view.IsPlain) :
      Steps surroundings bound (Blamed surroundings.tree) site
        (fun view next => next = site ∧ view.IsPlain) (pure view) := .gives ⟨rfl, plain⟩
  unfold viewOf
  rcases tame with ⟨value, read, plain⟩ | malformed
  · have found (limits : Limits) :
        (site.within surroundings limits).documents.read text.toList = .ok value := read
    cases value with
    | null =>
        have nothing : (Value.mapping []).IsPlain := trivial
        exact .reads (fun limits => by rw [found]) (gives nothing)
    | _ => exact .reads (fun limits => by rw [found]) (gives plain)
  · have found (limits : Limits) :
        (site.within surroundings limits).documents.read text.toList = .error .malformed :=
      malformed
    have refused : Steps surroundings bound (Blamed surroundings.tree) site
        (fun view next => next = site ∧ view.IsPlain)
        (throw (.dataMalformed source) : Run Value) :=
      .fails (.inl ⟨rfl, .append (.ofList rfl) source⟩)
    exact .reads (fun limits => by rw [found]) refused

end

/-- A site among whose templates lines of inheritance are bounded, and at which only what they mean is
cached, so that it includes partials of given names only. -/
structure Site.Sound (tree : FileTree) (source : Source) (bound : Nat) (names : Set String)
    (site : Site) : Prop where
  asks : site.chain.ask tree = source
  escape : site.escape.Writes
  within : site.cache.Within names
  coherent : site.cache.Coherent ⟨source, bound⟩

section

variable {surroundings : Surroundings} {source : Source} {bound : Nat} {names : Set String}
  {site : Site} {request : Request}

theorem Site.Sound.report (sound : site.Sound surroundings.tree source bound names)
    (event : Event) : (site.report event).Sound surroundings.tree source bound names :=
  ⟨sound.asks, sound.escape, sound.within, sound.coherent⟩

theorem readView_steps
    (tame : ∀ text, request.HasData surroundings text → surroundings.documents.Tames text)
    (sound : site.Sound surroundings.tree source bound names) :
    Steps surroundings bound (request.Blames surroundings) site
      (fun view next => view.IsPlain ∧ next.Sound surroundings.tree source bound names)
      (readView surroundings.input request.data) := by
  have viewed {site : Site} (sound : site.Sound surroundings.tree source bound names)
      (origin : String) {text : String} (tame : surroundings.documents.Tames text.toList) :
      Steps surroundings bound (request.Blames surroundings) site
        (fun view next => view.IsPlain ∧ next.Sound surroundings.tree source bound names)
        (viewOf origin text) := by
    refine (Steps.weaken (viewOf_steps origin tame) ?_).excuse fun _ _ => .inl
    rintro view _ ⟨rfl, plain⟩
    exact ⟨plain, sound⟩
  unfold readView
  split
  · exact .gives ⟨trivial, sound⟩
  · rename_i dash
    exact viewed sound "stdin" (tame _ (.inl ⟨(Option.filter_eq_some_iff.mp dash).1, rfl⟩))
  · rename_i data other given
    have known : request.data = some data := (Option.filter_eq_some_iff.mp given).1
    refine Steps.andThen ((entryAt_steps _).excuse fun _ _ => .inl) ?_
    rintro entry _ ⟨found, rfl⟩
    cases entry with
    | missing => exact .fails (.inl (.inl ⟨rfl, .append (.ofList rfl) _⟩))
    | directory => exact .fails (.inr ⟨rfl, data, known, found⟩)
    | file content =>
        refine Steps.andThen ((textOf_steps content).excuse fun _ _ => .inl) ?_
        rintro _ _ ⟨rfl, chars, decoded, rfl⟩
        refine viewed (sound.report _) _ (tame _ (.inr ⟨data, known, other, ?_⟩))
        exact holds_of_entryAt found decoded

/-- What a computation begins with at a site. -/
def Site.store (site : Site) : Store := ⟨site.cache, .start, site.reports, 0⟩

def Site.keep (site : Site) (store : Store) : Site :=
  { site with cache := store.cache, reports := store.reports }

theorem onCache_within {α : Type} (action : Action α) (site : Site) (surroundings : Surroundings)
    (limits : Limits) :
    Work.onCache 0 action (site.within surroundings limits) =
      match action site.store with
      | .ok result store => .ok result ((site.keep store).within surroundings limits)
      | .error fault store =>
          .error (.fault fault) ((site.keep store).within surroundings limits) := by
  have held : (site.within surroundings limits).managers[0]? =
      some ⟨site.chain, .standard, site.cache, 0⟩ := rfl
  have begun : (⟨site.cache, .start, (site.within surroundings limits).reports, 0⟩ : Store) =
      site.store := rfl
  rw [Work.onCache, get_bind]
  simp only [held, EStateM.run, begun]
  cases action site.store <;> rfl

/-- Work in the cache of the manager that is the same for all limits, that behaves, and that is not
cut off. -/
theorem onCache_works {α : Type} {work : Work α} (action : Library → Action α)
    {holds : α → Prop} (sound : site.Sound surroundings.tree source bound names)
    (begins : ∀ limits, work (site.within surroundings limits) =
      Work.onCache 0 (action ⟨site.chain.ask surroundings.tree, limits.chain⟩)
        (site.within surroundings limits))
    (alike : ∀ chainLimit, bound ≤ chainLimit → action ⟨source, chainLimit⟩ = action ⟨source, bound⟩)
    (behaves : Behaves (fun store => store.cache.Within names) surroundings.tree.Blamed α holds
      (action ⟨source, bound⟩))
    (steady : Steady ⟨source, bound⟩ α (action ⟨source, bound⟩) (action ⟨source, bound⟩))
    (uncut : Ends α (action ⟨source, bound⟩) (action ⟨source, bound⟩)) :
    Works surroundings bound site
      (fun result next => holds result ∧ next.Sound surroundings.tree source bound names) work := by
  obtain ⟨expected, settled⟩ := steady
  obtain ⟨_, coherent, _⟩ := settled .start site.store ⟨sound.coherent, rfl⟩
  obtain ⟨given, failed⟩ := behaves site.store sound.within
  have runs (limits : Limits) (enough : bound ≤ limits.chain) :
      work (site.within surroundings limits) =
        Work.onCache 0 (action ⟨source, bound⟩) (site.within surroundings limits) := by
    rw [begins, sound.asks, alike _ enough]
  cases run : action ⟨source, bound⟩ site.store with
  | ok result after =>
      rw [run] at coherent
      obtain ⟨within, here⟩ := given result after run
      refine .ok result (site.keep after)
        ⟨here, sound.asks, sound.escape, within, coherent⟩ fun limits enough => ?_
      rw [runs limits enough, onCache_within, run]
  | error fault after =>
      have blames := (failed fault after run).resolve_right fun cut =>
        uncut site.store after (cut ▸ run)
      refine .error (.fault fault) (site.keep after) (blamed_of_blames blames) fun limits enough => ?_
      rw [runs limits enough, onCache_within, run]

section

variable (bounded : Library.Bounded ⟨source, bound⟩) {chainLimit : Nat}
  (enough : bound ≤ chainLimit)

include bounded enough

theorem tokenize_alike (template : String) :
    tokenize ⟨source, chainLimit⟩ true template = tokenize ⟨source, bound⟩ true template :=
  tokenizeWithin_eq ((bounded template).mono (Nat.add_le_add_right enough _)) (bounded template) true

theorem compile_alike (origin : Option String) (text : String) :
    compile ⟨source, chainLimit⟩ origin text = compile ⟨source, bound⟩ origin text :=
  compileText_related searching_eq.toSequential origin fun name _ =>
    tokenize_alike bounded enough name

end

/-- Template files among which lines of inheritance are bounded, and in the tags of which only given
names are written. -/
structure TemplateFiles (tree : FileTree) (source : Source) (bound : Nat) (names : Set String) :
    Prop where
  answers (name : String) : tree.Answers (source name)
  stocked : source.Stocked
  bounded : Library.Bounded ⟨source, bound⟩
  stored {text : String} : text ∈ tree.texts → Writes names text
  written {name : String} : name ∈ names → Writes names name

theorem TemplateFiles.named {tree : FileTree} (files : TemplateFiles tree source bound names) :
    source.Names names :=
  names_of_answers files.answers (fun _ => files.stored) fun _ => files.written

section

variable (files : TemplateFiles surroundings.tree source bound names)
  (sound : site.Sound surroundings.tree source bound names)

include files sound

theorem compile_works (origin : Option String) {text : String} (writes : Writes names text) :
    Works surroundings bound site
      (fun tokens next => Tokens.Within names tokens ∧
        next.Sound surroundings.tree source bound names)
      (Work.compile managerName origin text) := by
  refine onCache_works (fun library => Logicless.compile library origin text) sound
    (fun limits => ?_) (fun _ enough => compile_alike files.bounded enough origin text)
    (compile_behaves files.named (blamed_of_answers files.answers) bound origin writes)
    (compile_steady files.bounded origin text)
    (compile_uncut files.stocked files.bounded origin text)
  exact bind_of_ok (Work.manager_of_known (site.manager_within surroundings limits))

theorem tokenize_works {template : String} (writes : Writes names template) :
    Works surroundings bound site
      (fun tokens next => Tokens.Within names tokens ∧
        next.Sound surroundings.tree source bound names)
      (Work.tokenize managerName true template) := by
  refine onCache_works (fun library => Logicless.tokenize library true template) sound
    (fun limits => ?_) (fun _ enough => tokenize_alike files.bounded enough template)
    (tokenizeWithin_behaves files.named (blamed_of_answers files.answers) _ (fun _ => writes) true)
    (tokenize_steady files.bounded true template)
    (tokenize_uncut files.stocked files.bounded true template)
  exact bind_of_ok (Work.manager_of_known (site.manager_within surroundings limits))

theorem compileFile_steps (origin : Option String) {path : Path} {content : List UInt8}
    (found : surroundings.tree.entryAt surroundings.directory path = .ok (.file content)) :
    Steps surroundings bound (Blamed surroundings.tree) site
      (fun tokens next => Tokens.Within names tokens ∧
        next.Sound surroundings.tree source bound names) (do
      let text ← textOf content
      Run.ofWork (Work.compile managerName origin text)) := by
  refine Steps.andThen (textOf_steps content) ?_
  rintro _ _ ⟨rfl, chars, decoded, rfl⟩
  obtain ⟨place, entry⟩ := FileTree.exists_entry found
  refine .ofWork (compile_works files sound origin (files.stored ⟨place, content, entry, ?_⟩))
  simp only [Folders.textOf, decoded]

theorem readPartial_steps (spec : String) :
    Steps surroundings bound (Blamed surroundings.tree) site
      (fun entry next => Tokens.Within names entry.2 ∧
        next.Sound surroundings.tree source bound names) (readPartial spec) := by
  unfold readPartial
  split
  · exact .fails (.inl ⟨rfl, .append (.append (.ofList rfl) spec) _⟩)
  · rename_i before behind _
    refine Steps.andThen (entryAt_steps _) ?_
    rintro entry _ ⟨found, rfl⟩
    cases entry with
    | file content =>
        let name := String.ofList (Text.strip before)
        let path := Path.ofString (String.ofList (Text.strip behind))
        have kept (tokens : Tokens) (reached : Site) (here : Tokens.Within names tokens ∧
            reached.Sound surroundings.tree source bound names) :
            Steps surroundings bound (Blamed surroundings.tree) reached
              (fun entry next => Tokens.Within names entry.2 ∧
                next.Sound surroundings.tree source bound names) (pure (name, tokens)) :=
          .gives here
        have compiled := Steps.andThen
          (compileFile_steps files (sound.report (.consulted path.toString)) (some name) found)
          kept
        rwa [bind_assoc] at compiled
    | missing | directory => exact .fails (.inl ⟨rfl, .append (.ofList rfl) _⟩)

theorem readPartials_steps (specs : List String) :
    Steps surroundings bound (Blamed surroundings.tree) site
      (fun entries next => (∀ entry ∈ entries, Tokens.Within names entry.2) ∧
        next.Sound surroundings.tree source bound names) (specs.mapM readPartial) := by
  induction specs generalizing site with
  | nil => exact .gives ⟨nofun, sound⟩
  | cons spec rest ih =>
      rw [List.mapM_cons]
      refine Steps.andThen (readPartial_steps files sound spec) ?_
      rintro entry reached ⟨within, later⟩
      refine Steps.andThen (ih later) ?_
      rintro entries _ ⟨others, last⟩
      exact .gives ⟨List.forall_mem_cons.mpr ⟨within, others⟩, last⟩

theorem readTemplate_steps {template : String} (writes : Writes names template) :
    Steps surroundings bound (Blamed surroundings.tree) site
      (fun tokens next => Tokens.Within names tokens ∧
        next.Sound surroundings.tree source bound names) (readTemplate template) := by
  refine Steps.andThen (entryAt_steps _) ?_
  rintro entry _ ⟨found, rfl⟩
  cases entry with
  | file content => exact compileFile_steps files (sound.report _) (some template) found
  | missing | directory => exact .ofWork (tokenize_works files (sound.report _) writes)

/-- What is gathered fits with the names that are written in the template files. -/
structure Supplies.Sound (names : Set String) (supplies : Supplies) : Prop where
  plain : supplies.view.IsPlain
  aliases {name : String} {tokens : Tokens} : supplies.aliases.get? name = some tokens →
    Tokens.Within names tokens
  tokens : Tokens.Within names supplies.tokens

theorem gather_steps
    (tame : ∀ text, request.HasData surroundings text → surroundings.documents.Tames text)
    (writes : Writes names request.template) :
    Steps surroundings bound (request.Blames surroundings) site
      (fun supplies next => supplies.Sound names ∧
        next.Sound surroundings.tree source bound names) (gather request surroundings.input) := by
  unfold gather
  cases request.command with
  | render =>
      refine Steps.andThen (readView_steps tame sound) ?_
      rintro view reached ⟨plain, viewed⟩
      refine Steps.andThen ((readPartials_steps files viewed _).excuse fun _ _ => .inl) ?_
      rintro partials further ⟨within, compiled⟩
      refine Steps.andThen ((readTemplate_steps files compiled writes).excuse fun _ _ => .inl) ?_
      rintro tokens _ ⟨inside, last⟩
      exact .gives ⟨⟨plain, fun known => within _ (Table.mem_of_get?_ofList known), inside⟩, last⟩
  | tokens =>
      refine Steps.andThen ((readTemplate_steps files sound writes).excuse fun _ _ => .inl) ?_
      rintro tokens _ ⟨inside, last⟩
      exact .gives ⟨⟨trivial, nofun, inside⟩, last⟩

end

end

end Logicless.CommandLine
