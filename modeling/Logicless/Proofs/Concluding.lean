import Logicless.Proofs.Answering

namespace Logicless

/-- The setting in which a manager renders. -/
def Workspace.settingOf? (workspace : Workspace) (name : String) : Option Setting :=
  (workspace.manager? name).bind fun found =>
    (workspace.renderers[found.2.renderer]?).map workspace.setting

theorem any_dropWhile_blank {text : List Char}
    (speaks : text.any (fun c => !Text.isBlank c) = true) :
    (text.dropWhile Text.isBlank).any (fun c => !Text.isBlank c) = true := by
  induction text with
  | nil => exact speaks
  | cons c rest ih =>
      rw [List.dropWhile_cons]
      split
      · rename_i blank
        rw [List.any_cons, blank] at speaks
        exact ih speaks
      · exact speaks

namespace CommandLine

theorem RunFault.speaks_line {fault : RunFault} (told : fault.Told) : Speaks fault.line := by
  unfold RunFault.line
  split
  · exact told.speaks
  · have speaks := told.speaks
    rw [Speaks, ← List.any_reverse] at speaks
    rw [Speaks, String.toList_ofList, List.any_reverse]
    exact any_dropWhile_blank speaks

/-- The whole output of what has been gathered: the tokens, or their rendering as it is without
anything cached. -/
def Supplies.Makes (supplies : Supplies) (command : Command) (workspace : Workspace)
    (output : String) : Prop :=
  match command with
  | .render => ∃ setting, workspace.settingOf? managerName = some setting ∧
      Logicless.outcome (render setting supplies.tokens supplies.view supplies.aliases .fresh) =
        .ok output
  | .tokens => output = (Tokens.dump supplies.tokens).pretty ++ "\n"

section

variable {surroundings : Surroundings} {source : Source} {bound : Nat} {names : Set String}
  {site : Site} {limits : Limits}

def Site.home (site : Site) (surroundings : Surroundings) (limits : Limits) : Home :=
  ⟨.standard, ⟨site.chain.ask surroundings.tree, limits.chain⟩, site.escape⟩

def Site.setting (site : Site) (surroundings : Surroundings) (limits : Limits) : Setting :=
  ⟨some (site.home surroundings limits), site.escape, site.maxDepth, limits.nesting⟩

theorem renderTokens_within (site : Site) (surroundings : Surroundings) (limits : Limits)
    (tokens : Tokens) (view : Value) (aliases : Table Tokens) :
    Work.renderTokens managerName tokens view aliases (site.within surroundings limits) =
      Work.onCache 0 (render (site.setting surroundings limits) tokens view aliases)
        (site.within surroundings limits) :=
  bind_of_ok (Work.rendererOf_of_known (site.manager_within surroundings limits) rfl)

theorem bounded_of_le (bounded : Library.Bounded ⟨source, bound⟩)
    (enough : bound ≤ limits.chain) : Library.Bounded ⟨source, limits.chain⟩ :=
  fun template => (bounded template).mono (Nat.add_le_add_right enough _)

theorem coherent_of_le (bounded : Library.Bounded ⟨source, bound⟩) (enough : bound ≤ limits.chain)
    {cache : Cache} (coherent : cache.Coherent ⟨source, bound⟩) :
    cache.Coherent ⟨source, limits.chain⟩ := by
  intro key tokens member
  obtain ⟨name, same, named, meant⟩ := coherent key tokens member
  rw [Library.meaning, ← tokenize_alike bounded enough] at meant
  exact ⟨name, same, named, meant⟩

/-- What has been gathered is rendered or shown whole, or it cannot be for a reason that the user is
told of, or because of a path that is too long. -/
theorem conclude_ends (files : TemplateFiles surroundings.tree source bound names)
    (sound : site.Sound surroundings.tree source bound names) (enough : bound ≤ limits.chain)
    {supplies : Supplies} (fits : supplies.Sound names)
    (shallow : Shallow source supplies.aliases limits.nesting supplies.tokens)
    (command : Command) :
    (∃ output next, conclude command supplies (site.within surroundings limits) =
      .ok output next ∧
      supplies.Makes command (site.within surroundings limits) output) ∨
    ∃ fault next, conclude command supplies (site.within surroundings limits) = .error fault next ∧
      Blamed surroundings.tree fault next.reports := by
  cases command with
  | tokens => exact .inl ⟨_, _, rfl, rfl⟩
  | render =>
      let setting := site.setting surroundings limits
      have bounded := bounded_of_le files.bounded enough
      have coherent := coherent_of_le files.bounded enough sound.coherent
      have ordinary : setting.Ordinary (site.home surroundings limits) :=
        ⟨rfl, rfl, sound.escape, sound.escape⟩
      have known : (site.home surroundings limits).library = ⟨source, limits.chain⟩ := by
        rw [Site.home, sound.asks]
      have rendered : conclude .render supplies (site.within surroundings limits) =
          Run.ofWork (Work.onCache 0
            (render setting supplies.tokens supplies.view supplies.aliases))
            (site.within surroundings limits) := by
        simp only [conclude, Run.ofWork, renderTokens_within, setting]
      rw [rendered]
      simp only [Run.ofWork, onCache_within]
      cases run : render setting supplies.tokens supplies.view supplies.aliases site.store with
      | ok text after =>
          refine .inl ⟨text, _, rfl, setting, rfl, ?_⟩
          have homes (home : Home) (managed : setting.home = some home) :
              home.library = ⟨source, limits.chain⟩ := by
            cases managed
            exact known
          have agree := render_agree bounded homes supplies.tokens supplies.view supplies.aliases
          have alike : Alike ⟨source, limits.chain⟩ .fresh site.store :=
            ⟨Cache.coherent_empty _, coherent, rfl⟩
          rw [(agree _ _ alike).1, run]
          rfl
      | error fault after =>
          refine .inr ⟨_, _, rfl, blamed_of_blames ?_⟩
          have blames := render_tells files.answers ordinary known fits.plain run
          refine blames.resolve_right fun cut => ?_
          subst cut
          cases limited : site.maxDepth with
          | some limit =>
              exact render_uncut_limited files.stocked bounded ordinary known limited _ after run
          | none =>
              exact render_uncut_shallow files.stocked bounded ordinary known limited shallow
                fits.plain coherent after run

end

namespace Request

variable (request : Request) (surroundings : Surroundings)

/-- Whether a request has a text read as YAML. -/
def Reads (text : List Char) : Prop :=
  surroundings.Holds (request.configPath surroundings) text ∨ request.HasData surroundings text

/-- Whether a request looks for templates in a source, once its manager is ready within some
limits. -/
def Asks (source : Source) : Prop :=
  ∃ limits workspace number manager,
    prepareManager request (startWorkspace limits surroundings) = .ok () workspace ∧
      workspace.manager? managerName = some (number, manager) ∧
      source = (workspace.library manager).source

/-- Whether a request gathers something within some limits. -/
def Gathers (supplies : Supplies) : Prop :=
  ∃ limits workspace,
    supply request surroundings.input (startWorkspace limits surroundings) = .ok supplies workspace

end Request

section

variable {request : Request} {surroundings : Surroundings}

theorem Request.Gathers.aliases_empty {supplies : Supplies}
    (gathers : request.Gathers surroundings supplies)
    (none : request.partials = []) : supplies.aliases = .empty := by
  obtain ⟨limits, workspace, run⟩ := gathers
  obtain ⟨_, _, _, gathered⟩ := ok_of_bind run
  rw [gather, none] at gathered
  cases known : request.command with
  | render =>
      rw [known] at gathered
      obtain ⟨view, _, _, rest⟩ := ok_of_bind gathered
      obtain ⟨partials, _, absent, later⟩ := ok_of_bind rest
      obtain ⟨tokens, _, _, last⟩ := ok_of_bind later
      cases absent
      cases last
      rfl
  | tokens =>
      rw [known] at gathered
      obtain ⟨tokens, _, _, last⟩ := ok_of_bind gathered
      cases last
      rfl

/-- How a request is answered: whole, with something for the user to read, or not at all because of
data that is a directory or of a path that is too long. -/
theorem Request.exists_ends (finite : surroundings.tree.Finite)
    (checks : surroundings.documents.Checks)
    (tame : ∀ text, request.Reads surroundings text → surroundings.documents.Tames text)
    (inheritance : ∀ source, request.Asks surroundings source → Acyclic source)
    (inclusion : ∀ source supplies, request.Asks surroundings source →
      request.Gathers surroundings supplies → InclusionEnds source supplies.aliases) :
    ∃ bound, ∀ limits : Limits, bound ≤ limits.chain → bound ≤ limits.nesting →
      (∃ supplies workspace output next,
        supply request surroundings.input (startWorkspace limits surroundings) =
          .ok supplies workspace ∧
        supplies.Makes request.command workspace output ∧
        perform request surroundings.input (startWorkspace limits surroundings) = .ok output next) ∨
      ∃ fault next, perform request surroundings.input (startWorkspace limits surroundings) =
        .error fault next ∧ request.Blames surroundings fault next.reports := by
  have prepared : Steps surroundings 0 (Blamed surroundings.tree) .start
      (fun _ next => next.Ready) (prepareManager request) :=
    prepareManager_steps checks fun text holds => tame text (.inl holds)
  cases prepared with
  | error fault next blame runs =>
      refine ⟨0, fun limits _ _ => .inr ⟨fault, next.within surroundings limits, ?_, .inl blame⟩⟩
      rw [perform_eq]
      exact bind_of_error (bind_of_error (runs limits (Nat.zero_le _)))
  | ok _ site ready runs =>
      let source := site.chain.ask surroundings.tree
      let names := partsOf (insert request.template surroundings.tree.texts)
      have asks : request.Asks surroundings source :=
        ⟨⟨0, 0⟩, _, _, _, runs ⟨0, 0⟩ (Nat.zero_le _), site.manager_within _ _, rfl⟩
      obtain ⟨bound, ends⟩ := Chain.exists_limit finite (inheritance source asks)
      have files : TemplateFiles surroundings.tree source bound names :=
        ⟨Chain.ask_answers _ _ _ _, Chain.stocked finite _, ends,
          fun stored => writes_partsOf (mem_partsOf (.inr stored)), writes_partsOf⟩
      have sound : site.Sound surroundings.tree source bound names :=
        ⟨rfl, ready.escape, ready.cache ▸ Cache.within_empty names,
          ready.cache ▸ Cache.coherent_empty _⟩
      have gathered : Steps surroundings bound (request.Blames surroundings) site
          (fun supplies next => supplies.Sound names ∧
            next.Sound surroundings.tree source bound names)
          (gather request surroundings.input) :=
        gather_steps files sound (fun text data => tame text (.inr data))
          (writes_partsOf (mem_partsOf (.inl rfl)))
      cases gathered with
      | error fault next blame later =>
          refine ⟨bound, fun limits enough _ => ?_⟩
          refine .inr ⟨fault, next.within surroundings limits, ?_, blame⟩
          rw [perform_eq]
          refine bind_of_error ((bind_of_ok (runs limits (Nat.zero_le _))).trans ?_)
          exact later limits enough
      | ok supplies next here later =>
          obtain ⟨fits, still⟩ := here
          have supplied (limits : Limits) (enough : bound ≤ limits.chain) :
              supply request surroundings.input (startWorkspace limits surroundings) =
                .ok supplies (next.within surroundings limits) :=
            (bind_of_ok (runs limits (Nat.zero_le _))).trans (later limits enough)
          have closed (name : String) (known : name ∈ names) (other : String)
              (includes : Includes source supplies.aliases name other) : other ∈ names := by
            obtain ⟨tokens, stands, inside⟩ := includes
            unfold Stands at stands
            split at stands
            · rename_i given aliased
              subst stands
              exact fits.aliases aliased other inside
            · exact stands.within files.named (fun _ => files.written known) other inside
          have gathers : request.Gathers surroundings supplies :=
            ⟨⟨bound, 0⟩, _, supplied ⟨bound, 0⟩ (Nat.le_refl _)⟩
          have texts : (insert request.template surroundings.tree.texts).Finite :=
            (FileTree.Finite.texts finite).insert _
          obtain ⟨levels, shallow⟩ := exists_levels (finite_parts texts) closed
            (inclusion source supplies asks gathers) fits.tokens
          refine ⟨max bound levels, fun limits long deep => ?_⟩
          have enough : bound ≤ limits.chain := (Nat.le_max_left _ _).trans long
          have room := shallow.mono ((Nat.le_max_right _ _).trans deep)
          rcases conclude_ends files still enough fits room request.command with
            ⟨output, last, run, makes⟩ | ⟨fault, last, run, blame⟩
          · refine .inl ⟨supplies, _, output, last, supplied limits enough, makes, ?_⟩
            rw [perform_eq]
            exact (bind_of_ok (supplied limits enough)).trans run
          · refine .inr ⟨fault, last, ?_, .inl blame⟩
            rw [perform_eq]
            exact (bind_of_ok (supplied limits enough)).trans run

/-- Where neither inheritance nor inclusion goes in circles, a run within limits that are wide enough
ends with the code 0 and all its output, or with the code 2, no output and something to read, but for
two kinds of input: data that is a directory, and a path that is too long. Documents are read and
checked by whatever gives plain data or refuses it as it should. -/
theorem run_concludes {arguments : List String}
    (accepted : Request.ofArguments arguments = .ok request) (finite : surroundings.tree.Finite)
    (checks : surroundings.documents.Checks)
    (tame : ∀ text, request.Reads surroundings text → surroundings.documents.Tames text)
    (inheritance : ∀ source, request.Asks surroundings source → Acyclic source)
    (inclusion : ∀ source supplies, request.Asks surroundings source →
      request.Gathers surroundings supplies → InclusionEnds source supplies.aliases) :
    ∃ bound, ∀ limits : Limits, bound ≤ limits.chain → bound ≤ limits.nesting →
      let outcome := run limits arguments surroundings
      (outcome.code? = some 0 ∧ ∃ supplies workspace,
        supply request surroundings.input (startWorkspace limits surroundings) =
          .ok supplies workspace ∧
        supplies.Makes request.command workspace outcome.output) ∨
      (outcome.code? = some 2 ∧ outcome.output = "" ∧
        ∃ fault, outcome.ending = .failed fault ∧ Speaks fault.line) ∨
      outcome.code? = none ∧ outcome.output = "" ∧
        (request.HasDirectory surroundings ∨ surroundings.tree.OverLong outcome.reports) := by
  obtain ⟨bound, ends⟩ := Request.exists_ends finite checks tame inheritance inclusion
  refine ⟨bound, fun limits long deep => ?_⟩
  simp only [CommandLine.run, accepted, Request.run]
  rcases ends limits long deep with
    ⟨supplies, workspace, output, next, supplied, makes, run⟩ | ⟨fault, next, run, blame⟩
  · rw [run]
    exact .inl ⟨rfl, supplies, workspace, supplied, makes⟩
  · rw [run]
    rcases blame with (told | ⟨rfl, overLong⟩) | ⟨rfl, directory⟩
    · refine .inr (.inl ⟨?_, rfl, fault, rfl, RunFault.speaks_line told⟩)
      simp only [Outcome.code?, told.mendable, if_true]
    · refine .inr (.inr ⟨rfl, rfl, .inr (overLong.mono ?_)⟩)
      exact fun event member => List.mem_reverse.mpr member
    · exact .inr (.inr ⟨rfl, rfl, .inl directory⟩)

end

/-- A file that greets whoever the standard input names. -/
def greeting : Surroundings :=
  ⟨FileTree.empty.set ["t.txt"] (.file "Hello, \x7b\x7bname\x7d\x7d!".toUTF8.toList), [],
    "name: World", false, .standard⟩

def greetingRequest : Request := ⟨.render, "t.txt", [], none, none, some "-", [], false, false⟩

theorem run_concludes_greeting :
    ∃ bound, ∀ limits : Limits, bound ≤ limits.chain → bound ≤ limits.nesting →
      let outcome := run limits ["render", "t.txt", "--data", "-"] greeting
      (outcome.code? = some 0 ∧ ∃ supplies workspace,
        supply greetingRequest greeting.input (startWorkspace limits greeting) =
          .ok supplies workspace ∧
        supplies.Makes .render workspace outcome.output) ∨
      (outcome.code? = some 2 ∧ outcome.output = "" ∧
        ∃ fault, outcome.ending = .failed fault ∧ Speaks fault.line) ∨
      outcome.code? = none ∧ outcome.output = "" ∧
        (greetingRequest.HasDirectory greeting ∨ greeting.tree.OverLong outcome.reports) := by
  have bare (source : Source) (asks : greetingRequest.Asks greeting source) (name : String) :
      (source name).answer = .ok .absent := by
    obtain ⟨limits, workspace, number, manager, prepared, found, rfl⟩ := asks
    have ready : workspace =
        final (prepareManager greetingRequest (startWorkspace limits greeting)) := by
      rw [prepared]
      rfl
    subst ready
    cases found
    rfl
  refine run_concludes rfl (FileTree.finite_empty.set _ _) (fun _ => Config.checks_validate) ?_ ?_ ?_
  · rintro text (⟨_, _, found, _⟩ | ⟨_, rfl⟩ | ⟨data, given, other, _⟩)
    · cases found
    · decide +kernel
    · cases given
      contradiction
  · exact fun source asks => acyclic_of_bare (bare source asks)
  · intro source supplies asks gathers
    rw [gathers.aliases_empty rfl]
    exact inclusionEnds_of_bare (bare source asks)

example : (run ⟨9, 9⟩ ["render", "t.txt", "--data", "-"] greeting).output = "Hello, World!" := by
  decide +kernel

/-- A template, and a directory that may be taken for data. -/
def mislaid : Surroundings :=
  ⟨(FileTree.empty.set ["t.txt"] (.file "x".toUTF8.toList)).set ["d"] .directory, [], "", false,
    .standard⟩

theorem run_data_directory :
    (run ⟨9, 9⟩ ["render", "t.txt", "--data", "d"] mislaid).code? = none := by
  decide +kernel

end CommandLine

end Logicless
