import Logicless.Proofs.Bypassing
import Logicless.Proofs.Isolation
import Logicless.Proofs.Naming
import Logicless.Proofs.Requests

namespace Logicless

/-- The faults by which the partials of a request are rejected. -/
inductive Fault.Rejects : Fault → Prop where
  | notNamed (typeName : String) : Rejects (.partialsNotNamed typeName)
  | unusable (name typeName : String) : Rejects (.partialUnusable name typeName)

/-- Whether every partial is a template or tokens. -/
def Partials.Usable : Partials → Prop
  | .named specs => ∀ entry ∈ specs, ∀ typeName, entry.2 ≠ .unusable typeName
  | .unusable _ => False

section

variable {library : Library} {ready reached : Table Tokens} {store after : Store}

/-- The search for a template fails for reasons of its own. -/
theorem tokenize_not_rejects (files : Source.FailsOnFiles library.source) {template : String}
    {fault : Fault} (failed : tokenize library true template store = .error fault after) :
    ¬ fault.Rejects := by
  rcases tokenizeWithin_blames library.source _ failed with endless | ⟨blamed, _, fails⟩
  · subst endless
    exact nofun
  · rcases fails with ⟨flaw, origin, malformed⟩ | unanswered | unusable
    · subst malformed
      exact nofun
    · unfold Retrieval.needed at unanswered
      split at unanswered
      · split at unanswered
        · cases unanswered
          exact nofun
        · cases unanswered
      · rename_i raised answered
        cases unanswered
        rcases files blamed _ answered with ⟨flaw, file⟩ | ⟨flaw, undecodable⟩
        · subst file
          exact nofun
        · subst undecodable
          exact nofun
    · subst unusable
      exact nofun

/-- Partials are made ready only if all of them are usable. -/
theorem usable_of_prepareNamed {specs : List (Value × PartialSpec)}
    (prepared : prepareNamed library ready specs store = .ok reached after) :
    (Partials.named specs).Usable := by
  induction specs generalizing ready store with
  | nil => exact nofun
  | cons entry rest ih =>
      obtain ⟨name, spec⟩ := entry
      cases run : preparePartial library name spec store with
      | error fault next =>
          rw [prepareNamed_of_error run] at prepared
          cases prepared
      | ok tokens next =>
          rw [prepareNamed_of_ok run] at prepared
          have here (typeName : String) : spec ≠ .unusable typeName := by
            rintro rfl
            cases run
          exact List.forall_mem_cons.mpr ⟨here, ih prepared⟩

/-- Partials are rejected for the first one that is unusable, once those before it are ready. -/
theorem prepareNamed_rejected (files : Source.FailsOnFiles library.source)
    {specs : List (Value × PartialSpec)} {fault : Fault} (rejects : fault.Rejects)
    (failed : prepareNamed library ready specs store = .error fault after) :
    ∃ before name typeName behind reached,
      specs = before ++ (name, .unusable typeName) :: behind ∧
      fault = .partialUnusable name.printed typeName ∧
      prepareNamed library ready before store = .ok reached after := by
  induction specs generalizing ready store with
  | nil => cases failed
  | cons entry rest ih =>
      obtain ⟨name, spec⟩ := entry
      cases run : preparePartial library name spec store with
      | error raised next =>
          rw [prepareNamed_of_error run] at failed
          cases failed
          cases spec with
          | template template => exact absurd rejects (tokenize_not_rejects files run)
          | tokens tokens => cases run
          | unusable typeName =>
              cases run
              exact ⟨[], name, typeName, rest, ready, rfl, rfl, rfl⟩
      | ok tokens next =>
          rw [prepareNamed_of_ok run] at failed
          obtain ⟨before, other, typeName, behind, reached, split, blamed, prepared⟩ := ih failed
          refine ⟨(name, spec) :: before, other, typeName, behind, reached, ?_, blamed, ?_⟩
          · rw [split, List.cons_append]
          · rw [prepareNamed_of_ok run]
            exact prepared

theorem Value.findKey_append {α : Type} (key : Value) (entries added : List (Value × α)) :
    findKey key (entries ++ added) = (findKey key entries).or (findKey key added) := by
  induction entries with
  | nil => rfl
  | cons entry rest ih =>
      simp only [List.cons_append, findKey]
      split
      · rfl
      · exact ih

theorem Value.exists_mem_of_findKey {α : Type} {key : Value} {value : α}
    {entries : List (Value × α)} (found : findKey key entries = some value) :
    ∃ other, (other, value) ∈ entries ∧ sameKey other key = true := by
  induction entries with
  | nil => cases found
  | cons entry rest ih =>
      obtain ⟨other, first⟩ := entry
      simp only [findKey] at found
      split at found
      · rename_i same
        cases found
        exact ⟨other, .head _, same⟩
      · obtain ⟨further, member, same⟩ := ih found
        exact ⟨further, .tail _ member, same⟩

/-- Names for which nothing is added stand for what they stood for. -/
theorem Cache.Adds.get?_of_not_mem {names : Set String} {cache grown : Cache}
    (adds : cache.Adds names grown) {asked : String} (other : asked ∉ names) :
    grown.get? asked = cache.get? asked := by
  obtain ⟨added, whole, named⟩ := adds
  have nothing : Value.findKey (.text asked) added = none := by
    refine Option.eq_none_iff_forall_ne_some.mpr fun tokens found => ?_
    obtain ⟨key, member, same⟩ := Value.exists_mem_of_findKey found
    obtain ⟨name, known, rfl⟩ := named key tokens member
    have itself : name = asked := by simpa [Value.sameKey] using same
    exact other (itself ▸ known)
  rw [Cache.get?, whole, Value.findKey_append, nothing, Option.or_none]
  rfl

/-- The names under which the templates among partials, and what these inherit from, are looked
up. -/
def namesBehind (source : Source) (specs : List (Value × PartialSpec)) : Set String :=
  {asked | isTemplateText asked = false ∧ ∃ entry ∈ specs, ∃ template,
    entry.2 = .template template ∧ (asked = template ∨ asked ∈ lineage source template)}

/-- What a name stands for after a search, if not for what it stood for. -/
theorem tokenize_others (library : Library) (template asked : String) (store : Store) :
    let left := (final (tokenize library true template store)).cache
    left.get? asked = store.cache.get? asked ∨
      store.cache.get? asked = none ∧ isTemplateText asked = false ∧
        (asked = template ∨ asked ∈ lineage library.source template) := by
  intro left
  let names : Set String := {name | isTemplateText name = false ∧
    (name = template ∨ name ∈ lineage library.source template)}
  have own (named : isTemplateText template = false) : template ∈ names := ⟨named, .inl rfl⟩
  have ancestors : ∀ ancestor ∈ lineage library.source template,
      isTemplateText ancestor = false → ancestor ∈ names :=
    fun ancestor reached named => ⟨named, .inr reached⟩
  have adds : store.cache.Adds names left :=
    tokenizeWithin_adds _ own ancestors (.refl names store.cache)
  by_cases looked : asked ∈ names
  · cases known : store.cache.get? asked with
    | some tokens => exact .inl (adds.grows.get? known)
    | none => exact .inr ⟨rfl, looked⟩
  · exact .inl (adds.get?_of_not_mem looked)

theorem preparePartial_others (library : Library) (name : Value) (spec : PartialSpec)
    (asked : String) (store : Store) :
    let left := (final (preparePartial library name spec store)).cache
    left.get? asked = store.cache.get? asked ∨
      store.cache.get? asked = none ∧ asked ∈ namesBehind library.source [(name, spec)] := by
  cases spec with
  | template template =>
      refine (tokenize_others library template asked store).imp_right ?_
      rintro ⟨absent, named, looked⟩
      exact ⟨absent, named, _, .head _, template, rfl, looked⟩
  | tokens tokens => exact .inl rfl
  | unusable typeName => exact .inl rfl

theorem namesBehind_mono {source : Source} {specs more : List (Value × PartialSpec)}
    (within : specs ⊆ more) : namesBehind source specs ⊆ namesBehind source more := by
  rintro asked ⟨named, entry, member, template, spec, looked⟩
  exact ⟨named, entry, within member, template, spec, looked⟩

/-- What making partials ready does to a cache. Under the alias of each stand the tokens that were
made ready for it, where those before it had been made ready; all other names stand for what they
stood for, but for names that were looked up for the first time. -/
structure Cache.Left (left : Cache) (library : Library) (ready : Table Tokens)
    (specs : List (Value × PartialSpec)) (store : Store) : Prop where
  aliases : ∀ before name spec behind, specs = before ++ (.text name, spec) :: behind →
    ∃ table reached tokens next, prepareNamed library ready before store = .ok table reached ∧
      preparePartial library (.text name) spec reached = .ok tokens next ∧
      left.get? name = some tokens
  others : ∀ asked, (∀ entry ∈ specs, entry.1 ≠ .text asked) →
    left.get? asked = store.cache.get? asked ∨
      store.cache.get? asked = none ∧ asked ∈ namesBehind library.source specs

theorem prepareNamed_left {specs : List (Value × PartialSpec)}
    (distinct : (Partials.named specs).Distinct)
    (prepared : prepareNamed library ready specs store = .ok reached after) :
    after.cache.Left library ready specs store := by
  induction specs generalizing ready store with
  | nil =>
      cases prepared
      exact ⟨by simp, fun _ _ => .inl rfl⟩
  | cons entry rest ih =>
      obtain ⟨name, spec⟩ := entry
      cases run : preparePartial library name spec store with
      | error fault next =>
          rw [prepareNamed_of_error run] at prepared
          cases prepared
      | ok tokens next =>
          rw [prepareNamed_of_ok run] at prepared
          have later := ih (List.pairwise_cons.mp distinct).2 prepared
          refine ⟨fun before other given behind split => ?_, fun asked apart => ?_⟩
          · cases before with
            | nil =>
                cases split
                have kept : (final (prepareNamed library (addAlias ready (.text other) tokens) rest
                    (next.remembering (.text other) tokens))).cache.get? other = some tokens :=
                  prepareNamed_keeps (key_ne_of_distinct distinct)
                    (next.cache.get?_insert_self other tokens)
                rw [prepared] at kept
                exact ⟨ready, store, tokens, next, rfl, run, kept⟩
            | cons first before =>
                cases split
                obtain ⟨table, between, others, last, front, made, known⟩ :=
                  later.aliases before other given behind rfl
                exact ⟨table, between, others, last, (prepareNamed_of_ok run).trans front, made,
                  known⟩
          · rw [List.forall_mem_cons] at apart
            have inserted : (next.remembering name tokens).cache.get? asked =
                next.cache.get? asked := next.cache.get?_insert_of_key_ne apart.1 tokens
            have sought := preparePartial_others library name spec asked store
            rw [run] at sought
            have first : [(name, spec)] ⊆ (name, spec) :: rest := by simp
            rcases sought with same | ⟨absent, looked⟩
            · rcases later.others asked apart.2 with still | ⟨missing, further⟩
              · exact .inl (still.trans (inserted.trans same))
              · refine .inr ⟨same.symm.trans (inserted.symm.trans missing), ?_⟩
                exact namesBehind_mono (List.subset_cons_self _ rest) further
            · exact .inr ⟨absent, namesBehind_mono first looked⟩

end

theorem Workspace.keep_self {workspace : Workspace} {number : Nat} {manager : Manager}
    (held : workspace.managers[number]? = some manager) :
    workspace.keep number manager ⟨manager.cache, .start, workspace.reports, 0⟩ = workspace := by
  have same : workspace.managers.set number manager = workspace.managers := by
    obtain ⟨within, rfl⟩ := List.getElem?_eq_some_iff.mp held
    exact List.set_getElem_self within
  simp only [keep, setManager, same]

namespace Work

variable {workspace : Workspace} {name : String} {number : Nat} {manager : Manager}

theorem render_of_prepare_error (known : workspace.manager? name = some (number, manager))
    (template : String) (view : Value) {partials : Partials} {fault : Fault} {store : Store}
    (failed : preparePartials (workspace.library manager) partials
      ⟨manager.cache, .start, workspace.reports, 0⟩ = .error fault store) :
    render name template view partials workspace =
      .error (.fault fault) (workspace.keep number manager store) := by
  have unprepared : prepare (workspace.library manager) template partials
      ⟨manager.cache, .start, workspace.reports, 0⟩ = .error fault store := bind_of_error failed
  refine (bind_of_ok (manager_of_known known)).trans ((get_bind _).trans (bind_of_error ?_))
  rw [onCache_of_held (Workspace.held_of_manager? known), unprepared]

/-- A request with partials that cannot be used fails. If its partials are rejected, it leaves
everything as it was where they are no mapping; otherwise it leaves the cache as the partials before
the first unusable one leave it. -/
theorem render_rejected (known : workspace.manager? name = some (number, manager))
    (template : String) (view : Value) {partials : Partials} (distinct : partials.Distinct)
    (unusable : ¬ partials.Usable) :
    ∃ fault after, render name template view partials workspace = .error (.fault fault) after ∧
      (fault.Rejects →
        (∃ typeName, partials = .unusable typeName ∧ fault = .partialsNotNamed typeName ∧
          after = workspace) ∨
        ∃ before rejected typeName behind ready store,
          partials = .named (before ++ (rejected, .unusable typeName) :: behind) ∧
          fault = .partialUnusable rejected.printed typeName ∧
          (Partials.named before).Usable ∧
          prepareNamed (workspace.library manager) .empty before
            ⟨manager.cache, .start, workspace.reports, 0⟩ = .ok ready store ∧
          after = workspace.keep number manager store ∧
          store.cache.Left (workspace.library manager) .empty before
            ⟨manager.cache, .start, workspace.reports, 0⟩ ∧
          (before = [] → after = workspace)) := by
  have held := Workspace.held_of_manager? known
  cases partials with
  | unusable typeName =>
      have refused : preparePartials (workspace.library manager) (.unusable typeName)
          ⟨manager.cache, .start, workspace.reports, 0⟩ = .error (.partialsNotNamed typeName) _ := rfl
      have failed := render_of_prepare_error known template view refused
      exact ⟨_, _, failed, fun _ => .inl ⟨typeName, rfl, rfl, Workspace.keep_self held⟩⟩
  | named specs =>
      have files : Source.FailsOnFiles (workspace.library manager).source :=
        Chain.failsOnFiles workspace.tree manager.chain
      cases run : prepareNamed (workspace.library manager) .empty specs
          ⟨manager.cache, .start, workspace.reports, 0⟩ with
      | ok ready store => exact absurd (usable_of_prepareNamed run) unusable
      | error fault store =>
          refine ⟨fault, _, render_of_prepare_error known template view run, fun rejects => .inr ?_⟩
          obtain ⟨before, rejected, typeName, behind, ready, rfl, blamed, prepared⟩ :=
            prepareNamed_rejected files rejects run
          have apart : (Partials.named before).Distinct := (List.pairwise_append.mp distinct).1
          refine ⟨before, rejected, typeName, behind, ready, store, rfl, blamed,
            usable_of_prepareNamed prepared, prepared, rfl, prepareNamed_left apart prepared, ?_⟩
          rintro rfl
          cases prepared
          exact Workspace.keep_self held

/-- A page that brings its base into the cache, and a partial behind it that cannot be used: it is
blamed, and neither it nor the partial behind it is in the cache. -/
theorem render_rejected_page :
    let workspace := (Workspace.empty .empty []).addManager "m" pageChain
    let partials : Partials := .named [(.text "row", .template "page"),
      (.text "bad", .unusable "int"), (.text "late", .tokens [.content "x"])]
    partials.Distinct ∧ ¬ partials.Usable ∧
      ∃ after, render "m" "page" (.mapping []) partials workspace =
          .error (.fault (.partialUnusable "bad" "int")) after ∧
        after.managers.map (fun manager => manager.cache.entries.map fun entry => entry.1.printed) =
          [["base", "page", "row"]] := by
  intro workspace partials
  have distinct : partials.Distinct :=
    .cons (List.forall_mem_cons.mpr ⟨rfl, List.forall_mem_singleton.mpr rfl⟩)
      (.cons (List.forall_mem_singleton.mpr rfl) (List.pairwise_singleton _ _))
  have unusable : ¬ partials.Usable := fun usable => usable _ (.tail _ (.head _)) "int" rfl
  have known : workspace.manager? "m" = some (0, Manager.make pageChain 0) := rfl
  have ended : outcome (render "m" "page" (.mapping []) partials workspace) =
      .error (.fault (.partialUnusable "bad" "int")) := by decide +kernel
  have cached : (final (render "m" "page" (.mapping []) partials workspace)).managers.map
      (fun manager => manager.cache.entries.map fun entry => entry.1.printed) =
        [["base", "page", "row"]] := by decide +kernel
  obtain ⟨fault, after, failed, _⟩ :=
    render_rejected known "page" (.mapping []) distinct unusable
  rw [failed] at ended cached
  cases ended
  exact ⟨distinct, unusable, after, failed, cached⟩

/-- A partial that can be used stays in the cache although the one behind it is rejected. -/
theorem render_rejected_trace :
    let workspace := (Workspace.empty .empty []).addManager "m" .standard
    let partials : Partials :=
      .named [(.text "good", .tokens [.content "G"]), (.text "bad", .unusable "int")]
    let known (workspace : Workspace) : List Bool :=
      workspace.managers.map fun manager => (manager.cache.get? "good").isSome
    ∃ after, render "m" "\x7b\x7b>good\x7d\x7d" (.mapping []) partials workspace =
        .error (.fault (.partialUnusable "bad" "int")) after ∧
      known workspace = [false] ∧ known after = [true] :=
  ⟨_, rfl, rfl, rfl⟩

end Work

end Logicless
