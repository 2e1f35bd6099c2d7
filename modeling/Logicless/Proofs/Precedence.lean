import Logicless.Proofs.Naming
import Logicless.Proofs.Wiring

namespace Logicless

/-!
Who is asked before whom.

However many resolvers are attached to a chain, in whatever order and with whatever priorities, the
chain has each of them once for each time it was attached, those of higher priority before those of
lower, and those of one priority in the order in which they came (`Sorts`). For all the sorting, what
is attached just comes to stand behind the others of its priority (`Chain.push_links`). What is no
resolver is refused, and leaves everything as it was (`attached_by_priority`).

A chain that is a link of another one answers in its own place: taking its links in its stead, and so
on down to resolvers that are no chains (`Chain.leaves`), makes no difference to what is asked, to
what is reported, and to what is answered (`ask_leaves`).
-/

section

variable {α : Type}

/-- Puts an entry behind all others of its priority or a higher one. -/
def insertBehind (priority : α → Int) (entry : α) : List α → List α
  | [] => [entry]
  | first :: rest =>
      if priority first < priority entry then entry :: first :: rest
      else first :: insertBehind priority entry rest

theorem insertBehind_perm (priority : α → Int) (entry : α) (entries : List α) :
    (insertBehind priority entry entries).Perm (entry :: entries) := by
  induction entries with
  | nil => exact .refl _
  | cons first rest ih =>
      simp only [insertBehind]
      split
      · exact .refl _
      · exact (ih.cons first).trans (.swap entry first rest)

theorem map_insertBehind {β : Type} {priority : α → Int} {standing : β → Int} {shown : α → β}
    (same : ∀ entry, standing (shown entry) = priority entry) (entry : α) (entries : List α) :
    (insertBehind priority entry entries).map shown =
      insertBehind standing (shown entry) (entries.map shown) := by
  induction entries with
  | nil => rfl
  | cons first rest ih =>
      simp only [insertBehind, List.map_cons, same]
      split
      · rfl
      · rw [List.map_cons, ih]

/-- Where entries stand before others as `before` says, so they do with another one that stands
before those of lower priorities, and behind all the rest. -/
theorem pairwise_insertBehind {priority : α → Int} {before : α → α → Prop} {entry : α}
    {entries : List α} (sorted : entries.Pairwise before)
    (descends : entries.Pairwise fun first later => priority later ≤ priority first)
    (leads : ∀ other ∈ entries, priority other < priority entry → before entry other)
    (follows : ∀ other ∈ entries, priority entry ≤ priority other → before other entry) :
    (insertBehind priority entry entries).Pairwise before := by
  induction entries with
  | nil => exact List.pairwise_singleton _ _
  | cons first rest ih =>
      obtain ⟨first_before, sorted⟩ := List.pairwise_cons.mp sorted
      obtain ⟨below, descends⟩ := List.pairwise_cons.mp descends
      rw [List.forall_mem_cons] at leads follows
      simp only [insertBehind]
      split
      · rename_i lower
        refine List.pairwise_cons.mpr ⟨fun other member => ?_, List.pairwise_cons.mpr
          ⟨first_before, sorted⟩⟩
        rcases List.mem_cons.mp member with rfl | further
        · exact leads.1 lower
        · exact leads.2 other further (Int.lt_of_le_of_lt (below other further) lower)
      · rename_i higher
        refine List.pairwise_cons.mpr ⟨fun other member => ?_, ih sorted descends leads.2 follows.2⟩
        rcases List.mem_cons.mp ((insertBehind_perm priority entry rest).mem_iff.mp member) with
          rfl | further
        · exact follows.1 (Int.not_lt.mp higher)
        · exact first_before other further

/-- Entries with their priorities are those of a history, higher priorities first, and those of the
same priority in the order of the history. -/
structure Sorts (entries history : List (Int × α)) : Prop where
  lists : entries.Perm history
  descends : entries.Pairwise fun first later => later.1 ≤ first.1
  stable (priority : Int) : entries.filter (fun entry => entry.1 == priority) =
    history.filter fun entry => entry.1 == priority

theorem Sorts.refl {entries : List (Int × α)}
    (descends : entries.Pairwise fun first later => later.1 ≤ first.1) : Sorts entries entries :=
  ⟨.refl entries, descends, fun _ => rfl⟩

/-- Nothing but the history tells how the entries stand. -/
theorem Sorts.unique {entries others history : List (Int × α)} (sorts : Sorts entries history)
    (also : Sorts others history) : entries = others := by
  have same : entries.Perm others := sorts.lists.trans also.lists.symm
  have alike (priority : Int) : entries.filter (fun entry => entry.1 == priority) =
      others.filter fun entry => entry.1 == priority :=
    (sorts.stable priority).trans (also.stable priority).symm
  have descends := sorts.descends
  have falls := also.descends
  clear sorts also
  induction entries generalizing others with
  | nil => exact (List.nil_perm.mp same).symm
  | cons first rest ih =>
      cases others with
      | nil => exact absurd same.length_eq (by simp)
      | cons other others =>
          obtain ⟨below, onward⟩ := List.pairwise_cons.mp descends
          obtain ⟨under, further⟩ := List.pairwise_cons.mp falls
          -- both lists begin with the first entry of the highest priority
          have level : first.1 = other.1 := by
            have lower : first.1 ≤ other.1 := by
              rcases List.mem_cons.mp (same.mem_iff.mp (.head _)) with rfl | further
              · exact Int.le_refl _
              · exact under first further
            have higher : other.1 ≤ first.1 := by
              rcases List.mem_cons.mp (same.mem_iff.mpr (.head _)) with rfl | further
              · exact Int.le_refl _
              · exact below other further
            exact Int.le_antisymm lower higher
          have begun := alike first.1
          simp only [List.filter_cons, beq_self_eq_true, level, if_true, List.cons.injEq] at begun
          obtain rfl := begun.1
          refine congrArg (first :: ·) (ih same.cons_inv (fun priority => ?_) onward further)
          have both := alike priority
          simp only [List.filter_cons] at both
          split at both
          · exact List.tail_eq_of_cons_eq both
          · exact both

theorem filter_insertBehind {entries : List (Int × α)}
    (descends : entries.Pairwise fun first later => later.1 ≤ first.1) (entry : Int × α)
    (priority : Int) :
    (insertBehind Prod.fst entry entries).filter (fun entry => entry.1 == priority) =
      (entries ++ [entry]).filter fun entry => entry.1 == priority := by
  induction entries with
  | nil => rfl
  | cons first rest ih =>
      obtain ⟨below, descends⟩ := List.pairwise_cons.mp descends
      simp only [insertBehind]
      split
      · rename_i lower
        -- what stands behind the entry is of lower priority, so one of the two filters is empty
        by_cases same : entry.1 = priority
        · have none : (first :: rest).filter (fun other => other.1 == priority) = [] := by
            refine List.filter_eq_nil_iff.mpr fun other member => ?_
            have under : other.1 ≤ first.1 := by
              rcases List.mem_cons.mp member with rfl | further
              · exact Int.le_refl _
              · exact below other further
            simp only [beq_iff_eq]
            omega
          simp only [List.filter_append, List.filter_cons_of_pos, same, none, beq_self_eq_true,
            List.filter_nil, List.nil_append]
        · simp only [List.filter_append, List.filter_cons, List.filter_nil, beq_iff_eq, same,
            if_false, List.append_nil]
      · rw [List.cons_append, List.filter_cons, List.filter_cons, ih descends]

theorem Sorts.insert {entries history : List (Int × α)} (sorts : Sorts entries history)
    (entry : Int × α) : Sorts (insertBehind Prod.fst entry entries) (history ++ [entry]) where
  lists := ((insertBehind_perm Prod.fst entry entries).trans (sorts.lists.cons entry)).trans
    (List.perm_append_singleton entry history).symm
  descends := pairwise_insertBehind sorts.descends sorts.descends
    (fun _ _ lower => Int.le_of_lt lower) fun _ _ higher => higher
  stable priority := by
    rw [filter_insertBehind sorts.descends, List.filter_append, List.filter_append, sorts.stable]

end

namespace Chain

/-- Whether the links of a chain are in order, and each has a number of its own that has been given
out before. -/
structure Ordered (chain : Chain) : Prop where
  sorted : chain.links.Pairwise fun first later => inOrder first later = true
  numbers : (chain.links.map fun link => link.1.serial).Nodup
  counted : ∀ link ∈ chain.links, link.1.serial < chain.count

theorem inOrder_iff {first later : Rank × Resolver} :
    inOrder first later = true ↔ later.1.priority < first.1.priority ∨
      first.1.priority = later.1.priority ∧ first.1.serial ≤ later.1.serial := by
  simp [inOrder]

theorem ordered_empty : empty.Ordered := ⟨.nil, .nil, nofun⟩

/-- The priority by which a link stands in its chain. -/
def standing (link : Rank × Resolver) : Int := link.1.priority

/-- The link by which a chain takes a resolver in. -/
def next (chain : Chain) (resolver : Resolver) (label : Option String) (priority : Int) :
    Rank × Resolver :=
  (⟨priority, chain.count, label⟩, resolver)

theorem pairwise_push (chain : Chain) (resolver : Resolver) (label : Option String)
    (priority : Int) : (chain.push resolver label priority).links.Pairwise
      fun first later => inOrder first later = true := by
  refine List.pairwise_mergeSort ?_ ?_ _
  · intro first middle last before behind
    have := inOrder_iff.mp before
    have := inOrder_iff.mp behind
    refine inOrder_iff.mpr ?_
    omega
  · intro first later
    rw [Bool.or_eq_true, inOrder_iff, inOrder_iff]
    omega

section

variable {chain : Chain} (ordered : chain.Ordered)

include ordered

theorem Ordered.descends :
    chain.links.Pairwise fun first later => standing later ≤ standing first := by
  refine ordered.sorted.imp fun {first later} before => ?_
  have := inOrder_iff.mp before
  simp only [standing]
  omega

variable (resolver : Resolver) (label : Option String) (priority : Int)

/-- The numbers of the links together with that of another one. -/
theorem Ordered.numbers_next :
    ((chain.links ++ [chain.next resolver label priority]).map fun link => link.1.serial).Nodup := by
  rw [List.map_append]
  refine List.nodup_append.mpr ⟨ordered.numbers, List.pairwise_singleton _ _, ?_⟩
  intro number member other last
  obtain ⟨link, known, rfl⟩ := List.mem_map.mp member
  rw [List.mem_singleton.mp last]
  exact Nat.ne_of_lt (ordered.counted link known)

theorem pairwise_insert_next :
    (insertBehind standing (chain.next resolver label priority) chain.links).Pairwise
      fun first later => inOrder first later = true := by
  refine pairwise_insertBehind ordered.sorted ordered.descends
    (fun other _ lower => inOrder_iff.mpr (.inl lower)) fun other member higher => ?_
  have before := ordered.counted other member
  refine inOrder_iff.mpr ?_
  simp only [standing, next] at higher ⊢
  omega

/-- For all the sorting, a link that is attached just goes behind the others of its priority. -/
theorem push_links : (chain.push resolver label priority).links =
    insertBehind standing (chain.next resolver label priority) chain.links := by
  have sorted : (chain.push resolver label priority).links.Perm
      (chain.links ++ [chain.next resolver label priority]) := List.mergeSort_perm _ inOrder
  have inserted : (insertBehind standing (chain.next resolver label priority) chain.links).Perm
      (chain.links ++ [chain.next resolver label priority]) :=
    (insertBehind_perm _ _ _).trans (List.perm_append_singleton _ _).symm
  refine (sorted.trans inserted.symm).eq_of_pairwise (fun first later here there before behind => ?_)
    (pairwise_push chain resolver label priority)
    (pairwise_insert_next ordered resolver label priority)
  -- links are told apart by their numbers
  have same : first.1.serial = later.1.serial := by
    have := inOrder_iff.mp before
    have := inOrder_iff.mp behind
    omega
  exact List.inj_on_of_nodup_map (ordered.numbers_next resolver label priority)
    (sorted.mem_iff.mp here) (inserted.mem_iff.mp there) same

theorem Ordered.push : (chain.push resolver label priority).Ordered := by
  have sorted : (chain.push resolver label priority).links.Perm
      (chain.links ++ [chain.next resolver label priority]) := List.mergeSort_perm _ inOrder
  refine ⟨pairwise_push chain resolver label priority, ?_, fun link member => ?_⟩
  · exact (sorted.map _).nodup_iff.mpr (ordered.numbers_next resolver label priority)
  · rcases List.mem_append.mp (sorted.mem_iff.mp member) with before | last
    · exact Nat.lt_succ_of_lt (ordered.counted link before)
    · rw [List.mem_singleton.mp last]
      exact Nat.lt_succ_self _

end

theorem ordered_only (resolver : Resolver) (label : Option String) (priority : Int) :
    (only resolver label priority).Ordered :=
  push_empty resolver label priority ▸ ordered_empty.push resolver label priority

end Chain

mutual

/-- A resolver without the labels by which a session tells its links apart. -/
def Resolver.bare : Resolver → Resolver
  | .chain links => .chain (Resolver.bareLinks links)
  | resolver => resolver

def Resolver.bareLinks : List (Rank × Resolver) → List (Rank × Resolver)
  | [] => []
  | (rank, resolver) :: rest => ({ rank with label := none }, resolver.bare) :: bareLinks rest

end

mutual

theorem Resolver.bare_forget (label : String) :
    (resolver : Resolver) → (resolver.forget label).bare = resolver.bare
  | .chain links => congrArg Resolver.chain (Resolver.bareLinks_forgetLinks label links)
  | .mapping _ | .folders _ | .compiled _ | .constant _ => rfl

theorem Resolver.bareLinks_forgetLinks (label : String) : (links : List (Rank × Resolver)) →
    bareLinks (forgetLinks label links) = bareLinks links
  | [] => rfl
  | (rank, resolver) :: rest => by
      have same : { rank.forget label with label := none } = { rank with label := none } := by
        unfold Rank.forget
        split <;> rfl
      simp only [forgetLinks, bareLinks, same, Resolver.bare_forget label resolver,
        Resolver.bareLinks_forgetLinks label rest]

end

theorem Resolver.forgetLinks_eq_map (label : String) (links : List (Rank × Resolver)) :
    forgetLinks label links = links.map fun link => (link.1.forget label, link.2.forget label) := by
  induction links with
  | nil => rfl
  | cons link rest ih => rw [forgetLinks, ih, List.map_cons]

namespace Rank

variable (label : String) (rank : Rank)

@[simp] theorem priority_forget : (rank.forget label).priority = rank.priority := by
  unfold forget
  split <;> rfl

@[simp] theorem serial_forget : (rank.forget label).serial = rank.serial := by
  unfold forget
  split <;> rfl

end Rank

namespace Chain

/-- What a chain lists: its resolvers with their priorities, apart from labels. -/
def listing (chain : Chain) : List (Int × Resolver) :=
  chain.links.map fun link => (link.1.priority, link.2.bare)

variable {chain : Chain}

theorem listing_release (label : Option String) (chain : Chain) :
    (chain.release label).listing = chain.listing := by
  cases label with
  | none => rfl
  | some label =>
      simp only [listing, release, Resolver.forgetLinks_eq_map, List.map_map, Function.comp_def,
        Rank.priority_forget, Resolver.bare_forget]

theorem listing_push (ordered : chain.Ordered) (resolver : Resolver) (label : Option String)
    (priority : Int) : (chain.push resolver label priority).listing =
      insertBehind Prod.fst (priority, resolver.bare) chain.listing := by
  have same (link : Rank × Resolver) : Prod.fst (link.1.priority, link.2.bare) = standing link := rfl
  rw [listing, push_links ordered, map_insertBehind same]
  rfl

theorem Ordered.release (ordered : chain.Ordered) (label : Option String) :
    (chain.release label).Ordered := by
  cases label with
  | none => exact ordered
  | some label =>
      refine ⟨?_, ?_, fun link member => ?_⟩
      · simp only [Chain.release, Resolver.forgetLinks_eq_map, List.pairwise_map]
        refine ordered.sorted.imp fun {first later} before => ?_
        simpa only [inOrder, Rank.priority_forget, Rank.serial_forget] using before
      · simpa only [Chain.release, Resolver.forgetLinks_eq_map, List.map_map, Function.comp_def,
          Rank.serial_forget] using ordered.numbers
      · rw [Chain.release, Resolver.forgetLinks_eq_map] at member
        obtain ⟨before, known, rfl⟩ := List.mem_map.mp member
        rw [Rank.serial_forget]
        exact ordered.counted before known

theorem Ordered.listing_sorts (ordered : chain.Ordered) : Sorts chain.listing chain.listing :=
  .refl (List.pairwise_map.mpr ordered.descends)

end Chain

namespace Retrieval

theorem orElse_eq_after {first : Retrieval} (absent : first.answer = .ok .absent)
    (second : Retrieval) : first.orElse second = second.after first.reports := by
  unfold orElse
  rw [absent]

theorem orElse_eq_self {first : Retrieval} (known : first.answer ≠ .ok .absent)
    (second : Retrieval) : first.orElse second = first := by
  unfold orElse
  split
  · contradiction
  · rfl

theorem orElse_assoc (first second third : Retrieval) :
    (first.orElse second).orElse third = first.orElse (second.orElse third) := by
  by_cases absent : first.answer = .ok .absent
  · rw [orElse_eq_after absent, orElse_eq_after absent]
    by_cases also : second.answer = .ok .absent
    · have behind : (second.after first.reports).answer = .ok .absent := also
      rw [orElse_eq_after also, orElse_eq_after behind]
      simp only [after, List.append_assoc]
    · have behind : (second.after first.reports).answer ≠ .ok .absent := also
      rw [orElse_eq_self also, orElse_eq_self behind]
  · rw [orElse_eq_self absent, orElse_eq_self absent, orElse_eq_self absent]

theorem absent_orElse (retrieval : Retrieval) : Retrieval.absent.orElse retrieval = retrieval :=
  rfl

theorem orElse_absent (retrieval : Retrieval) : retrieval.orElse .absent = retrieval := by
  by_cases nothing : retrieval.answer = .ok .absent
  · rw [orElse_eq_after nothing]
    obtain ⟨reports, answer⟩ := retrieval
    cases nothing
    simp only [after, Retrieval.absent, found, List.append_nil]
  · exact orElse_eq_self nothing .absent

end Retrieval

mutual

/-- What a link comes to where the links of chains stand for the chains, depth first. -/
def Resolver.leaves (rank : Rank) : Resolver → List (Rank × Resolver)
  | .chain links => Resolver.leavesOf links
  | resolver => [(rank, resolver)]

def Resolver.leavesOf : List (Rank × Resolver) → List (Rank × Resolver)
  | [] => []
  | (rank, resolver) :: rest => Resolver.leaves rank resolver ++ Resolver.leavesOf rest

end

def Chain.leaves (chain : Chain) : Chain :=
  { chain with links := Resolver.leavesOf chain.links }

theorem Resolver.askLinks_append (tree : FileTree) (name : String)
    (first later : List (Rank × Resolver)) :
    askLinks tree name (first ++ later) =
      (askLinks tree name first).orElse (askLinks tree name later) := by
  induction first with
  | nil => exact (Retrieval.absent_orElse _).symm
  | cons link rest ih =>
      simp only [List.cons_append, askLinks, ih, Retrieval.orElse_assoc]

mutual

theorem Resolver.askLinks_leaves (tree : FileTree) (name : String) (rank : Rank) :
    (resolver : Resolver) → askLinks tree name (leaves rank resolver) = ask tree name resolver
  | .chain links => Resolver.askLinks_leavesOf tree name links
  | .mapping _ | .folders _ | .compiled _ | .constant _ => Retrieval.orElse_absent _

theorem Resolver.askLinks_leavesOf (tree : FileTree) (name : String) :
    (links : List (Rank × Resolver)) →
      askLinks tree name (leavesOf links) = askLinks tree name links
  | [] => rfl
  | (rank, resolver) :: rest => by
      rw [leavesOf, askLinks_append, Resolver.askLinks_leaves tree name rank resolver,
        Resolver.askLinks_leavesOf tree name rest, askLinks]

end

mutual

theorem Resolver.kind_of_mem_leaves {rank : Rank} {link : Rank × Resolver} :
    (resolver : Resolver) → link ∈ leaves rank resolver → link.2.kind ≠ .chain
  | .chain links, member => Resolver.kind_of_mem_leavesOf links member
  | .mapping _, member | .folders _, member | .compiled _, member | .constant _, member => by
      rw [List.mem_singleton.mp member]
      nofun

theorem Resolver.kind_of_mem_leavesOf {link : Rank × Resolver} :
    (links : List (Rank × Resolver)) → link ∈ leavesOf links → link.2.kind ≠ .chain
  | (rank, resolver) :: rest, member => by
      rcases List.mem_append.mp member with here | further
      · exact Resolver.kind_of_mem_leaves resolver here
      · exact Resolver.kind_of_mem_leavesOf rest further

end

theorem Chain.ask_leaves (tree : FileTree) (chain : Chain) :
    chain.leaves.ask tree = chain.ask tree :=
  funext fun name => Resolver.askLinks_leavesOf tree name chain.links

/-- The first link of a chain that fits, if there is any. -/
def Chain.IsFirst (fits : Resolver → Prop) (chain : Chain) : Option (Rank × Resolver) → Prop
  | none => ∀ link ∈ chain.links, ¬ fits link.2
  | some link => ∃ before behind, chain.links = before ++ link :: behind ∧ fits link.2 ∧
      ∀ earlier ∈ before, ¬ fits earlier.2

theorem Chain.isFirst_findKind? (kind : Option Resolver.Kind) (chain : Chain) :
    chain.IsFirst (fun resolver => resolver.isOf kind = true) (chain.findKind? kind) := by
  cases found : chain.findKind? kind with
  | none => exact fun link member => List.find?_eq_none.mp found link member
  | some link =>
      obtain ⟨here, before, behind, split, earlier⟩ := List.find?_eq_some_iff_append.mp found
      refine ⟨before, behind, split, here, fun other member fits => ?_⟩
      simpa [fits] using earlier other member

theorem Chain.hasKind_eq (kind : Option Resolver.Kind) (chain : Chain) :
    chain.hasKind kind = (chain.findKind? kind).isSome :=
  (List.isSome_find? ..).symm

namespace Session

variable {workspace : Workspace} {name : String} {number : Nat} {manager : Manager}

theorem manager?_setManager (known : workspace.manager? name = some (number, manager))
    (other : Manager) :
    (workspace.setManager number other).manager? name = some (number, other) := by
  obtain ⟨named, held⟩ := Workspace.manager?_eq_some_iff.mp known
  have within : number < workspace.managers.length := (List.getElem?_eq_some_iff.mp held).1
  exact Workspace.manager?_eq_some_iff.mpr ⟨named, List.getElem?_set_self within⟩

/-- What is no resolver is refused, and nothing has changed. -/
theorem perform_attach_refused (known : workspace.manager? name = some (number, manager))
    (value : Value) (label : Option String) (priority : Int) :
    perform name (.attach (.other value) label priority) workspace =
      .error (.fault (.notAResolver value.typeName)) workspace := by
  have refused : Work.attach name (.other value) label priority workspace =
      .error (.fault (.notAResolver value.typeName)) workspace :=
    bind_of_ok (Work.manager_of_known known)
  exact bind_of_error refused

theorem perform_attach_accepted (known : workspace.manager? name = some (number, manager))
    (resolver : Resolver) (label : Option String) (priority : Int) :
    ∃ after, perform name (.attach (.fitting resolver) label priority) workspace =
        .ok .nothing after ∧
      after.manager? name = some (number, { manager with
        chain := (manager.chain.release label).push resolver label priority }) := by
  let released : Workspace := { workspace with
    managers := workspace.managers.map fun manager =>
      { manager with chain := manager.chain.release label } }
  have still : released.manager? name =
      some (number, { manager with chain := manager.chain.release label }) := by
    obtain ⟨named, held⟩ := Workspace.manager?_eq_some_iff.mp known
    refine Workspace.manager?_eq_some_iff.mpr ⟨named, ?_⟩
    rw [List.getElem?_map, held, Option.map_some]
  have changed : Work.changeChains (Chain.release label) workspace = .ok () released := rfl
  let pushed := (manager.chain.release label).push resolver label priority
  have attached : Work.attach name (.fitting resolver) label priority workspace =
      .ok () (released.setManager number { manager with chain := pushed }) :=
    (bind_of_ok (Work.manager_of_known known)).trans ((bind_of_ok rfl).trans
      ((bind_of_ok changed).trans
        (Work.changeManager_of_known still fun manager => { manager with chain := pushed })))
  exact ⟨_, bind_of_ok attached, manager?_setManager still _⟩

/-- Something to be attached, with a label or without one. -/
structure Attempt where
  given : Given Resolver
  label : Option String
  priority : Int

/-- The resolvers that are there to be attached, in the order of the attempts. -/
def attached (attempts : List Attempt) : List (Int × Resolver) :=
  attempts.filterMap fun attempt =>
    match attempt.given with
    | .fitting resolver => some (attempt.priority, resolver.bare)
    | .other _ => none

def attachAll (name : String) (attempts : List Attempt) (workspace : Workspace) : Workspace :=
  attempts.foldl (fun workspace attempt => final (perform name
    (.attach attempt.given attempt.label attempt.priority) workspace)) workspace

theorem attachAll_sorts (known : workspace.manager? name = some (number, manager))
    (ordered : manager.chain.Ordered) {history : List (Int × Resolver)}
    (sorts : Sorts manager.chain.listing history) (attempts : List Attempt) :
    ∃ chain, (attachAll name attempts workspace).manager? name =
        some (number, { manager with chain }) ∧
      chain.Ordered ∧ Sorts chain.listing (history ++ attached attempts) := by
  induction attempts generalizing workspace manager history with
  | nil =>
      refine ⟨manager.chain, known, ordered, ?_⟩
      rw [attached, List.filterMap_nil, List.append_nil]
      exact sorts
  | cons attempt rest ih =>
      obtain ⟨given, label, priority⟩ := attempt
      cases given with
      | other value =>
          have refused := perform_attach_refused known value label priority
          have same : attachAll name (⟨.other value, label, priority⟩ :: rest) workspace =
              attachAll name rest workspace := by
            simp only [attachAll, List.foldl_cons, refused, final_error]
          rw [same]
          exact ih known ordered sorts
      | fitting resolver =>
          obtain ⟨after, accepted, still⟩ := perform_attach_accepted known resolver label priority
          have next : attachAll name (⟨.fitting resolver, label, priority⟩ :: rest) workspace =
              attachAll name rest after := by
            simp only [attachAll, List.foldl_cons, accepted, final_ok]
          have released := ordered.release label
          have grown : Sorts ((manager.chain.release label).push resolver label priority).listing
              (history ++ [(priority, resolver.bare)]) := by
            rw [Chain.listing_push released, Chain.listing_release]
            exact sorts.insert _
          obtain ⟨last, reached, ends, whole⟩ :=
            ih still (released.push resolver label priority) grown
          refine ⟨last, next ▸ reached, ends, ?_⟩
          rw [List.append_assoc] at whole
          exact whole

/-- Whatever is attached to a manager whose chain is in order, its chain has then what it had and
what could be attached, in the order of priority and, among equals, of attachment. What is no
resolver is refused without effect. A link of some kind, or of any, is looked up as the first one
of the chain. And every chain answers a name as the resolvers do that it comes to and that are no
chains, depth first: by the first of them that answers, if any does. -/
theorem attached_by_priority (known : workspace.manager? name = some (number, manager))
    (ordered : manager.chain.Ordered) (attempts : List Attempt) :
    let after := attachAll name attempts workspace
    (∀ value label priority, perform name (.attach (.other value) label priority) after =
      .error (.fault (.notAResolver value.typeName)) after) ∧
    (∀ resolver label priority, ∃ later,
      perform name (.attach (.fitting resolver) label priority) after = .ok .nothing later) ∧
    ∃ chain, after.manager? name = some (number, { manager with chain }) ∧
      chain.Ordered ∧ Sorts chain.listing (manager.chain.listing ++ attached attempts) ∧
      perform name .showChain after = .ok (.links (chain.links.map describe)) after ∧
      (∀ kind, ∃ found, perform name (.findLink kind) after =
          .ok (.link found.isSome (found.map describe)) after ∧
        chain.IsFirst (fun resolver => resolver.isOf kind = true) found) ∧
      ∀ nested : Chain, (∀ link ∈ nested.leaves.links, link.2.kind ≠ .chain) ∧
        ∀ tree template,
          (nested.ask tree template).answer = nested.leaves.firstAnswer tree template ∧
          ((nested.ask tree template).answer = .ok .absent ↔
            ∀ link ∈ nested.leaves.links, (link.2.ask tree template).answer = .ok .absent) := by
  intro after
  obtain ⟨chain, reached, still, sorts⟩ :=
    attachAll_sorts known ordered ordered.listing_sorts attempts
  have found := Work.manager_of_known reached
  refine ⟨perform_attach_refused reached, fun resolver label priority => ?_, chain, reached, still,
    sorts, bind_of_ok found, fun kind => ?_, fun nested => ?_⟩
  · obtain ⟨later, accepted, _⟩ := perform_attach_accepted reached resolver label priority
    exact ⟨later, accepted⟩
  · refine ⟨chain.findKind? kind, ?_, chain.isFirst_findKind? kind⟩
    rw [← Chain.hasKind_eq]
    exact bind_of_ok found
  · refine ⟨fun link => Resolver.kind_of_mem_leavesOf nested.links, fun tree template => ?_⟩
    have answered : (nested.ask tree template).answer =
        nested.leaves.firstAnswer tree template := by
      rw [← Chain.ask_leaves, Chain.answer_ask]
    refine ⟨answered, ?_⟩
    rw [answered, Chain.firstAnswer_eq_absent_iff]

/-- Two resolvers of one priority around one of a higher one, something that is no resolver, and a
chain that stands before all of them and does not know the name. The second of the two goes by the
label of the first. -/
theorem attached_by_priority_five :
    let templates (text : String) : Resolver := .mapping ⟨[("page", text)]⟩
    let attempts : List Attempt :=
      [⟨.fitting (templates "one"), some "a", 1⟩, ⟨.fitting (templates "two"), some "b", 7⟩,
       ⟨.other (.int 3), some "c", 9⟩, ⟨.fitting (templates "three"), some "a", 1⟩,
       ⟨.fitting (.chain [(⟨3, 0, none⟩, .constant .null), (⟨2, 1, none⟩, .chain [])]), some "d", 8⟩]
    let begun := (Workspace.empty .empty []).addManager "m" .standard
    let after := attachAll "m" attempts begun
    ∃ number manager, begun.manager? "m" = some (number, manager) ∧ manager.chain.Ordered ∧
      ∃ chain, after.manager? "m" = some (number, { manager with chain }) ∧
        Sorts chain.listing (manager.chain.listing ++ attached attempts) ∧
        chain.listing = [(8, .chain [(⟨3, 0, none⟩, .constant .null), (⟨2, 1, none⟩, .chain [])]),
          (7, templates "two"), (1, templates "one"), (1, templates "three"),
          (0, .folders .standard)] ∧
        (chain.ask .empty "page").answer = chain.leaves.firstAnswer .empty "page" := by
  intro templates attempts begun after
  have known : begun.manager? "m" = some (0, Manager.make .standard 0) := rfl
  have ordered : (Manager.make .standard 0).chain.Ordered := Chain.ordered_only _ _ _
  obtain ⟨_, _, chain, reached, still, sorts, _, _, nested⟩ :=
    attached_by_priority known ordered attempts
  have expected := ((((ordered.listing_sorts.insert (1, templates "one")).insert
    (7, templates "two")).insert (1, templates "three")).insert
      (8, .chain [(⟨3, 0, none⟩, .constant .null), (⟨2, 1, none⟩, .chain [])]))
  exact ⟨0, _, known, ordered, chain, reached, sorts, sorts.unique expected,
    ((nested chain).2 .empty "page").1⟩

end Session

end Logicless
