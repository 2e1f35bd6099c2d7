import Logicless.Resolver.Folders
import Mathlib.Data.List.Basic

namespace Logicless

/-!
Names of templates lead to no file outside the directories of templates.

A name becomes a path, and the path, seen from a directory, a place by text alone
(`Folders.candidate`). Directories in which that place lies outside are passed over. So the answer
is in the most recent directory with a file there (`Folders.Offers`), and trees in which the
directories have the same content give the same answer, whatever else is in them (`ask_contained`).
Names go through separators, suffixes, slashes and climbing segments before they are places; the law
does not depend on how, as only the place that comes out is compared with the directory.
-/

namespace Place

theorem mem_of_mem_normalize {segments : List String} {segment : String}
    (member : segment ∈ normalize segments) : segment ∈ segments := by
  suffices all : ∀ here : Place, segment ∈ segments.foldl step here →
      segment ∈ here ∨ segment ∈ segments from (all [] member).resolve_left (by simp)
  clear member
  induction segments with
  | nil => exact fun _ member => .inl member
  | cons first rest ih =>
      intro here member
      rcases ih _ member with stepped | later
      · simp only [step] at stepped
        split at stepped
        · exact .inl ((List.dropLast_sublist here).subset stepped)
        · rcases List.mem_append.mp stepped with before | new
          · exact .inl before
          · exact .inr (List.mem_cons.mpr (.inl (List.mem_singleton.mp new)))
      · exact .inr (.tail _ later)

theorem step_of_ne {segment : String} (here : Place) (other : segment ≠ "..") :
    here.step segment = here ++ [segment] := by
  simp only [step, beq_iff_eq, if_neg other]

theorem isWithin_iff (base place : Place) : base.isWithin place = true ↔ base <+: place :=
  List.isPrefixOf_iff_prefix

end Place

theorem Path.hasZero_ofPlace_normalize {path : Path} {base : Place}
    (named : path.hasZero = false) (above : (ofPlace base).hasZero = false) :
    (ofPlace (Place.normalize (path.segmentsFrom base))).hasZero = false := by
  simp only [hasZero, ofPlace, List.any_eq_false] at named above ⊢
  intro segment member
  have written := Place.mem_of_mem_normalize member
  unfold segmentsFrom at written
  split at written
  · exact named segment written
  · rcases List.mem_append.mp written with before | behind
    · exact above segment before
    · exact named segment behind

namespace FileTree

/-- Whether everything above a place is a directory. -/
def Leads (tree : FileTree) (place : Place) : Prop :=
  ∀ above, above <+: place → above ≠ place → tree.entry above = .directory

/-- Whether a directory is at a place, and its name can be written. -/
structure Stands (tree : FileTree) (place : Place) : Prop where
  leads : tree.Leads place
  directory : tree.entry place = .directory
  named : (Path.ofPlace place).hasZero = false

/-- Whether a file is at a place, and what is in it. -/
structure Holds (tree : FileTree) (place : Place) (content : List UInt8) : Prop where
  leads : tree.Leads place
  file : tree.entry place = .file content

/-- Whether trees have the same files and directories below a place. -/
def AgreeBelow (tree other : FileTree) (place : Place) : Prop :=
  ∀ below, below ≠ [] → tree.entry (place ++ below) = other.entry (place ++ below)

variable {tree other : FileTree} {here place : Place} {segments : List String}

theorem Leads.step (leads : tree.Leads here) (directory : tree.entry here = .directory)
    (segment : String) : tree.Leads (here.step segment) := by
  intro above within different
  simp only [Place.step] at within different
  split at within
  · rename_i climbs
    rw [if_pos climbs] at different
    have whole := within.trans (List.dropLast_prefix here)
    by_cases same : above = here
    · exact same ▸ directory
    · exact leads above whole same
  · rename_i descends
    rw [if_neg descends] at different
    rcases List.prefix_concat_iff.mp within with same | before
    · exact absurd same different
    · by_cases same : above = here
      · exact same ▸ directory
      · exact leads above before same

/-- Following segments ends where they lead by text alone, below directories only. -/
theorem follow_leads (leads : tree.Leads here)
    (followed : tree.follow here segments = .ok (some place)) :
    place = segments.foldl Place.step here ∧ tree.Leads place := by
  induction segments generalizing here with
  | nil =>
      simp only [follow, Except.ok.injEq, Option.some.injEq] at followed
      subst followed
      exact ⟨rfl, leads⟩
  | cons segment rest ih =>
      simp only [follow] at followed
      split at followed
      · cases followed
      · rename_i directory
        split at followed
        · cases followed
        · refine ih (leads.step ?_ segment) followed
          cases entry : tree.entry here <;> simp [entry, Entry.isDirectory] at directory ⊢

/-- Segments that do not climb are followed down, unless one of them is too long. -/
theorem follow_down (here : Place) (descends : ".." ∉ segments)
    (leads : tree.Leads (here ++ segments)) :
    (∃ flaw, tree.follow here segments = .error flaw ∧
      ∃ segment ∈ segments, isTooLong segment = true) ∨
    tree.follow here segments = .ok (some (here ++ segments)) := by
  induction segments generalizing here with
  | nil => exact .inr (by simp [follow])
  | cons segment rest ih =>
      simp only [List.mem_cons, not_or] at descends
      have directory : tree.entry here = .directory :=
        leads here (List.prefix_append _ _) (by simp)
      have notMissing : ¬ (!(tree.entry here).isDirectory) = true := by
        simp [directory, Entry.isDirectory]
      simp only [follow, if_neg notMissing]
      split
      · rename_i long
        exact .inl ⟨_, rfl, segment, .head _, long⟩
      · rw [Place.step_of_ne here (Ne.symm descends.1)]
        have onward : here ++ segment :: rest = here ++ [segment] ++ rest := by simp
        rw [onward] at leads ⊢
        rcases ih _ descends.2 leads with ⟨flaw, failed, long, member, tooLong⟩ | followed
        · exact .inl ⟨flaw, failed, long, .tail _ member, tooLong⟩
        · exact .inr followed

theorem follow_congr (descends : ".." ∉ segments)
    (same : ∀ above, above <+: here ++ segments → tree.entry above = other.entry above) :
    tree.follow here segments = other.follow here segments := by
  induction segments generalizing here with
  | nil => rfl
  | cons segment rest ih =>
      simp only [List.mem_cons, not_or] at descends
      have onward : here ++ segment :: rest = here ++ [segment] ++ rest := by simp
      simp only [follow, same here (List.prefix_append _ _),
        Place.step_of_ne here (Ne.symm descends.1)]
      rw [ih descends.2 (onward ▸ same)]

theorem foldl_step (descends : ".." ∉ segments) (here : Place) :
    segments.foldl Place.step here = here ++ segments := by
  induction segments generalizing here with
  | nil => simp
  | cons segment rest ih =>
      simp only [List.mem_cons, not_or] at descends
      rw [List.foldl_cons, Place.step_of_ne here (Ne.symm descends.1), ih descends.2]
      simp

theorem leads_root (tree : FileTree) : tree.Leads [] :=
  fun _ within different => absurd (List.prefix_nil.mp within) different

/-- What is found at a path lies where the path leads by text alone. -/
theorem entryAt_found {base : Place} {path : Path} {entry : Entry} (present : entry ≠ .missing)
    (found : tree.entryAt base path = .ok entry) :
    path.hasZero = false ∧ tree.Leads (Place.normalize (path.segmentsFrom base)) ∧
      tree.entry (Place.normalize (path.segmentsFrom base)) = entry := by
  unfold entryAt at found
  split at found
  · cases found
    contradiction
  · rename_i named
    refine ⟨by simpa using named, ?_⟩
    unfold access at found
    split at found
    · cases found
    · unfold reach at found
      split at found
      · cases found
      · cases found
        contradiction
      · rename_i followed
        obtain ⟨same, leads⟩ := follow_leads tree.leads_root followed
        rw [Place.normalize, ← same]
        exact ⟨leads, Except.ok.inj found⟩

/-- A file is found at its place, unless its path cannot be looked up. -/
theorem entryAt_of_holds {content : List UInt8} (descends : ".." ∉ place)
    (named : (Path.ofPlace place).hasZero = false) (holds : tree.Holds place content) :
    (∃ flaw, tree.entryAt [] (.ofPlace place) = .error flaw) ∨
      tree.entryAt [] (.ofPlace place) = .ok (.file content) := by
  have segments : (Path.ofPlace place).segmentsFrom [] = place := rfl
  have unnamed : ¬ (Path.ofPlace place).hasZero = true := by simp [named]
  simp only [entryAt, if_neg unnamed, access]
  cases (Path.ofPlace place).flaw? with
  | some flaw => exact .inl ⟨flaw, rfl⟩
  | none =>
      simp only [segments, reach]
      rcases follow_down [] descends holds.leads with ⟨flaw, failed, _⟩ | followed
      · exact .inl ⟨flaw, by rw [failed]⟩
      · rw [followed]
        exact .inr (congrArg Except.ok holds.file)

/-- Whether a path can be looked up whatever is there. -/
structure Readable (place : Place) : Prop where
  flawless : (Path.ofPlace place).flaw? = none
  short : ∀ segment ∈ place, isTooLong segment = false

theorem entryAt_readable (tree : FileTree) (readable : Readable place) :
    ∃ entry, tree.entryAt [] (.ofPlace place) = .ok entry := by
  have segments : (Path.ofPlace place).segmentsFrom [] = place := rfl
  suffices followed : ∀ (here : Place) (rest : List String),
      (∀ segment ∈ rest, isTooLong segment = false) →
      ∃ reached, tree.follow here rest = .ok reached by
    obtain ⟨reached, followed⟩ := followed [] place readable.short
    unfold entryAt
    split
    · exact ⟨_, rfl⟩
    · simp only [access, readable.flawless, segments, reach, followed]
      cases reached with
      | none => exact ⟨_, rfl⟩
      | some place => exact ⟨_, rfl⟩
  intro here rest short
  induction rest generalizing here with
  | nil => exact ⟨_, rfl⟩
  | cons segment rest ih =>
      rw [List.forall_mem_cons] at short
      simp only [follow]
      split
      · exact ⟨_, rfl⟩
      · rw [if_neg (by simp [short.1])]
        exact ih _ short.2

theorem entryAt_congr (descends : ".." ∉ place)
    (same : ∀ above, above <+: place → tree.entry above = other.entry above) :
    tree.entryAt [] (.ofPlace place) = other.entryAt [] (.ofPlace place) := by
  have segments : (Path.ofPlace place).segmentsFrom [] = place := rfl
  have followed : tree.follow [] place = other.follow [] place := follow_congr descends same
  have reached : tree.reach place = other.reach place := by
    simp only [reach, followed]
    cases ends : other.follow [] place with
    | error flaw => rfl
    | ok last =>
        cases last with
        | none => rfl
        | some last =>
            obtain ⟨there, _⟩ := follow_leads other.leads_root ends
            rw [foldl_step descends, List.nil_append] at there
            simp only [there, same place (List.prefix_refl _)]
  simp only [entryAt, access, segments, reached]

end FileTree

theorem Retrieval.orElse_of_absent {first second : Retrieval} (absent : first.answer = .ok .absent) :
    (first.orElse second).answer = second.answer := by
  simp only [orElse, absent]
  rfl

theorem Retrieval.orElse_of_ne {first second : Retrieval} (known : first.answer ≠ .ok .absent) :
    first.orElse second = first := by
  unfold orElse
  split
  · contradiction
  · rfl

namespace Folders

/-- The place that a name stands for in a directory. -/
def candidate (folders : Folders) (name : String) (place : Place) : Place :=
  Place.normalize ((folders.fileOf name).segmentsFrom place)

/-- Whether a name stands for a file below a directory, and what is in it. -/
structure Offers (folders : Folders) (tree : FileTree) (name : String) (place : Place)
    (content : List UInt8) : Prop where
  within : place <+: folders.candidate name place
  below : folders.candidate name place ≠ place
  holds : tree.Holds (folders.candidate name place) content

/-- Whether a name can be looked up in all directories, and all files that it stands for can be
read. -/
structure Legible (folders : Folders) (tree : FileTree) (name : String) : Prop where
  named : (folders.fileOf name).hasZero = false
  readable : ∀ place ∈ folders.places, place <+: folders.candidate name place →
    FileTree.Readable (folders.candidate name place)
  decoded : ∀ place ∈ folders.places, ∀ content, folders.Offers tree name place content →
    ∃ chars, Text.decodeUtf8 content = .ok chars

variable {folders : Folders} {tree other : FileTree} {name : String} {place : Place}
  {content : List UInt8}

theorem descends_candidate (folders : Folders) (name : String) (place : Place) :
    ".." ∉ folders.candidate name place :=
  Place.not_mem_normalize _

theorem textOf_ne_absent (content : List UInt8) : textOf content ≠ .ok .absent := by
  unfold textOf
  split <;> simp

/-- What is added stands. -/
theorem add_stands {base : Place} {path : Path} {more : Folders}
    (stands : ∀ place ∈ folders.places, tree.Stands place)
    (above : (Path.ofPlace base).hasZero = false)
    (added : folders.add tree base path = .ok more) : ∀ place ∈ more.places, tree.Stands place := by
  unfold add at added
  split at added
  · cases added
  · rename_i found
    cases added
    obtain ⟨named, leads, directory⟩ := FileTree.entryAt_found (by simp) found
    refine List.forall_mem_cons.mpr ⟨⟨leads, directory, ?_⟩, stands⟩
    exact Path.hasZero_ofPlace_normalize named above
  · cases added

/-- The answer of one directory. -/
inductive Asked (folders : Folders) (tree : FileTree) (name : String) (place : Place) :
    Except Fault Answer → Prop where
  | failed {flaw : FileFlaw}
      (illegible : (folders.fileOf name).hasZero = true ∨ place <+: folders.candidate name place ∧
        ¬ FileTree.Readable (folders.candidate name place)) :
      Asked folders tree name place (.error (.file flaw))
  | offered {content : List UInt8} (offers : folders.Offers tree name place content) :
      Asked folders tree name place (textOf content)
  | passed (nothing : ∀ content, ¬ folders.Offers tree name place content) :
      Asked folders tree name place (.ok .absent)

theorem asked (stands : tree.Stands place) (folders : Folders) (name : String) :
    folders.Asked tree name place (askPlace tree name (folders.fileOf name) place).answer := by
  unfold askPlace
  extract_lets candidate shown
  have same : candidate = Path.ofPlace (folders.candidate name place) := rfl
  have segments : candidate.segments = folders.candidate name place := rfl
  split
  · rename_i zero
    exact .failed (.inl zero)
  · rename_i noZero
    have named : candidate.hasZero = false :=
      Path.hasZero_ofPlace_normalize (by simpa using noZero) stands.named
    split
    · rename_i inside
      rw [segments, Place.isWithin_iff] at inside
      cases found : tree.entryAt [] candidate with
      | error flaw =>
          refine .failed (.inr ⟨inside, fun readable => ?_⟩)
          obtain ⟨entry, read⟩ := FileTree.entryAt_readable tree readable
          rw [← same, found] at read
          cases read
      | ok entry =>
          -- a file is found where it lies
          have holds (content : List UInt8) (offers : folders.Offers tree name place content) :
              entry = .file content := by
            have read := FileTree.entryAt_of_holds (folders.descends_candidate name place)
              (same ▸ named) offers.holds
            rw [← same, found] at read
            simpa using read
          cases entry with
          | missing | directory => exact .passed fun content offers => nomatch holds content offers
          | file content =>
              obtain ⟨_, leads, file⟩ := FileTree.entryAt_found (by simp) found
              have there : Place.normalize (candidate.segmentsFrom []) =
                  folders.candidate name place :=
                (FileTree.foldl_step (folders.descends_candidate name place) []).trans rfl
              rw [there] at leads file
              refine .offered ⟨inside, fun itself => ?_, leads, file⟩
              rw [itself, stands.directory] at file
              cases file
    · rename_i outside
      rw [segments, Place.isWithin_iff] at outside
      exact .passed fun content offers => outside offers.within

theorem askPlace_congr (stands : tree.Stands place) (alsoStands : other.Stands place)
    (agree : tree.AgreeBelow other place) (folders : Folders) (name : String) :
    askPlace tree name (folders.fileOf name) place =
      askPlace other name (folders.fileOf name) place := by
  unfold askPlace
  extract_lets candidate shown
  split
  · rfl
  · split
    · rename_i inside
      rw [Place.isWithin_iff] at inside
      have reached : tree.entryAt [] candidate = other.entryAt [] candidate := by
        refine FileTree.entryAt_congr (folders.descends_candidate name place) fun above within => ?_
        -- on the way to the directory there are directories only, and behind it trees agree
        rcases List.prefix_or_prefix_of_prefix within inside with before | behind
        · by_cases itself : above = place
          · rw [itself, stands.directory, alsoStands.directory]
          · rw [stands.leads above before itself, alsoStands.leads above before itself]
        · obtain ⟨below, rfl⟩ := behind
          by_cases itself : below = []
          · rw [itself, List.append_nil, stands.directory, alsoStands.directory]
          · exact agree below itself
      rw [reached]
    · rfl

theorem nothing_of_absent (stands : tree.Stands place)
    (absent : (askPlace tree name (folders.fileOf name) place).answer = .ok .absent)
    (content : List UInt8) : ¬ folders.Offers tree name place content := by
  have asked := asked stands folders name
  generalize (askPlace tree name (folders.fileOf name) place).answer = answer at asked absent
  cases asked with
  | failed => cases absent
  | offered => exact absurd absent (textOf_ne_absent _)
  | passed nothing => exact nothing content

theorem offers_of_text (stands : tree.Stands place) {text : String}
    (answered : (askPlace tree name (folders.fileOf name) place).answer = .ok (.text text)) :
    ∃ content, folders.Offers tree name place content ∧ textOf content = .ok (.text text) := by
  have asked := asked stands folders name
  generalize (askPlace tree name (folders.fileOf name) place).answer = answer at asked answered
  cases asked with
  | failed => cases answered
  | offered offers => exact ⟨_, offers, answered⟩
  | passed => cases answered

theorem Legible.answers (legible : folders.Legible tree name) (member : place ∈ folders.places)
    (stands : tree.Stands place) :
    (askPlace tree name (folders.fileOf name) place).answer = .ok .absent ∨
      ∃ content text, folders.Offers tree name place content ∧
        (askPlace tree name (folders.fileOf name) place).answer = .ok (.text text) := by
  have asked := asked stands folders name
  generalize (askPlace tree name (folders.fileOf name) place).answer = answer at asked ⊢
  cases asked with
  | failed illegible =>
      rcases illegible with zero | ⟨within, unreadable⟩
      · rw [legible.named] at zero
        cases zero
      · exact absurd (legible.readable place member within) unreadable
  | offered offers =>
      obtain ⟨chars, decoded⟩ := legible.decoded place member _ offers
      exact .inr ⟨_, _, offers, by rw [textOf, decoded]⟩
  | passed => exact .inl rfl

/-- The first directory that does not pass a name on settles the answer. -/
theorem ask_cases (folders : Folders) (tree : FileTree) (name : String) :
    let asked := fun place => (askPlace tree name (folders.fileOf name) place).answer
    (folders.ask tree name).answer = .ok .absent ∧
      (∀ place ∈ folders.places, asked place = .ok .absent) ∨
    ∃ newer place older, folders.places = newer ++ place :: older ∧
      (∀ former ∈ newer, asked former = .ok .absent) ∧ asked place ≠ .ok .absent ∧
        (folders.ask tree name).answer = asked place := by
  intro asked
  unfold ask
  induction folders.places with
  | nil => exact .inl ⟨rfl, nofun⟩
  | cons place rest ih =>
      rw [List.foldr_cons]
      by_cases absent : asked place = .ok .absent
      · rw [Retrieval.orElse_of_absent absent]
        rcases ih with ⟨ended, all⟩ | ⟨newer, first, older, split, former, known, ended⟩
        · exact .inl ⟨ended, List.forall_mem_cons.mpr ⟨absent, all⟩⟩
        · refine .inr ⟨place :: newer, first, older, by rw [split]; rfl, ?_, known, ended⟩
          exact List.forall_mem_cons.mpr ⟨absent, former⟩
      · rw [Retrieval.orElse_of_ne absent]
        exact .inr ⟨[], place, rest, rfl, nofun, absent, rfl⟩

/-- Trees that agree below the directories give the same answer to every name. A text is that of the
file in the most recent directory that has one for the name, below the directory. If the name and
the files can be read, a name has either a text or no answer, the latter where no directory has a
file for it. -/
theorem ask_contained (folders : Folders) (tree : FileTree)
    (stands : ∀ place ∈ folders.places, tree.Stands place) (name : String) :
    (∀ other : FileTree,
      (∀ place ∈ folders.places, other.Stands place ∧ tree.AgreeBelow other place) →
        folders.ask other name = folders.ask tree name) ∧
    (∀ text, (folders.ask tree name).answer = .ok (.text text) →
      ∃ newer place older content, folders.places = newer ++ place :: older ∧
        (∀ former ∈ newer, ∀ content, ¬ folders.Offers tree name former content) ∧
        folders.Offers tree name place content ∧ textOf content = .ok (.text text)) ∧
    (folders.Legible tree name →
      ((folders.ask tree name).answer = .ok .absent ↔
        ∀ place ∈ folders.places, ∀ content, ¬ folders.Offers tree name place content) ∧
      ((folders.ask tree name).answer = .ok .absent ∨
        ∃ text, (folders.ask tree name).answer = .ok (.text text))) := by
  have cases := folders.ask_cases tree name
  refine ⟨fun other agree => ?_, fun text answered => ?_, fun legible => ?_⟩
  · unfold ask
    refine List.foldr_ext _ _ _ fun place member later => ?_
    obtain ⟨alsoStands, below⟩ := agree place member
    rw [askPlace_congr (stands place member) alsoStands below]
  · rcases cases with ⟨absent, _⟩ | ⟨newer, place, older, split, former, _, ended⟩
    · rw [absent] at answered
      cases answered
    · have here : place ∈ folders.places := by simp [split]
      obtain ⟨content, offers, given⟩ := offers_of_text (stands place here) (ended ▸ answered)
      refine ⟨newer, place, older, content, split, fun before member => ?_, offers, given⟩
      exact nothing_of_absent (stands before (by simp [split, member])) (former before member)
  · rcases cases with ⟨absent, all⟩ | ⟨newer, place, older, split, _, known, ended⟩
    · refine ⟨⟨fun _ place member => ?_, fun _ => absent⟩, .inl absent⟩
      exact nothing_of_absent (stands place member) (all place member)
    · have here : place ∈ folders.places := by simp [split]
      rcases legible.answers here (stands place here) with absent | ⟨content, text, offers, given⟩
      · exact absurd absent known
      · refine ⟨⟨fun absent => absurd (ended.symm.trans absent) known, fun nothing => ?_⟩,
          .inr ⟨text, ended.trans given⟩⟩
        exact absurd offers (nothing place here content)

/-- A separator that is read as a slash: a name that climbs out of the directory and comes back, and
one that does not come back. -/
theorem ask_contained_climbing :
    let page : FileTree := (FileTree.empty.set ["t"] .directory).set ["t", "a"] (.file [120])
    let tree : FileTree := page.set ["secret"] (.file [121])
    let folders : Folders := ⟨[["t"]], "", "-"⟩
    (make "" "-").add tree [] (.ofPlace ["t"]) = .ok folders ∧
      (folders.ask tree "b-..-..-t-a").answer = .ok (.text "x") ∧
      (∃ content, folders.Offers tree "b-..-..-t-a" ["t"] content) ∧
      folders.ask page "..-secret" = folders.ask tree "..-secret" ∧
      (folders.ask tree "..-secret").answer = .ok .absent := by
  have answered : (ask ⟨[["t"]], "", "-"⟩ (((FileTree.empty.set ["t"] .directory).set ["t", "a"]
      (.file [120])).set ["secret"] (.file [121])) "b-..-..-t-a").answer = .ok (.text "x") := by
    rfl
  have outside : ∀ place ∈ [["t"]],
      ¬ place <+: candidate ⟨[["t"]], "", "-"⟩ "..-secret" place := by
    decide
  have named : (fileOf ⟨[["t"]], "", "-"⟩ "..-secret").hasZero = false := by decide
  intro page tree folders
  have empty (tree : FileTree) : ∀ place ∈ (make "" "-").places, tree.Stands place := by simp [make]
  have added : (make "" "-").add tree [] (.ofPlace ["t"]) = .ok folders := rfl
  have alsoAdded : (make "" "-").add page [] (.ofPlace ["t"]) = .ok folders := rfl
  have stands := add_stands (empty tree) rfl added
  have agree : ∀ place ∈ folders.places, page.Stands place ∧ tree.AgreeBelow page place := by
    refine fun place member => ⟨add_stands (empty page) rfl alsoAdded place member, ?_⟩
    cases List.mem_singleton.mp member
    exact fun below _ => page.entry_set_of_ne (by simp) _
  have nothing (place : Place) (member : place ∈ folders.places) (content : List UInt8) :
      ¬ folders.Offers tree "..-secret" place content :=
    fun offers => outside place member offers.within
  have legible : folders.Legible tree "..-secret" :=
    ⟨named, fun place member within => absurd within (outside place member),
      fun place member content offers => absurd offers (nothing place member content)⟩
  have climbing := ask_contained folders tree stands "b-..-..-t-a"
  have escaping := ask_contained folders tree stands "..-secret"
  obtain ⟨newer, place, older, content, split, _, offers, _⟩ := climbing.2.1 "x" answered
  have only : place ∈ folders.places := split ▸ List.mem_append_right newer (List.mem_cons_self ..)
  cases List.mem_singleton.mp only
  exact ⟨added, answered, ⟨content, offers⟩, escaping.1 page agree,
    (escaping.2.2 legible).1.mpr nothing⟩

end Folders

end Logicless
