import Mathlib.Data.Set.Card
import Mathlib.Data.Set.Finite.Lattice
import Mathlib.Logic.Relation
import Logicless.Proofs.Inheritance
import Logicless.Proofs.Reading
import Logicless.Resolver

namespace Logicless

/-!
In a finite store of templates without cycles of inheritance, all lines of inheritance are bounded.

The parents of a text are parts of it (`infix_of_mem_parents`). A chain of resolvers over finitely
many files knows finitely many texts (`Chain.stocked`), so finitely many templates have a child
among them. Where none of these inherits from itself, a line of them is no longer than their number,
and a line of texts that are compiled as they stand no longer than the first of them. That gives a
bound for all templates at once (`exists_limit`).
-/

namespace Text

theorem strip_infix (text : List Char) : strip text <:+: text := by
  have front : text.dropWhile isBlank <:+ text := List.dropWhile_suffix _
  have back : strip text <+: text.dropWhile isBlank := by
    rw [← List.reverse_suffix, strip, List.reverse_reverse]
    exact List.dropWhile_suffix _
  exact back.isInfix.trans front.isInfix

end Text

theorem Sigil.bodyOf_infix (sigil : Sigil) (written : List Char) :
    sigil.bodyOf written <:+: written := by
  unfold bodyOf
  split
  · exact Text.strip_infix written
  · exact (Text.strip_infix _).trans (List.drop_suffix 1 written).isInfix

namespace Scan

theorem Reads.body_infix {delimiters next : Delimiters} {text chunk : List Char} {raw : RawTag}
    (reads : Reads delimiters text chunk raw next) :
    raw.body <:+: text ∧ raw.body.length < text.length := by
  obtain ⟨inner, accepts⟩ := reads.accepts
  obtain ⟨written, rest, _, body, literal⟩ := accepts.closed
  have inside : raw.body <:+: written := body ▸ raw.sigil.bodyOf_infix written
  have whole : text = chunk ++ delimiters.opening ++ written ++
      (raw.sigil.ending ++ delimiters.closing ++ raw.rest) := by
    rw [reads.whole, literal]
    simp only [List.append_assoc]
  have around : written <:+: text := ⟨_, _, whole.symm⟩
  have solid := List.length_pos_iff.mpr delimiters.opening_ne_nil
  have size := congrArg List.length whole
  have shorter := inside.length_le
  simp only [List.length_append] at size
  exact ⟨inside.trans around, by omega⟩

theorem body_infix {delimiters : Delimiters} {fresh : Bool} {position : Position}
    {text : List Char} {tag : Tag}
    (member : tag ∈ (ofTextFrom delimiters fresh position text).tags) :
    tag.body.toList <:+: text ∧ tag.body.toList.length < text.length := by
  generalize scanned : ofTextFrom delimiters fresh position text = scan at member
  induction scan generalizing delimiters fresh position text with
  | finished chunk => simp [tags] at member
  | broken chunk flaw => simp [tags] at member
  | tagged before first rest ih =>
      obtain ⟨chunk, raw, next, reads, _, same, later⟩ := exists_reads scanned
      rcases List.mem_cons.mp member with here | further
      · have body : tag.body.toList = raw.body := by
          rw [here, same]
          unfold settle
          split
          · split <;> exact String.toList_ofList
          · exact String.toList_ofList
        rw [body]
        exact reads.body_infix
      · obtain ⟨inside, shorter⟩ := ih later further
        have whole := source_settle fresh chunk raw (position.past chunk)
        rw [← reads.whole] at whole
        have behind : (settle fresh chunk raw (position.past chunk)).after <:+: text :=
          ⟨_, [], by rw [List.append_nil]; exact whole⟩
        exact ⟨inside.trans behind, Nat.lt_of_lt_of_le shorter behind.length_le⟩

theorem infix_of_mem_parents {text name : String}
    (asked : name ∈ (ofText text.toList).parents []) :
    name.toList <:+: text.toList ∧ name.length < text.length := by
  obtain ⟨tag, member, rfl⟩ := exists_tag_of_mem_parents asked
  exact body_infix member

end Scan

namespace Source

/-- The texts that somebody has stored under a name. -/
def texts (source : Source) : Set String :=
  {text | ∃ name, (source name).answer = .ok (.text text)}

/-- The templates that may be the parent of a stored one. -/
def ancestors (source : Source) : Set String :=
  {name | ∃ text ∈ source.texts, name.toList <:+: text.toList}

end Source

def Acyclic (source : Source) : Prop :=
  ∀ template, ¬ Relation.TransGen (Inherits source) template template

section

variable {source : Source}

theorem finite_parts {texts : Set String} (finite : texts.Finite) :
    {name : String | ∃ text ∈ texts, name.toList <:+: text.toList}.Finite := by
  have parts : {name : String | ∃ text ∈ texts, name.toList <:+: text.toList} ⊆
      ⋃ text ∈ texts, {name | name ∈ text.toList.sublists.map String.ofList} := by
    rintro name ⟨text, stored, inside⟩
    simp only [Set.mem_iUnion, Set.mem_ofPred_eq, List.mem_map, List.mem_sublists]
    exact ⟨text, stored, name.toList, inside.sublist, String.ofList_toList⟩
  refine (finite.biUnion fun text _ => ?_).subset parts
  exact List.finite_toSet _

theorem Source.finite_ancestors (finite : source.texts.Finite) : source.ancestors.Finite :=
  finite_parts finite

theorem Inherits.mem_ancestors {template parent : String}
    (inherits : Inherits source template parent)
    (known : isTemplateText template = true → template ∈ source.ancestors) :
    parent ∈ source.ancestors := by
  obtain ⟨text, spells, asked⟩ := inherits
  obtain ⟨inside, _⟩ := Scan.infix_of_mem_parents asked
  unfold Spells at spells
  split at spells
  · rename_i plain
    subst spells
    obtain ⟨whole, stored, within⟩ := known plain
    exact ⟨whole, stored, inside.trans within⟩
  · exact ⟨text, ⟨template, spells⟩, inside⟩

/-- The templates that a template inherits from, directly or through others. -/
def lineage (source : Source) (template : String) : Set String :=
  {ancestor | Relation.TransGen (Inherits source) template ancestor}

theorem lineage_subset {template : String} (known : template ∈ source.ancestors) :
    lineage source template ⊆ source.ancestors := by
  intro ancestor reached
  induction reached with
  | single inherits => exact inherits.mem_ancestors fun _ => known
  | tail _ inherits ih => exact inherits.mem_ancestors fun _ => ih

theorem endsWithin_of_lineage (acyclic : Acyclic source) (finite : source.texts.Finite)
    (count : Nat) {template : String} (known : template ∈ source.ancestors)
    (few : (lineage source template).ncard < count) : EndsWithin source count template := by
  induction count generalizing template with
  | zero => exact absurd few (Nat.not_lt_zero _)
  | succ count ih =>
      intro parent inherits
      have bounded : (lineage source template).Finite :=
        (Source.finite_ancestors finite).subset (lineage_subset known)
      -- the parent is an ancestor of the template, but not of itself
      have smaller : lineage source parent ⊂ lineage source template := by
        refine ⟨fun ancestor reached => .head inherits reached, fun same => acyclic parent ?_⟩
        exact same (.single inherits)
      have fewer := Set.ncard_lt_ncard smaller bounded
      exact ih (inherits.mem_ancestors fun _ => known) (by omega)

/-- One bound for all templates, that of a text growing with its length. -/
theorem exists_limit (acyclic : Acyclic source) (finite : source.texts.Finite) :
    ∃ limit, ∀ template : String, EndsWithin source (limit + template.length) template := by
  have stored (template : String) (known : template ∈ source.ancestors) :
      EndsWithin source (source.ancestors.ncard + 1) template := by
    refine endsWithin_of_lineage acyclic finite _ known (Nat.lt_succ_of_le ?_)
    exact Set.ncard_le_ncard (lineage_subset known) (Source.finite_ancestors finite)
  refine ⟨source.ancestors.ncard + 2, fun template => ?_⟩
  induction size : template.length using Nat.strongRecOn generalizing template with
  | ind length ih =>
      by_cases plain : isTemplateText template = true
      · have shorter {parent : String} (inherits : Inherits source template parent) :
            parent.length < length := by
          obtain ⟨text, spells, asked⟩ := inherits
          rw [Spells, if_pos plain] at spells
          subst spells
          exact size ▸ (Scan.infix_of_mem_parents asked).2
        cases length with
        | zero => exact fun parent inherits => absurd (shorter inherits) (Nat.not_lt_zero _)
        | succ length =>
            intro parent inherits
            have less := shorter inherits
            refine (ih parent.length less parent rfl).mono ?_
            exact Nat.add_le_add_left (Nat.le_of_lt_succ less) _
      · refine EndsWithin.mono ?_ (Nat.le_add_right _ length)
        intro parent inherits
        exact stored parent (inherits.mem_ancestors fun text => absurd text plain)

end

/-- Where names have ranks that fall from a template to its parents, which are names as well, no
template inherits from itself. -/
theorem acyclic_of_rank {source : Source} (rank : String → Nat)
    (falls : ∀ name parent, isTemplateText name = false → Inherits source name parent →
      isTemplateText parent = false ∧ rank parent < rank name) : Acyclic source := by
  intro template cycle
  by_cases plain : isTemplateText template = true
  · have inside {ancestor : String}
        (reached : Relation.TransGen (Inherits source) template ancestor) :
        isTemplateText ancestor = true → ancestor.length < template.length := by
      intro text
      induction reached with
      | single inherits =>
          obtain ⟨whole, spells, asked⟩ := inherits
          rw [Spells, if_pos plain] at spells
          subst spells
          exact (Scan.infix_of_mem_parents asked).2
      | @tail middle parent reached inherits ih =>
          by_cases name : isTemplateText middle = true
          · obtain ⟨whole, spells, asked⟩ := inherits
            rw [Spells, if_pos name] at spells
            subst spells
            exact Nat.lt_trans (Scan.infix_of_mem_parents asked).2 (ih name)
          · have named := (falls middle parent (by simpa using name) inherits).1
            rw [named] at text
            contradiction
    exact Nat.lt_irrefl _ (inside cycle plain)
  · have lower {ancestor : String}
        (reached : Relation.TransGen (Inherits source) template ancestor) :
        isTemplateText ancestor = false ∧ rank ancestor < rank template := by
      induction reached with
      | single inherits => exact falls _ _ (by simpa using plain) inherits
      | tail _ inherits ih =>
          obtain ⟨named, less⟩ := ih
          obtain ⟨still, further⟩ := falls _ _ named inherits
          exact ⟨still, Nat.lt_trans further less⟩
    exact Nat.lt_irrefl _ (lower cycle).2

/-- A source of finitely many texts, whose failures are never those of a line without end. -/
structure Source.Stocked (source : Source) : Prop where
  finite : source.texts.Finite
  ends : ∀ name, (source name).answer ≠ .error .endless

theorem Retrieval.answer_orElse (first second : Retrieval) :
    (first.orElse second).answer = first.answer ∨ (first.orElse second).answer = second.answer := by
  unfold orElse
  split
  · exact .inr rfl
  · exact .inl rfl

namespace Source.Stocked

theorem orElse {first second : Source} (one : first.Stocked) (other : second.Stocked) :
    Source.Stocked fun name => (first name).orElse (second name) where
  finite := by
    refine (one.finite.union other.finite).subset ?_
    rintro text ⟨name, answered⟩
    rcases Retrieval.answer_orElse (first name) (second name) with same | same
    · exact .inl ⟨name, same ▸ answered⟩
    · exact .inr ⟨name, same ▸ answered⟩
  ends := by
    intro name
    rcases Retrieval.answer_orElse (first name) (second name) with same | same
    · exact same ▸ one.ends name
    · exact same ▸ other.ends name

theorem found {answers : String → Answer} {known : Set String} (finite : known.Finite)
    (texts : ∀ name text, answers name = .text text → text ∈ known) :
    Source.Stocked fun name => .found (answers name) where
  finite := by
    refine finite.subset ?_
    rintro text ⟨name, answered⟩
    exact texts name text (by simpa [Retrieval.found] using answered)
  ends := by simp [Retrieval.found]

theorem absent : Source.Stocked fun _ => .absent :=
  found Set.finite_empty (by simp)

end Source.Stocked

def FileTree.Finite (tree : FileTree) : Prop :=
  {place | (tree.entry place).isFile = true}.Finite

theorem Table.mem_entries_of_get? {α : Type} {table : Table α} {name : String} {value : α}
    (found : table.get? name = some value) : (name, value) ∈ table.entries := by
  obtain ⟨entries⟩ := table
  simp only [get?] at found
  induction entries with
  | nil => simp [findEntry] at found
  | cons entry rest ih =>
      obtain ⟨other, first⟩ := entry
      simp only [findEntry] at found
      split at found
      · rename_i same
        cases found
        simp [same]
      · exact List.mem_cons_of_mem _ (ih found)

theorem FileTree.exists_entry {tree : FileTree} {base : Place} {path : Path} {content : List UInt8}
    (read : tree.entryAt base path = .ok (.file content)) :
    ∃ place, tree.entry place = .file content := by
  unfold entryAt at read
  split at read
  · cases read
  · unfold access at read
    split at read
    · contradiction
    · unfold reach at read
      split at read
      · contradiction
      · cases read
      · rename_i place _
        exact ⟨place, by simpa using read⟩

/-- The texts of the files of a tree. -/
def FileTree.texts (tree : FileTree) : Set String :=
  {text | ∃ place content, tree.entry place = .file content ∧
    Folders.textOf content = .ok (.text text)}

theorem FileTree.Finite.texts {tree : FileTree} (finite : tree.Finite) : tree.texts.Finite := by
  have parts : tree.texts ⊆ ⋃ place ∈ {place | (tree.entry place).isFile = true},
      {text | ∃ content, tree.entry place = .file content ∧
        Folders.textOf content = .ok (.text text)} := by
    rintro text ⟨place, content, entry, read⟩
    simp only [Set.mem_iUnion]
    exact ⟨place, by simp [Entry.isFile, entry], content, entry, read⟩
  refine (Set.Finite.biUnion finite fun place _ => ?_).subset parts
  refine Set.Subsingleton.finite ?_
  rintro text ⟨content, entry, read⟩ other ⟨content', entry', read'⟩
  rw [entry] at entry'
  cases entry'
  rw [read] at read'
  simpa using read'

namespace Folders

theorem textOf_ne_endless (content : List UInt8) : textOf content ≠ .error .endless := by
  unfold textOf
  split <;> simp

theorem stocked_place {tree : FileTree} (finite : tree.Finite) (folders : Folders) (place : Place) :
    Source.Stocked fun name => askPlace tree name (folders.fileOf name) place where
  finite := by
    refine finite.texts.subset ?_
    rintro text ⟨name, answered⟩
    simp only [askPlace] at answered
    split at answered
    · cases answered
    · split at answered
      · split at answered
        · cases answered
        · rename_i content read
          obtain ⟨stored, entry⟩ := FileTree.exists_entry read
          exact ⟨stored, content, entry, answered⟩
        · cases answered
      · cases answered
  ends := by
    intro name
    simp only [askPlace]
    split
    · simp
    · split
      · split
        · simp
        · exact textOf_ne_endless _
        · simp
      · simp

theorem stocked {tree : FileTree} (finite : tree.Finite) (folders : Folders) :
    Source.Stocked fun name => folders.ask tree name := by
  unfold ask
  generalize folders.places = places
  induction places with
  | nil => exact .absent
  | cons place rest ih =>
      have both := (stocked_place finite folders place).orElse ih
      simpa only [List.foldr_cons] using both

end Folders

mutual

theorem Resolver.stocked {tree : FileTree} (finite : tree.Finite) :
    (resolver : Resolver) → Source.Stocked fun name => Resolver.ask tree name resolver
  | .mapping templates => by
      refine .found (List.finite_toSet (templates.entries.map (·.2))) fun name text answered => ?_
      unfold askMapping at answered
      split at answered
      · rename_i stored found
        cases answered
        exact List.mem_map.mpr ⟨_, Table.mem_entries_of_get? found, rfl⟩
      · contradiction
  | .folders places => places.stocked finite
  | .compiled templates => by
      refine .found Set.finite_empty fun name text answered => ?_
      unfold askCompiled at answered
      split at answered <;> contradiction
  | .constant value => by
      refine .found (Set.finite_singleton value.printed) fun name text answered => ?_
      cases value <;> simp [Answer.ofValue] at answered
      simp [answered, Value.printed, Value.printedChars]
  | .chain links => Resolver.stockedLinks finite links

theorem Resolver.stockedLinks {tree : FileTree} (finite : tree.Finite) :
    (links : List (Rank × Resolver)) → Source.Stocked fun name => Resolver.askLinks tree name links
  | [] => .absent
  | (_, resolver) :: rest =>
      (Resolver.stocked finite resolver).orElse (Resolver.stockedLinks finite rest)

end

theorem Chain.stocked {tree : FileTree} (finite : tree.Finite) (chain : Chain) :
    Source.Stocked (chain.ask tree) :=
  Resolver.stockedLinks finite chain.links

/-- A bound on the lines of inheritance among the templates of a chain. -/
theorem Chain.exists_limit {tree : FileTree} (finite : tree.Finite) {chain : Chain}
    (acyclic : Acyclic (chain.ask tree)) :
    ∃ limit, ∀ template : String,
      EndsWithin (chain.ask tree) (limit + template.length) template :=
  Logicless.exists_limit acyclic (chain.stocked finite).finite

section

variable (label : Option String) (priority : Int)

theorem Chain.answer_mapping (templates : Table String) (name : String) :
    ((Chain.only (.mapping templates) label priority).ask .empty name).answer =
      .ok (Resolver.askMapping templates name) := by
  simp only [Chain.ask, Chain.only, Resolver.askLinks, Resolver.ask]
  cases Resolver.askMapping templates name <;> rfl

/-- A mapping of names to texts has no cycles if its names have heights that fall from each text to
its parents. -/
theorem acyclic_mapping {templates : Table String} (height : String → Nat)
    (falls : ∀ entry ∈ templates.entries, ∀ parent ∈ (Scan.ofText entry.2.toList).parents [],
      isTemplateText parent = false ∧ height parent < height entry.1) :
    Acyclic ((Chain.only (.mapping templates) label priority).ask .empty) := by
  refine acyclic_of_rank height ?_
  rintro name parent named ⟨text, spells, asked⟩
  rw [Spells, if_neg (by simp [named]), Chain.answer_mapping, Resolver.askMapping] at spells
  split at spells
  · rename_i found
    cases spells
    exact falls (name, text) (Table.mem_entries_of_get? found) parent asked
  · cases spells

end

theorem FileTree.finite_empty : FileTree.empty.Finite := by
  refine Set.finite_empty.subset fun place file => ?_
  simp only [FileTree.empty, Set.mem_ofPred_eq] at file
  split at file <;> simp [Entry.isFile] at file

theorem FileTree.Finite.set {tree : FileTree} (finite : tree.Finite) (place : Place)
    (entry : Entry) : (tree.set place entry).Finite := by
  refine (Set.Finite.insert place finite).subset fun other file => ?_
  by_cases same : other = place
  · exact .inl same
  · rw [Set.mem_ofPred_eq, entry_set_of_ne tree same] at file
    exact .inr file

/-- The page fills in the base with a text that includes the page. -/
def pageTemplates : Table String :=
  ⟨[("base", "[\x7b\x7b$x\x7d\x7d\x7b\x7b/x\x7d\x7d]"),
    ("page", "\x7b\x7b<base\x7d\x7d\x7b\x7b$x\x7d\x7da\x7b\x7b>page\x7d\x7d" ++
      "\x7b\x7b/x\x7d\x7d\x7b\x7b/base\x7d\x7d")]⟩

def pageChain : Chain := .only (.mapping pageTemplates) none 0

theorem acyclic_pageChain : Acyclic (pageChain.ask .empty) :=
  acyclic_mapping none 0 (fun name => if name = "page" then 1 else 0) (by decide +kernel)

end Logicless
