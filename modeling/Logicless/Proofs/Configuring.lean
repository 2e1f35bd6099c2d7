import Logicless.Config.Fields
import Logicless.Proofs.Documents
import Logicless.Proofs.Precedence

namespace Logicless

/-!
Configurations that are refused.

A configuration file is read in stages: found, decoded, parsed, checked. Each stage refuses in its
own way, and two of these ways are not among those that are documented: a path with a zero in it,
and a file that is not UTF-8 (`Config.load_ends`).

A manager is configured step by step, and a template path that is no directory ends it where it
stands. What came before it stays: the suffix, the separator and the directories that are listed
before that path (`Work.applyConfig_refused`). Renderers, caches and pragmas are only reached when
nothing is left that could be refused.
-/

namespace FileTree

variable {tree : FileTree} {base : Place} {path : Path} {flaw : FileFlaw}

theorem follow_refuses {here : Place} {segments : List String}
    (refused : tree.follow here segments = .error flaw) : flaw = .tooLong := by
  induction segments generalizing here with
  | nil => cases refused
  | cons segment rest ih =>
      simp only [follow] at refused
      split at refused
      · cases refused
      · split at refused
        · cases refused
          rfl
        · exact ih refused

/-- A path cannot be looked at because of a zero in it or because of its length. -/
theorem access_refuses (refused : tree.access base path = .error flaw) :
    path.hasZero = true ∧ flaw = .zero ∨ path.hasZero = false ∧ flaw = .tooLong := by
  unfold access Path.flaw? at refused
  cases named : path.hasZero with
  | true =>
      rw [named, if_pos rfl] at refused
      cases refused
      exact .inl ⟨rfl, rfl⟩
  | false =>
      rw [named, if_neg Bool.false_ne_true] at refused
      refine .inr ⟨rfl, ?_⟩
      split at refused
      · rename_i long
        split at long
        · cases long
          cases refused
          rfl
        · cases long
      · unfold reach at refused
        cases reached : tree.follow [] (path.segmentsFrom base) with
        | error raised =>
            rw [reached] at refused
            cases refused
            exact follow_refuses reached
        | ok place =>
            rw [reached] at refused
            cases place <;> cases refused

theorem entryAt_refuses (refused : tree.entryAt base path = .error flaw) : flaw = .tooLong := by
  unfold entryAt at refused
  split at refused
  · cases refused
  · rename_i unnamed
    rcases access_refuses refused with ⟨zero, _⟩ | ⟨_, long⟩
    · exact absurd zero unnamed
    · exact long

end FileTree

/-- The faults that the loading of a configuration is documented to end in. -/
inductive ConfigFault.Documented : ConfigFault → Prop where
  | unreadable (path : String) : Documented (.unreadable path)
  | noMapping (path : String) : Documented (.noMapping path)
  | invalid (path : String) (fields : List String) : Documented (.invalid path fields)

namespace Documents

/-- A reader that gives data for a text, or finds the text malformed. -/
def Reads (documents : Documents) : Prop :=
  ∀ text trouble, documents.read text ≠ .error (.trouble trouble)

/-- A check that gives a configuration, or names the fields that it rejects. -/
def Checks (documents : Documents) : Prop :=
  ∀ entries trouble, documents.validate entries ≠ .error (.trouble trouble)

/-- Whether a text is read as plain data, or found malformed. -/
def Tames (documents : Documents) (text : List Char) : Prop :=
  (∃ value, documents.read text = .ok value ∧ value.IsPlain) ∨
    documents.read text = .error .malformed

instance (documents : Documents) (text : List Char) : Decidable (documents.Tames text) :=
  match read : documents.read text with
  | .ok value => decidable_of_iff value.IsPlain (by simp [Tames, read])
  | .error problem => decidable_of_iff (problem = .malformed) (by simp [Tames, read])

end Documents

namespace Config

variable {tree : FileTree} {base : Place} {path : Path} {content : List UInt8}

section

variable {documents : Documents} (checks : documents.Checks)

include checks

theorem ofEntries_documented {entries : List (Value × Value)} {fault : ConfigFault}
    (failed : ofEntries documents path entries = .error fault) : fault.Documented := by
  unfold ofEntries at failed
  split at failed
  · cases failed
  · cases failed
    exact .invalid _ _
  · rename_i trouble checked
    exact absurd checked (checks entries trouble)

theorem ofValue_documented {value : Value} {fault : ConfigFault}
    (failed : ofValue documents path value = .error fault) : fault.Documented := by
  unfold ofValue at failed
  split at failed
  · exact ofEntries_documented checks failed
  · exact ofEntries_documented checks failed
  · cases failed
    exact .noMapping _

variable (reads : documents.Reads)

include reads

/-- What a file holds is refused as documented if it is a text. -/
theorem ofContent_documented {fault : ConfigFault}
    (failed : ofContent documents path content = .error fault) :
    fault.Documented ↔ ∃ text, Text.decodeUtf8 content = .ok text := by
  cases decoded : Text.decodeUtf8 content with
  | error flaw =>
      simp only [ofContent, decoded, Except.error.injEq] at failed
      subst failed
      exact iff_of_false nofun (by simp)
  | ok text =>
      refine iff_of_true ?_ ⟨text, rfl⟩
      simp only [ofContent, decoded] at failed
      cases parsed : documents.read (Text.plainNewlines text) with
      | ok value =>
          simp only [parsed] at failed
          exact ofValue_documented checks failed
      | error problem =>
          cases problem with
          | malformed =>
              simp only [parsed, Except.error.injEq] at failed
              subst failed
              exact .unreadable _
          | trouble trouble => exact absurd parsed (reads _ trouble)

/-- Whatever reads documents and checks them, if only it fails in no other way than it should, loading
a configuration gives what the file says, its relative template paths seen from the directory of the
file, or fails. It fails as documented but for two kinds of input: a path with a zero in it, and a
file that is not UTF-8. -/
theorem load_ends (tree : FileTree) (base : Place) (path : Path) :
    (∃ content given, tree.access base path = .ok (.file content) ∧
      ofContent documents path content = .ok given ∧
      load documents tree base path = .ok { given with
        templatePaths := given.templatePaths.map fun listed =>
          if listed.isAbsolute then listed else path.parent.join listed }) ∨
    ∃ fault, load documents tree base path = .error fault ∧
      (fault.Documented ↔ path.hasZero = false ∧
        ∀ content, tree.access base path = .ok (.file content) →
          ∃ text, Text.decodeUtf8 content = .ok text) := by
  unfold load
  cases reached : tree.access base path with
  | error flaw =>
      right
      rcases FileTree.access_refuses reached with ⟨zero, rfl⟩ | ⟨noZero, rfl⟩
      · exact ⟨_, rfl, nofun, fun named => by simp [zero] at named⟩
      · exact ⟨_, rfl, iff_of_true (.unreadable _) ⟨noZero, nofun⟩⟩
  | ok entry =>
      have noZero : path.hasZero = false := by
        by_contra zero
        rw [FileTree.access, Path.flaw?, if_pos (by simpa using zero)] at reached
        cases reached
      cases entry with
      | missing => exact .inr ⟨_, rfl, iff_of_true (.unreadable _) ⟨noZero, nofun⟩⟩
      | directory => exact .inr ⟨_, rfl, iff_of_true (.unreadable _) ⟨noZero, nofun⟩⟩
      | file content =>
          cases given : ofContent documents path content with
          | ok config =>
              refine .inl ⟨content, config, rfl, given, ?_⟩
              have joined : path.parent.join = fun listed =>
                  if listed.isAbsolute then listed else path.parent.join listed := by
                funext listed
                unfold Path.join
                split <;> rfl
              simp only [given, Except.map, relativeTo, ← joined]
          | error fault =>
              refine .inr ⟨fault, by simp only [given, Except.map], ?_⟩
              rw [ofContent_documented checks reads given]
              simp [noZero]

end

/-- The documents of the program, but for texts that give their reader trouble: those are malformed,
too. -/
def strict : Documents where
  read text :=
    match Yaml.read text with
    | .ok value => .ok value
    | .error _ => .error .malformed
  validate := validate

theorem checks_validate {entries : List (Value × Value)} (trouble : Trouble) :
    validate entries ≠ .error (.trouble trouble) := by
  unfold validate
  split <;> simp

theorem checks_strict : strict.Checks := fun _ => checks_validate

theorem reads_strict : strict.Reads := by
  intro text trouble
  simp only [strict]
  cases Yaml.read text <;> simp

/-- Directories that are seen from where the file is, but for one with a place of its own. -/
theorem load_ends_listed :
    let listed : Entry := .file "template_paths: [a, /b]\n".toUTF8.toList
    let tree := (FileTree.empty.set ["conf"] .directory).set ["conf", "stache.yaml"] listed
    let path := Path.ofString "/conf/stache.yaml"
    strict.Checks ∧ strict.Reads ∧
      (∃ content given, tree.access [] path = .ok (.file content) ∧
        ofContent strict path content = .ok given ∧
        load strict tree [] path = .ok { given with
          templatePaths := given.templatePaths.map fun listed =>
            if listed.isAbsolute then listed else path.parent.join listed }) ∧
      load strict tree [] path = .ok
        ⟨[Path.ofString "/conf/a", Path.ofString "/b"], "mustache", "/", .html, none, []⟩ := by
  intro listed tree path
  have loaded : load strict tree [] path = .ok
      ⟨[Path.ofString "/conf/a", Path.ofString "/b"], "mustache", "/", .html, none, []⟩ := by
    decide +kernel
  rcases load_ends checks_strict reads_strict tree [] path with given | ⟨fault, failed, -⟩
  · exact ⟨checks_strict, reads_strict, given, loaded⟩
  · rw [loaded] at failed
    contradiction

/-- A configuration file that is not UTF-8 is refused with what the decoder says. -/
theorem load_undecodable :
    let tree := FileTree.empty.set ["stache.yaml"] (.file [0xff])
    ∃ fault, load .standard tree [] (Path.ofString "stache.yaml") = .error fault ∧
      ¬ fault.Documented := by
  refine ⟨.undecodable ⟨.badStart, 0, 1, 0xff⟩, by decide +kernel, nofun⟩

end Config

namespace Chain

/-- Whether a link has template directories. -/
def hasFolders (link : Rank × Resolver) : Bool :=
  match link.2 with
  | .folders _ => true
  | _ => false

/-- A link with other directories, if it has any. -/
def repoint (places : Folders) (link : Rank × Resolver) : Rank × Resolver :=
  match link.2 with
  | .folders _ => (link.1, .folders places)
  | _ => link

theorem rank_repoint (places : Folders) (link : Rank × Resolver) :
    (repoint places link).1 = link.1 := by
  unfold repoint
  split <;> rfl

theorem foldersOf?_eq_none_iff {links : List (Rank × Resolver)} :
    foldersOf? links = none ↔ links.filter hasFolders = [] := by
  induction links with
  | nil => exact iff_of_true rfl rfl
  | cons link rest ih =>
      obtain ⟨rank, resolver⟩ := link
      cases resolver with
      | folders places => exact iff_of_false nofun nofun
      | mapping | compiled | constant | chain => exact ih

theorem foldersOf?_of_filter {links : List (Rank × Resolver)} {rank : Rank} {places : Folders}
    (alone : links.filter hasFolders = [(rank, .folders places)]) :
    foldersOf? links = some places := by
  induction links with
  | nil => cases alone
  | cons link rest ih =>
      obtain ⟨other, resolver⟩ := link
      cases resolver with
      | folders others =>
          have same := List.head_eq_of_cons_eq alone
          cases same
          rfl
      | mapping | compiled | constant | chain => exact ih alone

theorem map_repoint_of_none (places : Folders) {links : List (Rank × Resolver)}
    (none : links.filter hasFolders = []) : links.map (repoint places) = links := by
  have still (link : Rank × Resolver) (member : link ∈ links) : repoint places link = link := by
    have plain := List.filter_eq_nil_iff.mp none link member
    obtain ⟨rank, resolver⟩ := link
    cases resolver with
    | folders others => exact absurd rfl plain
    | mapping | compiled | constant | chain => rfl
  exact (List.map_congr_left still).trans (List.map_id' links)

theorem replaceFolders_eq_map (places : Folders) {links : List (Rank × Resolver)}
    (few : (links.filter hasFolders).length ≤ 1) :
    replaceFolders places links = links.map (repoint places) := by
  induction links with
  | nil => rfl
  | cons link rest ih =>
      obtain ⟨rank, resolver⟩ := link
      cases resolver with
      | folders others =>
          have none : rest.filter hasFolders = [] :=
            List.eq_nil_of_length_eq_zero (Nat.le_zero.mp (Nat.le_of_succ_le_succ few))
          rw [replaceFolders, List.map_cons, map_repoint_of_none places none]
          rfl
      | mapping | compiled | constant | chain =>
          exact congrArg (List.cons _) (ih few)

section

variable {chain : Chain} (none : chain.folders? = none)

include none

/-- The directories of a chain that is given some are those. -/
theorem filter_push (places : Folders) (label : Option String) (priority : Int) :
    (chain.push (.folders places) label priority).links.filter hasFolders =
      [(⟨priority, chain.count, label⟩, .folders places)] := by
  have moved := (List.mergeSort_perm
    (chain.links ++ [(⟨priority, chain.count, label⟩, .folders places)]) inOrder).filter hasFolders
  rw [List.filter_append, foldersOf?_eq_none_iff.mp none] at moved
  exact List.perm_singleton.mp moved

theorem folders?_push (places : Folders) (label : Option String) (priority : Int) :
    (chain.push (.folders places) label priority).folders? = some places :=
  foldersOf?_of_filter (filter_push none places label priority)

theorem replaceFolders_push (places others : Folders) (label : Option String) (priority : Int) :
    replaceFolders places (chain.push (.folders others) label priority).links =
      (chain.push (.folders places) label priority).links := by
  have few : ((chain.push (.folders others) label priority).links.filter hasFolders).length ≤ 1 := by
    rw [filter_push none]
    exact Nat.le_refl 1
  have ranks (first later : Rank × Resolver) :
      inOrder first later = inOrder (repoint places first) (repoint places later) := by
    simp only [inOrder, rank_repoint]
  rw [replaceFolders_eq_map places few, push,
    List.map_mergeSort (fun first _ later _ => ranks first later), List.map_append,
    map_repoint_of_none places (foldersOf?_eq_none_iff.mp none)]
  rfl

end

theorem replaceFolders_replaceFolders (places others : Folders) (links : List (Rank × Resolver)) :
    replaceFolders places (replaceFolders others links) = replaceFolders places links := by
  induction links with
  | nil => rfl
  | cons link rest ih =>
      obtain ⟨rank, resolver⟩ := link
      cases resolver with
      | folders places => rfl
      | mapping | compiled | constant | chain => exact congrArg (List.cons _) ih

theorem foldersOf?_replaceFolders (places : Folders) {links : List (Rank × Resolver)}
    (some : (foldersOf? links).isSome = true) :
    foldersOf? (replaceFolders places links) = .some places := by
  induction links with
  | nil => cases some
  | cons link rest ih =>
      obtain ⟨rank, resolver⟩ := link
      cases resolver with
      | folders places => rfl
      | mapping | compiled | constant | chain => exact ih some

/-- A chain has the directories that were put into it. -/
theorem folders?_putFolders (places : Folders) (chain : Chain) :
    (chain.putFolders places).folders? = some places := by
  unfold putFolders
  split
  · rename_i some
    exact foldersOf?_replaceFolders places some
  · rename_i none
    exact folders?_push (by simpa using none) places .none 0

/-- Directories that are put into a chain replace those put into it before. -/
theorem putFolders_putFolders (places others : Folders) (chain : Chain) :
    (chain.putFolders others).putFolders places = chain.putFolders places := by
  rw [putFolders, folders?_putFolders, Option.isSome_some, if_pos rfl]
  unfold putFolders
  split
  · rw [replaceFolders_replaceFolders]
  · rename_i none
    rw [replaceFolders_push (by simpa using none)]
    rfl

end Chain

namespace Folders

/-- Directories with one more, which is searched first. -/
def push (folders : Folders) (base : Place) (path : Path) : Folders :=
  { folders with places := Place.normalize (path.segmentsFrom base) :: folders.places }

/-- Directories as a configuration wants them, up to some of its paths. -/
def configured (folders : Folders) (config : Config) (base : Place) (paths : List Path) : Folders :=
  paths.foldl (fun folders path => folders.push base path)
    ((folders.withSuffix config.suffix).withSeparator config.separator)

variable {folders : Folders} {tree : FileTree} {base : Place} {path : Path}

theorem add_of_directory (found : tree.entryAt base path = .ok .directory) :
    folders.add tree base path = .ok (folders.push base path) := by
  simp only [add, found, push]

theorem add_of_other {entry : Entry} (found : tree.entryAt base path = .ok entry)
    (other : entry ≠ .directory) :
    folders.add tree base path = .error (.notADirectory path.toString) := by
  cases entry with
  | directory => exact absurd rfl other
  | missing | file => simp only [add, found]

theorem add_of_refused {flaw : FileFlaw} (refused : tree.entryAt base path = .error flaw) :
    folders.add tree base path = .error (.file flaw) := by
  simp only [add, refused]

end Folders

namespace Workspace

/-- A workspace in which a manager has other template directories, and in which more is reported. -/
def place (workspace : Workspace) (number : Nat) (manager : Manager) (folders : Folders)
    (reports : List Event) : Workspace :=
  { workspace.setManager number { manager with chain := manager.chain.putFolders folders } with
    reports }

variable {workspace : Workspace} {name : String} {number : Nat} {manager : Manager}

theorem manager?_place (known : workspace.manager? name = some (number, manager))
    (folders : Folders) (reports : List Event) :
    (workspace.place number manager folders reports).manager? name =
      some (number, { manager with chain := manager.chain.putFolders folders }) :=
  Session.manager?_setManager known _

theorem place_place (folders others : Folders) (reports more : List Event) :
    (workspace.place number manager others reports).place number
        { manager with chain := manager.chain.putFolders others } folders more =
      workspace.place number manager folders more := by
  simp only [place, setManager, List.set_set, Chain.putFolders_putFolders]

end Workspace

section

variable {α : Type} {first : Work α} {handle : Failure → Work α} {before after : Workspace}

theorem tryCatch_of_ok {result : α} (run : first before = .ok result after) :
    tryCatch first handle before = .ok result after := by
  change EStateM.tryCatch first handle before = _
  simp only [EStateM.tryCatch, run]

theorem tryCatch_of_error {failure : Failure} (run : first before = .error failure after) :
    tryCatch first handle before = handle failure after := by
  change EStateM.tryCatch first handle before = _
  simp only [EStateM.tryCatch, run]
  rfl

end

namespace Work

variable {workspace after : Workspace} {name : String} {number : Nat} {manager : Manager}
  {folders changed : Folders} {fault : Fault}

theorem folders_of_known (known : workspace.manager? name = some (number, manager)) :
    Work.folders name workspace = .ok (manager.chain.folders?.getD .standard) workspace :=
  bind_of_ok (manager_of_known known)

theorem changeFolders_of_ok (known : workspace.manager? name = some (number, manager))
    (had : manager.chain.folders?.getD .standard = folders)
    (change : Folders → Except Fault Folders) (changes : change folders = .ok changed) :
    changeFolders name change workspace =
      .ok changed (workspace.place number manager changed workspace.reports) := by
  have put := Workspace.manager?_place known folders workspace.reports
  refine (bind_of_ok (folders_of_known known)).trans ?_
  rw [had, changes]
  refine (bind_of_ok (changeManager_of_known known _)).trans ?_
  refine (bind_of_ok (changeManager_of_known put _)).trans ?_
  exact congrArg (EStateM.Result.ok changed) (Workspace.place_place changed folders _ _)

/-- Template directories that cannot be changed are put into the chain as they were. -/
theorem changeFolders_of_error (known : workspace.manager? name = some (number, manager))
    (had : manager.chain.folders?.getD .standard = folders)
    (change : Folders → Except Fault Folders) (fails : change folders = .error fault) :
    changeFolders name change workspace =
      .error (.fault fault) (workspace.place number manager folders workspace.reports) := by
  refine (bind_of_ok (folders_of_known known)).trans ?_
  rw [had, fails]
  exact bind_of_ok (changeManager_of_known known _)

section

variable (known : workspace.manager? name = some (number, manager)) (folders : Folders)
  (reports : List Event) {path : Path}

include known

theorem addFolder_of_directory
    (found : workspace.tree.entryAt workspace.base path = .ok .directory) :
    addFolder name path (workspace.place number manager folders reports) =
      .ok () (workspace.place number manager (folders.push workspace.base path)
        (.consulted path.toString :: reports)) := by
  let consulted := Event.consulted path.toString :: reports
  have had : (manager.chain.putFolders folders).folders?.getD .standard = folders := by
    rw [Chain.folders?_putFolders, Option.getD_some]
  have changes := changeFolders_of_ok (Workspace.manager?_place known folders consulted) had
    (Folders.add · workspace.tree workspace.base path) (Folders.add_of_directory found)
  rw [Workspace.place_place] at changes
  exact discard_of_ok changes

theorem addFolder_of_error {raised : Fault}
    (fails : folders.add workspace.tree workspace.base path = .error raised) :
    addFolder name path (workspace.place number manager folders reports) =
      .error (.fault raised) (workspace.place number manager folders
        (.consulted path.toString :: reports)) := by
  let consulted := Event.consulted path.toString :: reports
  have had : (manager.chain.putFolders folders).folders?.getD .standard = folders := by
    rw [Chain.folders?_putFolders, Option.getD_some]
  have changes := changeFolders_of_error (Workspace.manager?_place known folders consulted) had
    (Folders.add · workspace.tree workspace.base path) fails
  rw [Workspace.place_place] at changes
  exact discard_of_error changes

/-- The paths of a configuration are added one by one, up to one that is no directory. -/
theorem addConfigured_refused {paths : List Path} {fault : ConfigFault}
    (failed : addConfigured name paths (workspace.place number manager folders reports) =
      .error (.config fault) after) :
    ∃ listed path behind entry later, paths = listed ++ path :: behind ∧
      (∀ other ∈ listed, workspace.tree.entryAt workspace.base other = .ok .directory) ∧
      workspace.tree.entryAt workspace.base path = .ok entry ∧ entry ≠ .directory ∧
      fault = .notADirectory path.toString ∧
      after = workspace.place number manager
        (listed.foldl (fun folders path => folders.push workspace.base path) folders) later := by
  induction paths generalizing folders reports with
  | nil => cases failed
  | cons path rest ih =>
      cases found : workspace.tree.entryAt workspace.base path with
      | error flaw =>
          have fails := addFolder_of_error known folders reports (Folders.add_of_refused found)
          have raised : addConfigured name (path :: rest)
              (workspace.place number manager folders reports) = .error (.fault (.file flaw)) _ :=
            bind_of_error (tryCatch_of_error fails)
          rw [raised] at failed
          cases failed
      | ok entry =>
          by_cases directory : entry = .directory
          · subst directory
            have adds := addFolder_of_directory known folders reports found
            have goesOn : addConfigured name (path :: rest)
                (workspace.place number manager folders reports) = addConfigured name rest _ :=
              bind_of_ok (tryCatch_of_ok adds)
            rw [goesOn] at failed
            obtain ⟨listed, other, behind, entry, later, split, placed, there, apart, blamed, left⟩ :=
              ih _ _ failed
            exact ⟨path :: listed, other, behind, entry, later, congrArg (List.cons path) split,
              List.forall_mem_cons.mpr ⟨found, placed⟩, there, apart, blamed, left⟩
          · have fails := addFolder_of_error known folders reports
              (Folders.add_of_other found directory)
            have refused : addConfigured name (path :: rest)
                (workspace.place number manager folders reports) =
                  .error (.config (.notADirectory path.toString)) _ :=
              bind_of_error (tryCatch_of_error fails)
            rw [refused] at failed
            cases failed
            exact ⟨[], path, rest, entry, _, rfl, nofun, found, directory, rfl, rfl⟩

end

theorem changeRenderer_ne_config (name : String) (change : Renderer → Renderer)
    (workspace : Workspace) (fault : ConfigFault) (after : Workspace) :
    changeRenderer name change workspace ≠ .error (.config fault) after := by
  intro failed
  rw [changeRenderer, rendererOf, manager, bind_assoc, bind_assoc, get_bind] at failed
  cases known : workspace.manager? name with
  | none =>
      rw [known] at failed
      cases failed
  | some found =>
      simp only [known, pure_bind, bind_assoc, get_bind] at failed
      cases held : workspace.renderers[found.2.renderer]? with
      | none =>
          rw [held] at failed
          cases failed
      | some renderer =>
          rw [held] at failed
          cases failed

/-- A configuration is refused for pragmas that are unknown, and then everything is as it was, or for
the first of its paths that is no directory. In that case the manager has the template directories
that the configuration wants up to that path, and all else is as it was. -/
theorem applyConfig_refused (known : workspace.manager? name = some (number, manager))
    {config : Config} {fault : ConfigFault}
    (failed : applyConfig name config workspace = .error (.config fault) after) :
    (∃ missing, missing = config.pragmas.filter (fun pragma => !manager.pragmas.contains pragma) ∧
      missing ≠ [] ∧ fault = .unknownPragmas missing ∧ after = workspace) ∨
    ∃ listed path behind entry reports, config.templatePaths = listed ++ path :: behind ∧
      (∀ other ∈ listed, workspace.tree.entryAt workspace.base other = .ok .directory) ∧
      workspace.tree.entryAt workspace.base path = .ok entry ∧ entry ≠ .directory ∧
      fault = .notADirectory path.toString ∧
      after = workspace.place number manager
        ((manager.chain.folders?.getD .standard).configured config workspace.base listed)
        reports := by
  let missing := config.pragmas.filter fun pragma => !manager.pragmas.contains pragma
  let wanted := ((manager.chain.folders?.getD .standard).withSuffix config.suffix).withSeparator
    config.separator
  by_cases none : missing = []
  · right
    have begun := discard_of_ok (changeFolders_of_ok known rfl
      (fun folders => .ok ((folders.withSuffix config.suffix).withSeparator config.separator)) rfl)
    have goesOn : applyConfig name config workspace = (do
        addConfigured name config.templatePaths
        changeRenderer name fun renderer =>
          { renderer with escape := escaperOf config.escape, maxDepth := config.maxDepth })
        (workspace.place number manager wanted workspace.reports) := by
      have accepted : ¬ (!missing.isEmpty) = true := by simp [none]
      refine (bind_of_ok (manager_of_known known)).trans ?_
      simp only [missing] at accepted
      simp only [if_neg accepted]
      exact bind_of_ok begun
    rw [goesOn] at failed
    cases added : addConfigured name config.templatePaths
        (workspace.place number manager wanted workspace.reports) with
    | ok done left =>
        rw [bind_of_ok added] at failed
        exact absurd failed (changeRenderer_ne_config _ _ _ _ _)
    | error raised left =>
        rw [bind_of_error added] at failed
        cases failed
        exact addConfigured_refused known wanted workspace.reports added
  · left
    refine ⟨missing, rfl, none, ?_⟩
    have refused : applyConfig name config workspace =
        .error (.config (.unknownPragmas missing)) workspace := by
      have unknown : (!missing.isEmpty) = true := by simpa using none
      refine (bind_of_ok (manager_of_known known)).trans ?_
      simp only [missing] at unknown
      simp only [if_pos unknown]
      rfl
    rw [refused] at failed
    cases failed
    exact ⟨rfl, rfl⟩

/-- A manager with template files only, in a tree with one directory. -/
def unconfigured : Workspace :=
  (Workspace.empty (FileTree.empty.set ["d"] .directory) []).addManager "m" .standard

/-- Two template paths, the second of which is missing. -/
def listsMissing : Config :=
  { Config.standard with
    templatePaths := [⟨.relative, ["d"]⟩, ⟨.relative, ["nope"]⟩]
    suffix := "html" }

theorem applyConfig_refused_missing :
    ∃ manager after, unconfigured.manager? "m" = some (0, manager) ∧
      applyConfig "m" listsMissing unconfigured = .error (.config (.notADirectory "nope")) after ∧
      ∃ listed reports, after = unconfigured.place 0 manager
        ((manager.chain.folders?.getD .standard).configured listsMissing [] listed) reports := by
  have known : unconfigured.manager? "m" = some (0, Manager.make .standard 0) := rfl
  obtain ⟨after, failed⟩ : ∃ after, applyConfig "m" listsMissing unconfigured =
      .error (.config (.notADirectory "nope")) after := ⟨_, rfl⟩
  refine ⟨_, after, known, failed, ?_⟩
  rcases applyConfig_refused known failed with ⟨_, _, _, unknown, _⟩ | placed
  · cases unknown
  · obtain ⟨listed, _, _, _, reports, _, _, _, _, _, left⟩ := placed
    exact ⟨listed, reports, left⟩

/-- A configuration that is refused leaves the directories that it lists before the missing one. -/
theorem applyConfig_refused_trace :
    let known (workspace : Workspace) : List (Option Folders) :=
      workspace.managers.map fun manager => manager.chain.folders?
    ∃ after, applyConfig "m" listsMissing unconfigured =
        .error (.config (.notADirectory "nope")) after ∧
      known unconfigured = [some .standard] ∧ known after = [some ⟨[["d"]], "html", "/"⟩] :=
  ⟨_, rfl, rfl, rfl⟩

end Work

end Logicless
