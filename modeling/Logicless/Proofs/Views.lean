import Logicless.Proofs.Upholding

namespace Logicless

/-- The values that rendering against a view may come by. -/
inductive Value.Leads (view : Value) : Value → Prop where
  | here : Leads view view
  | found {inner value : Value} {name : String} {store after : Store} (reached : Leads view inner)
      (finds : find inner name store = .ok value after) : Leads view value
  | item {inner value : Value} {items : List Value} {store after : Store}
      (reached : Leads view inner) (listed : inner.kind = .ok .list)
      (takes : takeItems inner store = .ok items after) (member : value ∈ items) : Leads view value

namespace Value

mutual

/-- Whether there are no cells in a value, apart from what functions give. -/
def isFixed : Value → Bool
  | .list items | .tuple items | .set items | .portion _ items | .iterator _ items => allFixed items
  | .mapping entries | .ordered entries => entriesFixed entries
  | .object data => objectFixed data
  | .knot _ body => isFixed body
  | .cell .. => false
  | _ => true
termination_by structural value => value

def allFixed : List Value → Bool
  | [] => true
  | value :: rest => isFixed value && allFixed rest
termination_by structural values => values

def entriesFixed : List (Value × Value) → Bool
  | [] => true
  | (key, value) :: rest => isFixed key && isFixed value && entriesFixed rest
termination_by structural entries => entries

def objectFixed : ObjectData → Bool
  | .mk _ members items _ _ _ _ => membersFixed members && optionFixed items
termination_by structural data => data

def membersFixed : List (String × Member) → Bool
  | [] => true
  | (_, .attribute value) :: rest => isFixed value && membersFixed rest
  | (_, .property _) :: rest => membersFixed rest
termination_by structural members => members

def optionFixed : Option (List Value) → Bool
  | none => true
  | some values => allFixed values
termination_by structural values => values

end

@[simp] theorem isFixed_text (s : String) : (text s).isFixed = true := rfl

theorem isFixed_of_isScalar {value : Value} (scalar : value.isScalar = true) :
    value.isFixed = true := by
  cases value <;> first | rfl | simp [isScalar] at scalar

section

variable (changes : List Change)

mutual

/-- Calls of methods change nothing where there are no cells. -/
theorem after_of_isFixed : (value : Value) → value.isFixed = true → value.after changes = value
  | .list items, fixed | .tuple items, fixed | .set items, fixed | .portion _ items, fixed
  | .iterator _ items, fixed => by rw [after, allAfter_of_allFixed items fixed]
  | .mapping entries, fixed | .ordered entries, fixed => by
      rw [after, entriesAfter_of_entriesFixed entries fixed]
  | .object data, fixed => by rw [after, objectAfter_of_objectFixed data fixed]
  | .knot _ body, fixed => by rw [after, after_of_isFixed body fixed]
  | .cell .., fixed => by cases fixed
  | .null, _ | .bool _, _ | .int _, _ | .float _, _ | .text _, _ | .bytes _, _ | .range .., _
  | .function .., _ | .builtin _, _ | .type _, _ | .calendar _, _ | .again _, _ => rfl

theorem allAfter_of_allFixed :
    (values : List Value) → allFixed values = true → allAfter changes values = values
  | [], _ => rfl
  | value :: rest, fixed => by
      obtain ⟨first, others⟩ := Bool.and_eq_true_iff.mp fixed
      rw [allAfter, after_of_isFixed value first, allAfter_of_allFixed rest others]

theorem entriesAfter_of_entriesFixed : (entries : List (Value × Value)) →
    entriesFixed entries = true → entriesAfter changes entries = entries
  | [], _ => rfl
  | (key, value) :: rest, fixed => by
      obtain ⟨first, others⟩ := Bool.and_eq_true_iff.mp fixed
      obtain ⟨here, there⟩ := Bool.and_eq_true_iff.mp first
      rw [entriesAfter, after_of_isFixed key here, after_of_isFixed value there,
        entriesAfter_of_entriesFixed rest others]

theorem objectAfter_of_objectFixed :
    (data : ObjectData) → objectFixed data = true → objectAfter changes data = data
  | .mk shown members items size truth callee fallback, fixed => by
      obtain ⟨first, others⟩ := Bool.and_eq_true_iff.mp fixed
      rw [objectAfter, membersAfter_of_membersFixed members first,
        optionAfter_of_optionFixed items others]

theorem membersAfter_of_membersFixed : (members : List (String × Member)) →
    membersFixed members = true → membersAfter changes members = members
  | [], _ => rfl
  | (_, .attribute value) :: rest, fixed => by
      obtain ⟨first, others⟩ := Bool.and_eq_true_iff.mp fixed
      rw [membersAfter, after_of_isFixed value first, membersAfter_of_membersFixed rest others]
  | (_, .property _) :: rest, fixed => by
      rw [membersAfter, membersAfter_of_membersFixed rest fixed]

theorem optionAfter_of_optionFixed : (values : Option (List Value)) →
    optionFixed values = true → optionAfter changes values = values
  | none, _ => rfl
  | some values, fixed => by rw [optionAfter, allAfter_of_allFixed values fixed]

end

end

theorem current_of_isFixed {value : Value} (fixed : value.isFixed = true) (memory : Memory) :
    memory.current value = value := by
  unfold Memory.current
  split
  · rfl
  · exact after_of_isFixed _ value fixed

mutual

/-- Plain data: scalars, lists, sets, tuples that stand for no method, mappings whatever their keys,
if these have no cells in them, and ranges that can be counted. -/
def IsData : Value → Prop
  | .null | .bool _ | .int _ | .float _ | .text _ | .bytes _ => True
  | .list items | .set items => AllData items
  | .tuple items => (Value.tuple items).isMethodPair = .ok false ∧ AllData items
  | .mapping entries => EntriesData entries
  | .range start stop step => rangeLength start stop step ≤ countLimit
  | _ => False
termination_by structural value => value

def AllData : List Value → Prop
  | [] => True
  | value :: rest => IsData value ∧ AllData rest
termination_by structural values => values

def EntriesData : List (Value × Value) → Prop
  | [] => True
  | (key, value) :: rest => key.isFixed = true ∧ IsData value ∧ EntriesData rest
termination_by structural entries => entries

end

theorem allData_iff (items : List Value) : AllData items ↔ ∀ item ∈ items, item.IsData := by
  induction items with
  | nil => simp [AllData]
  | cons item rest ih => simp [AllData, ih]

theorem EntriesData.of_findKey {key found : Value} {entries : List (Value × Value)}
    (data : EntriesData entries) (known : findKey key entries = some found) : found.IsData := by
  induction entries with
  | nil => simp [findKey] at known
  | cons entry rest ih =>
      obtain ⟨other, value⟩ := entry
      simp only [findKey] at known
      split at known
      · cases known
        exact data.2.1
      · exact ih data.2.2 known

mutual

theorem IsData.isFixed_eq : (value : Value) → value.IsData → value.isFixed = true
  | .list items, data | .set items, data => AllData.allFixed_eq items data
  | .tuple items, data => AllData.allFixed_eq items data.2
  | .mapping entries, data => EntriesData.entriesFixed_eq entries data
  | .null, _ | .bool _, _ | .int _, _ | .float _, _ | .text _, _ | .bytes _, _ | .range .., _ => rfl
  | .ordered _, data | .portion .., data | .iterator .., data | .object _, data
  | .function .., data | .builtin _, data | .type _, data | .calendar _, data | .knot .., data
  | .again _, data | .cell .., data => data.elim

theorem AllData.allFixed_eq : (items : List Value) → AllData items → allFixed items = true
  | [], _ => rfl
  | item :: rest, data =>
      Bool.and_eq_true_iff.mpr ⟨IsData.isFixed_eq item data.1, AllData.allFixed_eq rest data.2⟩

theorem EntriesData.entriesFixed_eq :
    (entries : List (Value × Value)) → EntriesData entries → entriesFixed entries = true
  | [], _ => rfl
  | (key, value) :: rest, data => by
      simp only [entriesFixed, data.1, IsData.isFixed_eq value data.2.1,
        EntriesData.entriesFixed_eq rest data.2.2, Bool.and_self]

end

namespace IsData

variable {value : Value} (data : value.IsData)

include data

theorem isMethodPair_eq : value.isMethodPair = .ok false := by
  cases value with
  | tuple items => exact data.1
  | _ => first | rfl | exact data.elim

/-- The kinds of plain data. -/
theorem exists_kind : ∃ kind, value.kind = .ok kind ∧
    (kind = .scalar ∨ kind = .list ∨ kind = .map) := by
  cases value with
  | tuple items =>
      refine ⟨.list, ?_, by simp⟩
      simp only [kind, plain, opened, data.1]
  | mapping entries =>
      refine ⟨if isIndexed entries then .list else .map, rfl, ?_⟩
      split <;> simp
  | list | set | range => exact ⟨.list, rfl, by simp⟩
  | null | bool | int | float | text | bytes => exact ⟨.scalar, rfl, by simp⟩
  | _ => exact data.elim

end IsData

theorem exists_findKey {entries : List (Value × Value)} {key : Value}
    (present : entries.any (fun entry => sameKey entry.1 key) = true) :
    ∃ value, findKey key entries = some value := by
  induction entries with
  | nil => simp at present
  | cons entry rest ih =>
      obtain ⟨other, value⟩ := entry
      simp only [findKey]
      split
      · exact ⟨value, rfl⟩
      · rename_i different
        exact ih (by simpa [different] using present)

theorem mapM_of_ok {α β : Type} {holds : β → Prop} {given : α → Except Trouble β} {values : List α}
    (gives : ∀ value ∈ values, ∃ result, given value = .ok result ∧ holds result) :
    ∃ results, values.mapM given = .ok results ∧ ∀ result ∈ results, holds result := by
  induction values with
  | nil => exact ⟨[], rfl, nofun⟩
  | cons value rest ih =>
      rw [List.forall_mem_cons] at gives
      obtain ⟨result, first, here⟩ := gives.1
      obtain ⟨results, others, later⟩ := ih gives.2
      refine ⟨result :: results, ?_, List.forall_mem_cons.mpr ⟨here, later⟩⟩
      rw [List.mapM_cons, first, others]
      rfl

/-- A mapping that counts as a list has all its items. -/
theorem indexedItems_of_isIndexed {entries : List (Value × Value)}
    (indexed : isIndexed entries = true) :
    ∃ items, indexedItems entries = .ok items ∧
      ∀ item ∈ items, ∃ key, findKey key entries = some item := by
  refine mapM_of_ok fun index member => ?_
  simp only [isIndexed, Bool.and_eq_true, List.all_eq_true] at indexed
  obtain ⟨item, known⟩ := exists_findKey (indexed.2 index member)
  exact ⟨item, by rw [known], _, known⟩

theorem IsData.exists_items {value : Value} (data : value.IsData)
    (listed : value.kind = .ok .list) :
    ∃ items, value.items = .ok items ∧ ∀ item ∈ items, item.IsData := by
  cases value with
  | list items | set items => exact ⟨items, rfl, (allData_iff items).mp data⟩
  | tuple items => exact ⟨items, rfl, (allData_iff items).mp data.2⟩
  | range start stop step =>
      refine ⟨rangeItems start stop step, rfl, fun item member => ?_⟩
      obtain ⟨index, _, rfl⟩ := List.mem_map.mp member
      trivial
  | mapping entries =>
      have indexed : isIndexed entries = true := by
        simp only [kind, plain, opened] at listed
        split at listed
        · assumption
        · cases listed
      obtain ⟨items, given, inside⟩ := indexedItems_of_isIndexed indexed
      refine ⟨items, given, fun item member => ?_⟩
      obtain ⟨key, known⟩ := inside item member
      exact EntriesData.of_findKey data known
  | null | bool | int | float | text | bytes => cases listed
  | _ => exact data.elim

/-- Whether digits that spell no number make up a step of a name. -/
def Illegible (step : String) : Prop := Text.readNumeral step.toList = .unreadable

/-- What a step finds, or that it finds nothing because nobody can read it as a number. -/
def Finds (holds : Value → Prop) (step : String) (result : Except Trouble Found) : Prop :=
  (∃ found, result = .ok (.present found) ∧ holds found) ∨
    Illegible step ∧ result = .error (illegible step)

section

variable {holds : Value → Prop} (blank : holds (.text "")) (step : String)

include blank

theorem finds_nothing : Finds holds step (.ok .nothing) := .inl ⟨.text "", rfl, blank⟩

theorem lookupPosition_finds (count : Nat) {item : Nat → Option Value}
    (inside : ∀ index found, item index = some found → holds found) :
    Finds holds step (lookupPosition step (.ok count) item) := by
  unfold lookupPosition
  cases read : Text.readNumeral step.toList with
  | word => exact finds_nothing blank step
  | unreadable => exact .inr ⟨read, rfl⟩
  | number index =>
      simp only
      split
      · exact finds_nothing blank step
      · exact finds_nothing blank step
      · rename_i found _ taken
        split at taken
        · exact .inl ⟨found, rfl, inside index found taken⟩
        · contradiction

theorem lookupMapping_finds (uncalled : ∀ value, holds value → value.isMethodPair = .ok false)
    {entries : List (Value × Value)}
    (inside : ∀ key found, findKey key entries = some found → holds found) :
    Finds holds step (lookupMapping step entries) := by
  have given {entry : Option Value} (within : ∀ found ∈ entry, holds found)
      (named : namedEntry step entries = .ok entry) :
      Finds holds step (lookupMapping step entries) := by
    unfold lookupMapping
    rw [named]
    cases entry with
    | none => exact finds_nothing blank step
    | some value =>
        have found := within value rfl
        cases value with
        | null => exact finds_nothing blank step
        | _ =>
            simp only [uncalled _ found]
            exact .inl ⟨_, rfl, found⟩
  cases known : findKey (.text step) entries with
  | some value => exact given (known ▸ inside (.text step)) (by rw [namedEntry, known])
  | none =>
      cases read : Text.readNumeral step.toList with
      | word =>
          refine given (nofun : ∀ found ∈ none, holds found) ?_
          simp only [namedEntry, known, read]
      | unreadable =>
          refine .inr ⟨read, ?_⟩
          simp only [lookupMapping, namedEntry, known, read]
      | number index =>
          refine given (inside (.int (Int.ofNat index))) ?_
          simp only [namedEntry, known, read]

/-- Where steps find only values of a sort that have a kind, names find such values, or fail at a step
that nobody can read as a number. -/
theorem lookupSteps_finds (kinds : ∀ value, holds value → ∃ kind, value.kind = .ok kind)
    (finds : ∀ value step, holds value → Finds holds step (lookupStep step value))
    (steps : List String) {value : Value} (within : holds value) :
    (∃ found, lookupSteps steps value = .ok (.present found) ∧ holds found) ∨
      ∃ step ∈ steps, Illegible step ∧ lookupSteps steps value = .error (illegible step) := by
  induction steps generalizing value with
  | nil => exact .inl ⟨value, rfl, within⟩
  | cons step rest ih =>
      have first := finds value step within
      cases rest with
      | nil => exact first.imp_right fun failed => ⟨step, .head _, failed⟩
      | cons second rest =>
          simp only [lookupSteps]
          rcases first with ⟨found, known, inside⟩ | ⟨unreadable, failed⟩
          · obtain ⟨kind, shape⟩ := kinds found inside
            rw [known]
            simp only [Found.present, shape]
            cases kind with
            | scalar | «sealed» => exact .inl ⟨.text "", rfl, blank⟩
            | _ =>
                rcases ih inside with ⟨last, later, behind⟩ | ⟨other, member, unreadable, failed⟩
                · rw [later]
                  exact .inl ⟨last, rfl, behind⟩
                · rw [failed]
                  exact .inr ⟨other, .tail _ member, unreadable, rfl⟩
          · rw [failed]
            exact .inr ⟨step, .head _, unreadable, rfl⟩

end

/-- What a step finds in data. -/
def FindsData (step : String) (result : Except Trouble Found) : Prop :=
  (∃ found, result = .ok (.present found) ∧ found.IsData) ∨
    Illegible step ∧ result = .error (illegible step)

theorem lookupStep_data {value : Value} (data : value.IsData) (step : String) :
    FindsData step (lookupStep step value) := by
  have listed {items : List Value} (inside : AllData items) :
      FindsData step (lookupPosition step (.ok items.length) fun index => items[index]?) :=
    lookupPosition_finds trivial step _ fun index found taken =>
      (allData_iff items).mp inside found (List.mem_of_getElem? taken)
  cases value with
  | null | bool | int | float | text | bytes => exact finds_nothing trivial step
  | list items => exact listed data
  | tuple items =>
      simp only [lookupStep, kind, plain, opened, data.1]
      exact listed data.2
  | set items => exact finds_nothing trivial step
  | mapping entries =>
      have shape : kind (.mapping entries) = .ok .list ∨ kind (.mapping entries) = .ok .map := by
        simp only [kind, plain, opened]
        split <;> simp
      have found : FindsData step (lookupMapping step entries) :=
        lookupMapping_finds trivial step (fun _ inside => IsData.isMethodPair_eq inside)
          fun _ _ known => EntriesData.of_findKey data known
      rcases shape with list | map
      · simp only [lookupStep, list]
        exact found
      · simp only [lookupStep, map]
        exact found
  | range start stop step =>
      have counted : checkedCount (rangeLength start stop step) = .ok _ := if_pos data
      simp only [lookupStep, kind, plain, opened, counted]
      refine lookupPosition_finds trivial _ _ fun index found taken => ?_
      cases taken
      trivial
  | _ => exact data.elim

/-- Looking up steps in data finds data, or fails at a step that nobody can read as a number. -/
theorem lookupSteps_data (steps : List String) {value : Value} (data : value.IsData) :
    (∃ found, lookupSteps steps value = .ok (.present found) ∧ found.IsData) ∨
      ∃ step ∈ steps, Illegible step ∧ lookupSteps steps value = .error (illegible step) :=
  lookupSteps_finds trivial (fun _ inside => (IsData.exists_kind inside).imp fun _ => And.left)
    (fun _ step inside => lookupStep_data inside step) steps data

theorem lookup_data {value : Value} (data : value.IsData) (name : String) :
    (∃ found, value.lookup name = .ok (.present found) ∧ found.IsData) ∨
      ∃ step ∈ steps name, Illegible step ∧ value.lookup name = .error (illegible step) :=
  lookupSteps_data (steps name) data

end Value

theorem look_of_isFixed {view : Value} (fixed : view.isFixed = true) : look view = pure view := by
  funext store
  exact congrArg (fun now => EStateM.Result.ok now store)
    (Value.current_of_isFixed fixed store.memory)

theorem final_find (view : Value) (name : String) (store : Store) :
    ∃ memory, final (find view name store) = { store with memory } := by
  cases known : (store.memory.current view).lookup name with
  | ok found => exact ⟨_, by rw [find_of_ok known]; rfl⟩
  | error trouble => exact ⟨_, by rw [find_of_error known]; rfl⟩

theorem final_takeItems (value : Value) (store : Store) :
    ∃ memory, final (takeItems value store) = { store with memory } := by
  cases taken : store.memory.take value with
  | ok result => exact ⟨_, by rw [takeItems_of_ok taken]; rfl⟩
  | error trouble => exact ⟨_, by rw [takeItems_of_error taken]; rfl⟩

section

variable {invariant : Store → Prop} (moves : ∀ (store : Store) (memory : Memory),
  invariant store → invariant { store with memory })

include moves

/-- Looking a name up keeps what does not depend on the memory. -/
theorem keeps_find (view : Value) (name : String) :
    Keeps invariant Value (fun value => ∃ store after, find view name store = .ok value after)
      (find view name) := by
  intro store kept
  obtain ⟨memory, same⟩ := final_find view name store
  refine ⟨?_, fun value after run => ⟨store, after, run⟩⟩
  rw [same]
  exact moves store _ kept

theorem keeps_takeItems (value : Value) :
    Keeps invariant (List Value)
      (fun items => ∃ store after, takeItems value store = .ok items after) (takeItems value) := by
  intro store kept
  obtain ⟨memory, same⟩ := final_takeItems value store
  refine ⟨?_, fun items after run => ⟨store, after, run⟩⟩
  rw [same]
  exact moves store _ kept

end

theorem find_present {value found : Value} {name : String} (fixed : value.isFixed = true)
    (known : value.lookup name = .ok (.present found)) (store : Store) :
    find value name store = .ok found store :=
  find_of_ok ((Value.current_of_isFixed fixed store.memory).symm ▸ known)

/-- Only an iterator is used up when its items are taken. -/
theorem takeItems_of_items {value : Value} {items : List Value} (given : value.items = .ok items)
    (lasting : ∀ id own, value ≠ .iterator id own) (store : Store) :
    takeItems value store = .ok items store := by
  have taken : store.memory.take value = .ok (items, store.memory) := by
    cases value with
    | iterator id own => exact absurd rfl (lasting id own)
    | _ => simp only [Memory.take, given]
  exact takeItems_of_ok taken

namespace Value.IsData

variable {value : Value} (data : value.IsData)

include data

theorem takeItems_eq (listed : value.kind = .ok .list) (store : Store) :
    ∃ items, takeItems value store = .ok items store ∧ ∀ item ∈ items, item.IsData := by
  obtain ⟨items, given, inside⟩ := data.exists_items listed
  have lasting (id : Identity) (own : List Value) : value ≠ .iterator id own := by
    rintro rfl
    exact data.elim
  exact ⟨items, takeItems_of_items given lasting store, inside⟩

theorem leads {reached : Value} (leads : value.Leads reached) : reached.IsData := by
  induction leads with
  | here => exact data
  | @found inner value name store after _ finds ih =>
      rcases lookup_data ih name with ⟨found, known, inside⟩ | ⟨step, _, _, failed⟩
      · rw [find_present (isFixed_eq _ ih) known] at finds
        cases finds
        exact inside
      · have fixed := current_of_isFixed (isFixed_eq _ ih) store.memory
        rw [find_of_error (fixed.symm ▸ failed)] at finds
        cases finds
  | item _ listed takes member ih =>
      obtain ⟨items, taken, inside⟩ := takeItems_eq ih listed _
      rw [taken] at takes
      cases takes
      exact inside _ member

/-- Nothing that data leads to can be called. -/
theorem inert : ∀ reached, value.Leads reached → reached.kind ≠ .ok .callable := by
  intro reached led called
  obtain ⟨kind, known, shapes⟩ := (data.leads led).exists_kind
  rw [known] at called
  cases called
  simp at shapes

end Value.IsData

end Logicless
