import Logicless.Proofs.Views

namespace Logicless

namespace Value

mutual

/-- Values in which nothing can be called. -/
def IsPlain : Value → Prop
  | .null | .bool _ | .int _ | .float _ | .text _ | .bytes _ | .calendar _ | .builtin _ => True
  | .list items | .set items => AllPlain items
  | .tuple items => (Value.tuple items).isMethodPair = .ok false ∧ AllPlain items
  | .mapping entries | .ordered entries => EntriesPlain entries
  | _ => False
termination_by structural value => value

def AllPlain : List Value → Prop
  | [] => True
  | value :: rest => IsPlain value ∧ AllPlain rest
termination_by structural values => values

def EntriesPlain : List (Value × Value) → Prop
  | [] => True
  | (key, value) :: rest => key.isFixed = true ∧ IsPlain value ∧ EntriesPlain rest
termination_by structural entries => entries

end

/-- Whether a tuple stands for no method. -/
def decideNotMethodPair (value : Value) : Decidable (value.isMethodPair = .ok false) :=
  match value.isMethodPair with
  | .ok false => .isTrue rfl
  | .ok true | .error _ => .isFalse (by simp)

mutual

def decideIsPlain : (value : Value) → Decidable value.IsPlain
  | .null | .bool _ | .int _ | .float _ | .text _ | .bytes _ | .calendar _ | .builtin _ =>
      .isTrue trivial
  | .list items | .set items => decideAllPlain items
  | .tuple items =>
      @instDecidableAnd _ _ (decideNotMethodPair (.tuple items)) (decideAllPlain items)
  | .mapping entries | .ordered entries => decideEntriesPlain entries
  | .range .. | .portion .. | .iterator .. | .object _ | .function .. | .type _ | .knot ..
  | .again _ | .cell .. => .isFalse id
termination_by structural value => value

def decideAllPlain : (values : List Value) → Decidable (AllPlain values)
  | [] => .isTrue trivial
  | value :: rest =>
      @instDecidableAnd _ _ (decideIsPlain value) (decideAllPlain rest)
termination_by structural values => values

def decideEntriesPlain : (entries : List (Value × Value)) → Decidable (EntriesPlain entries)
  | [] => .isTrue trivial
  | (_, value) :: rest =>
      @instDecidableAnd _ _ inferInstance
        (@instDecidableAnd _ _ (decideIsPlain value) (decideEntriesPlain rest))
termination_by structural entries => entries

end

instance : DecidablePred IsPlain := decideIsPlain

theorem allPlain_iff (items : List Value) : AllPlain items ↔ ∀ item ∈ items, item.IsPlain := by
  induction items with
  | nil => simp [AllPlain]
  | cons item rest ih => simp [AllPlain, ih]

theorem EntriesPlain.of_findKey {key found : Value} {entries : List (Value × Value)}
    (plain : EntriesPlain entries) (known : findKey key entries = some found) : found.IsPlain := by
  induction entries with
  | nil => simp [findKey] at known
  | cons entry rest ih =>
      obtain ⟨other, value⟩ := entry
      simp only [findKey] at known
      split at known
      · cases known
        exact plain.2.1
      · exact ih plain.2.2 known

mutual

theorem IsPlain.isFixed_eq : (value : Value) → value.IsPlain → value.isFixed = true
  | .list items, plain | .set items, plain => AllPlain.allFixed_eq items plain
  | .tuple items, plain => AllPlain.allFixed_eq items plain.2
  | .mapping entries, plain | .ordered entries, plain => EntriesPlain.entriesFixed_eq entries plain
  | .null, _ | .bool _, _ | .int _, _ | .float _, _ | .text _, _ | .bytes _, _ | .calendar _, _
  | .builtin _, _ => rfl
  | .range .., plain | .portion .., plain | .iterator .., plain | .object _, plain
  | .function .., plain | .type _, plain | .knot .., plain | .again _, plain | .cell .., plain =>
      plain.elim

theorem AllPlain.allFixed_eq : (items : List Value) → AllPlain items → allFixed items = true
  | [], _ => rfl
  | item :: rest, plain =>
      Bool.and_eq_true_iff.mpr ⟨IsPlain.isFixed_eq item plain.1, AllPlain.allFixed_eq rest plain.2⟩

theorem EntriesPlain.entriesFixed_eq :
    (entries : List (Value × Value)) → EntriesPlain entries → entriesFixed entries = true
  | [], _ => rfl
  | (key, value) :: rest, plain => by
      simp only [entriesFixed, plain.1, IsPlain.isFixed_eq value plain.2.1,
        EntriesPlain.entriesFixed_eq rest plain.2.2, Bool.and_self]

end

namespace IsPlain

variable {value : Value} (plain : value.IsPlain)

include plain

theorem isMethodPair_eq : value.isMethodPair = .ok false := by
  cases value with
  | tuple items => exact plain.1
  | _ => first | rfl | exact plain.elim

theorem exists_kind : ∃ kind, value.kind = .ok kind ∧ kind ≠ .callable := by
  cases value with
  | tuple items =>
      refine ⟨.list, ?_, by simp⟩
      simp only [kind, Value.plain, opened, plain.1]
  | mapping entries | ordered entries =>
      refine ⟨if isIndexed entries then .list else .map, rfl, ?_⟩
      split <;> simp
  | list | set => exact ⟨.list, rfl, by simp⟩
  | builtin => exact ⟨.sealed, rfl, by simp⟩
  | calendar => exact ⟨.object, rfl, by simp⟩
  | null | bool | int | float | text | bytes => exact ⟨.scalar, rfl, by simp⟩
  | _ => exact plain.elim

theorem exists_items (listed : value.kind = .ok .list) :
    ∃ items, value.items = .ok items ∧ ∀ item ∈ items, item.IsPlain := by
  have numbered {entries : List (Value × Value)} (inside : EntriesPlain entries)
      (indexed : isIndexed entries = true) :
      ∃ items, indexedItems entries = .ok items ∧ ∀ item ∈ items, item.IsPlain := by
    obtain ⟨items, given, keyed⟩ := indexedItems_of_isIndexed indexed
    refine ⟨items, given, fun item member => ?_⟩
    obtain ⟨key, known⟩ := keyed item member
    exact inside.of_findKey known
  cases value with
  | list items | set items => exact ⟨items, rfl, (allPlain_iff items).mp plain⟩
  | tuple items => exact ⟨items, rfl, (allPlain_iff items).mp plain.2⟩
  | mapping entries | ordered entries =>
      refine numbered plain ?_
      simp only [kind, Value.plain, opened] at listed
      split at listed
      · assumption
      · cases listed
  | null | bool | int | float | text | bytes | calendar | builtin => cases listed
  | _ => exact plain.elim

theorem takeItems_eq (listed : value.kind = .ok .list) (store : Store) :
    ∃ items, takeItems value store = .ok items store ∧ ∀ item ∈ items, item.IsPlain := by
  obtain ⟨items, given, inside⟩ := plain.exists_items listed
  have lasting (id : Identity) (own : List Value) : value ≠ .iterator id own := by
    rintro rfl
    exact plain.elim
  exact ⟨items, takeItems_of_items given lasting store, inside⟩

end IsPlain

theorem lookupStep_plain {value : Value} (plain : value.IsPlain) (step : String) :
    Finds IsPlain step (lookupStep step value) := by
  have listed {items : List Value} (inside : AllPlain items) :
      Finds IsPlain step (lookupPosition step (.ok items.length) fun index => items[index]?) :=
    lookupPosition_finds trivial step _ fun index found taken =>
      (allPlain_iff items).mp inside found (List.mem_of_getElem? taken)
  have keyed {entries : List (Value × Value)} (inside : EntriesPlain entries) :
      Finds IsPlain step (lookupMapping step entries) :=
    lookupMapping_finds trivial step (fun _ found => IsPlain.isMethodPair_eq found)
      fun _ _ known => inside.of_findKey known
  cases value with
  | null | bool | int | float | text | bytes | builtin => exact finds_nothing trivial step
  | list items => exact listed plain
  | tuple items =>
      simp only [lookupStep, kind, Value.plain, opened, plain.1]
      exact listed plain.2
  | set items => exact finds_nothing trivial step
  | mapping entries | ordered entries =>
      simp only [lookupStep, kind, Value.plain, opened]
      cases isIndexed entries with
      | true => exact keyed plain
      | false => exact keyed plain
  | calendar thing =>
      refine .inl ?_
      simp only [lookupStep, kind, Value.plain, opened, lookupCalendar]
      split
      · exact ⟨_, rfl, trivial⟩
      · exact ⟨_, rfl, trivial⟩
      · exact ⟨_, rfl, trivial⟩
      · exact ⟨.text "", rfl, trivial⟩
      · exact ⟨.text "", rfl, trivial⟩
  | _ => exact plain.elim

/-- A name finds a plain value in a plain value, or has a step that nobody can read as a number. -/
theorem lookup_plain {value : Value} (plain : value.IsPlain) (name : String) :
    (∃ found, value.lookup name = .ok (.present found) ∧ found.IsPlain) ∨
      ∃ step ∈ steps name, Illegible step ∧ value.lookup name = .error (illegible step) :=
  lookupSteps_finds trivial (fun _ inside => (IsPlain.exists_kind inside).imp fun _ => And.left)
    (fun _ step inside => lookupStep_plain inside step) (steps name) plain

end Value

end Logicless
