import Logicless.Proofs.Iterating
import Logicless.Proofs.Offering

namespace Logicless

/-!
A mapping from the integers `0, …, n - 1` behaves as the list of its values.

The two are told apart everywhere: keys are compared, positions are counted. Still every name stands
for the same in both, and a section renders the same items in the same order (`indexed_as_list`),
whatever order the keys came in. Only what a mapping does with its entries and a list with its items
differs: a mapping calls the method that an entry stands for, and so it asks whether the entry
stands for one. Where that question raises, so does the look-up in the mapping, but not the one in
the list (`indexed_raising`).
-/

namespace Value

/-- Items under their positions as keys. -/
def numbered (items : List Value) : List (Value × Value) :=
  items.zipIdx.map fun (item, index) => (.int (Int.ofNat index), item)

/-- Mappings with just these items, under their positions as keys. -/
def Spells (context : Value) (items : List Value) : Prop :=
  items ≠ [] ∧ ∃ entries, context.plain = .mapping entries ∧ entries.Perm (numbered items)

theorem mem_numbered {items : List Value} {entry : Value × Value} :
    entry ∈ numbered items ↔
      ∃ index : Nat, items[index]? = some entry.2 ∧ entry.1 = .int (Int.ofNat index) := by
  obtain ⟨key, value⟩ := entry
  constructor
  · intro member
    obtain ⟨⟨item, index⟩, inside, same⟩ := List.mem_map.mp member
    cases same
    exact ⟨index, List.mem_zipIdx_iff_getElem?.mp inside, rfl⟩
  · rintro ⟨index, known, rfl⟩
    exact List.mem_map.mpr ⟨(value, index), List.mem_zipIdx_iff_getElem?.mpr known, rfl⟩

theorem findKey_of_mem {key value : Value} {entries : List (Value × Value)}
    (member : (key, value) ∈ entries) (itself : sameKey key key = true)
    (only : ∀ entry ∈ entries, sameKey entry.1 key = true → entry.2 = value) :
    findKey key entries = some value := by
  induction entries with
  | nil => cases member
  | cons entry rest ih =>
      obtain ⟨other, first⟩ := entry
      rw [List.forall_mem_cons] at only
      simp only [findKey]
      split
      · rename_i same
        exact congrArg some (only.1 same)
      · rename_i different
        rcases List.mem_cons.mp member with here | later
        · cases here
          exact absurd itself different
        · exact ih later only.2

theorem findKey_of_absent {key : Value} {entries : List (Value × Value)}
    (absent : ∀ entry ∈ entries, sameKey entry.1 key = false) : findKey key entries = none := by
  induction entries with
  | nil => rfl
  | cons entry rest ih =>
      rw [List.forall_mem_cons] at absent
      simp only [findKey, absent.1, Bool.false_eq_true, if_false]
      exact ih absent.2

section

variable {items : List Value} {entries : List (Value × Value)}
  (spelled : entries.Perm (numbered items))

include spelled

theorem key_of_mem {entry : Value × Value} (member : entry ∈ entries) :
    ∃ index : Nat, items[index]? = some entry.2 ∧ entry.1 = .int (Int.ofNat index) :=
  mem_numbered.mp (spelled.mem_iff.mp member)

theorem findKey_text_numbered (name : String) : findKey (.text name) entries = none := by
  apply findKey_of_absent
  intro entry member
  obtain ⟨index, -, key⟩ := key_of_mem spelled member
  rw [key]
  rfl

/-- Under the key of a position stands the item at the position, whatever the order of entries. -/
theorem findKey_int_numbered (index : Nat) :
    findKey (.int (Int.ofNat index)) entries = items[index]? := by
  have same {other : Nat} (equal : sameKey (.int (Int.ofNat other)) (.int (Int.ofNat index))) :
      other = index := by
    have numbers : Int.ofNat other = Int.ofNat index := beq_iff_eq.mp equal
    exact Int.ofNat.inj numbers
  cases known : items[index]? with
  | some item =>
      have member : (.int (Int.ofNat index), item) ∈ entries :=
        spelled.mem_iff.mpr (mem_numbered.mpr ⟨index, known, rfl⟩)
      apply findKey_of_mem member (by simp [sameKey])
      intro entry inside equal
      obtain ⟨other, at_other, key⟩ := key_of_mem spelled inside
      rw [key] at equal
      rw [same equal, known] at at_other
      exact (Option.some.inj at_other).symm
  | none =>
      apply findKey_of_absent
      intro entry inside
      obtain ⟨other, at_other, key⟩ := key_of_mem spelled inside
      rw [key, Bool.eq_false_iff]
      intro equal
      rw [same equal, known] at at_other
      cases at_other

theorem length_numbered : entries.length = items.length := by
  rw [spelled.length_eq, numbered, List.length_map, List.length_zipIdx]

theorem isIndexed_numbered (some : items ≠ []) : isIndexed entries = true := by
  have counted := length_numbered spelled
  have filled : entries ≠ [] := by
    rintro rfl
    exact some (List.eq_nil_of_length_eq_zero counted.symm)
  simp only [isIndexed, Bool.and_eq_true, List.all_eq_true]
  refine ⟨⟨by simpa using filled, fun entry member => ?_⟩, fun index member => ?_⟩
  · obtain ⟨index, -, key⟩ := key_of_mem spelled member
    rw [key]
  · have within : index < items.length := by
      rw [← counted]
      exact List.mem_range.mp member
    have inside : (.int (Int.ofNat index), items[index]) ∈ entries :=
      spelled.mem_iff.mpr (mem_numbered.mpr ⟨index, List.getElem?_eq_getElem within, rfl⟩)
    exact List.any_eq_true.mpr ⟨_, inside, by simp [sameKey]⟩

theorem indexedItems_numbered : indexedItems entries = .ok items := by
  have counted : (List.range items.length).map (fun index => items[index]?.getD .null) = items := by
    apply List.ext_getElem
    · rw [List.length_map, List.length_range]
    · intro index _ within
      simp [List.getElem?_eq_getElem within]
  rw [← counted, indexedItems, length_numbered spelled]
  apply mapM_eq_map
  intro index member
  rw [findKey_int_numbered spelled, List.getElem?_eq_getElem (List.mem_range.mp member)]
  rfl

/-- A mapping does nothing with an entry that stands for no method. -/
theorem lookupMapping_numbered (plain : ∀ item ∈ items, item.isMethodPair = .ok false)
    (name : String) :
    lookupMapping name entries =
      lookupPosition name (.ok items.length) fun index => items[index]? := by
  simp only [lookupMapping, namedEntry, findKey_text_numbered spelled, lookupPosition]
  cases Text.readNumeral name.toList with
  | word | unreadable => rfl
  | number index =>
      simp only [findKey_int_numbered spelled]
      cases known : items[index]? with
      | none => simp
      | some item =>
          have within : index < items.length := (List.getElem?_eq_some_iff.mp known).1
          have uncalled := plain item (List.mem_of_getElem? known)
          rw [if_pos within]
          cases item with
          | null => rfl
          | _ => simp only [uncalled]

end

/-- Every name stands for the same in the mapping as in the list. -/
theorem lookup_spelled {context : Value} {items : List Value} (spelled : context.Spells items)
    (plain : ∀ item ∈ items, item.isMethodPair = .ok false) (path : String) :
    context.lookup path = lookup path (.list items) := by
  obtain ⟨-, entries, mapped, numbers⟩ := spelled
  obtain ⟨step, rest, split⟩ := List.exists_cons_of_ne_nil (steps_ne_nil path)
  have first : lookupStep step context = lookupStep step (.list items) := by
    rw [lookupStep_of_mapping mapped, lookupMapping_numbered numbers plain]
    rfl
  rw [lookup, lookup, split]
  exact lookupSteps_congr first rest

theorem tieEntries_eq_nil {label : Nat} {whole : Value} {entries : List (Value × Value)} :
    tieEntries label whole entries = [] ↔ entries = [] := by
  cases entries with
  | nil => simp [tieEntries]
  | cons => simp [tieEntries]

/-- A mapping with entries counts as true, also one that contains itself. -/
theorem truthy_of_mapping {context : Value} {entries : List (Value × Value)}
    (mapped : context.plain = .mapping entries) (filled : entries ≠ []) :
    context.truthy = true := by
  cases context with
  | mapping own | ordered own =>
      cases mapped
      simpa [truthy] using filled
  | knot label body =>
      cases body with
      | mapping own | ordered own =>
          cases mapped
          simpa [truthy, tieEntries_eq_nil] using filled
      -- What is no collection itself is none once it is tied.
      | knot other | again other =>
          by_cases same : other = label
          · simp [plain, opened, tie, same] at mapped
          · simp [plain, opened, tie, same] at mapped
      | _ => cases mapped
  | cell id content =>
      cases content with
      | mapping own | ordered own =>
          cases mapped
          simpa [truthy] using filled
      | _ => cases mapped
  | _ => cases mapped

namespace Spells

variable {context : Value} {items : List Value} (spelled : context.Spells items)

include spelled

theorem kind_eq : context.kind = .ok .list := by
  obtain ⟨some, entries, mapped, numbers⟩ := spelled
  simp only [kind, mapped, isIndexed_numbered numbers some, if_true]

theorem truthy_eq : context.truthy = true := by
  obtain ⟨some, entries, mapped, numbers⟩ := spelled
  apply truthy_of_mapping mapped
  rintro rfl
  exact some (List.eq_nil_of_length_eq_zero (length_numbered numbers).symm)

theorem takeItems_eq (store : Store) : takeItems context store = .ok items store := by
  obtain ⟨-, entries, mapped, numbers⟩ := spelled
  have given : context.items = .ok items := by
    simp only [Value.items, mapped, indexedItems_numbered numbers]
  apply takeItems_of_items given
  rintro id own rfl
  cases mapped

end Spells

end Value

section

variable {setting : Setting} {block : BlockRenderer} {scope : Scope} {name template : String}
  {content : Tokens}

/-- A section over what is taken for a list renders its items. -/
theorem renderBlock_listed {value : Value} {items : List Value} {store found after : Store}
    (finds : find scope.view name store = .ok value found) (some : value.truthy = true)
    (listed : value.kind = .ok .list) (taken : takeItems value found = .ok items after) :
    renderBlock setting block scope name content template store =
      (String.join <$> renderItems block scope content items) after := by
  have outside : scope.inLoop = false := by
    cases loop : scope.inLoop with
    | false => rfl
    | true =>
        rw [find_inLoop loop] at finds
        cases finds
        cases some
  have compound : value ≠ .bool true := by
    rintro rfl
    cases listed
  rw [renderBlock, outside]
  simp only [Bool.false_eq_true, if_false]
  rw [bind_of_ok finds]
  simp only [some, Bool.not_true, Bool.false_eq_true, if_false]
  rw [listed]
  simp only [Action.ofView, pure_bind]
  rw [bind_of_ok taken]
  exact (congrFun (map_eq_pure_bind ..) after).symm

/-- Items are rendered without regard to what they are the items of. -/
theorem renderItems_view (view : Value) (items : List Value) :
    renderItems block { scope with view } content items =
      renderItems block scope content items := by
  induction items with
  | nil => rfl
  | cons item rest ih =>
      rw [renderItems, renderItems, ih]
      rfl

end

/-- Where a name stands for the mapping in one view and for the list in another, a section of that
name renders the items, in the order of their keys, in both. -/
theorem renderBlock_spelled {context : Value} {items : List Value} (spelled : context.Spells items)
    (setting : Setting) (block : BlockRenderer) {scope : Scope} {view : Value} {name : String}
    (content : Tokens) (template : String) {store after : Store}
    (mapped : find scope.view name store = .ok context after)
    (listed : find view name store = .ok (.list items) after) :
    renderBlock setting block scope name content template store =
        (String.join <$> renderItems block scope content items) after ∧
      renderBlock setting block { scope with view } name content template store =
        (String.join <$> renderItems block scope content items) after := by
  have filled : (Value.list items).truthy = true := by simpa [Value.truthy] using spelled.1
  constructor
  · exact renderBlock_listed mapped spelled.truthy_eq spelled.kind_eq (spelled.takeItems_eq after)
  · rw [← renderItems_view view items]
    have taken : takeItems (.list items) after = .ok items after := rfl
    exact renderBlock_listed listed filled rfl taken

end Logicless
