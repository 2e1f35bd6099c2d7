namespace Logicless

universe u v

structure Table (α : Type u) where
  entries : List (String × α)
  deriving Repr, DecidableEq

namespace Table

variable {α : Type u} {β : Type v}

def empty : Table α := ⟨[]⟩

instance : Inhabited (Table α) := ⟨empty⟩

def names (table : Table α) : List String := table.entries.map (·.1)

def isEmpty (table : Table α) : Bool := table.entries.isEmpty

def findEntry (name : String) : List (String × α) → Option α
  | [] => none
  | (other, value) :: rest => if other = name then some value else findEntry name rest

def putEntry (name : String) (value : α) : List (String × α) → List (String × α)
  | [] => [(name, value)]
  | (other, old) :: rest =>
      if other = name then (name, value) :: rest else (other, old) :: putEntry name value rest

def get? (table : Table α) (name : String) : Option α := findEntry name table.entries

def contains (table : Table α) (name : String) : Bool := (table.get? name).isSome

def insert (table : Table α) (name : String) (value : α) : Table α :=
  ⟨putEntry name value table.entries⟩

def erase (table : Table α) (name : String) : Table α :=
  ⟨table.entries.filter fun entry => entry.1 != name⟩

/-- Later entries of a name overwrite earlier ones in their place. -/
def ofList (entries : List (String × α)) : Table α :=
  entries.foldl (fun table entry => table.insert entry.1 entry.2) empty

def map (f : α → β) (table : Table α) : Table β :=
  ⟨table.entries.map fun entry => (entry.1, f entry.2)⟩

@[simp] theorem entries_empty : (empty : Table α).entries = [] := rfl

@[simp] theorem get?_empty (name : String) : (empty : Table α).get? name = none := rfl

theorem contains_of_get? {table : Table α} {name : String} {value : α}
    (known : table.get? name = some value) : table.contains name = true :=
  Option.isSome_iff_exists.mpr ⟨value, known⟩

theorem findEntry_putEntry_self (name : String) (value : α) (entries : List (String × α)) :
    findEntry name (putEntry name value entries) = some value := by
  induction entries with
  | nil => simp [putEntry, findEntry]
  | cons entry rest ih =>
      obtain ⟨other, old⟩ := entry
      by_cases same : other = name
      · simp [putEntry, findEntry, same]
      · simp [putEntry, findEntry, same, ih]

theorem findEntry_putEntry_of_ne {name other : String} (different : other ≠ name) (value : α)
    (entries : List (String × α)) :
    findEntry other (putEntry name value entries) = findEntry other entries := by
  induction entries with
  | nil => simp [putEntry, findEntry, Ne.symm different]
  | cons entry rest ih =>
      obtain ⟨key, old⟩ := entry
      by_cases same : key = name
      · subst same
        simp [putEntry, findEntry, Ne.symm different]
      · by_cases here : key = other
        · subst here
          simp [putEntry, findEntry, same]
        · simp [putEntry, findEntry, same, here, ih]

@[simp] theorem get?_insert_self (table : Table α) (name : String) (value : α) :
    (table.insert name value).get? name = some value :=
  findEntry_putEntry_self name value table.entries

theorem get?_insert_of_ne (table : Table α) {name other : String} (different : other ≠ name)
    (value : α) : (table.insert name value).get? other = table.get? other :=
  findEntry_putEntry_of_ne different value table.entries

/-- What stands under a name has been inserted last, or was there before. -/
theorem get?_insert_elim {table : Table α} {name other : String} {value found : α}
    (known : (table.insert name value).get? other = some found) :
    found = value ∨ table.get? other = some found := by
  by_cases same : other = name
  · subst same
    rw [get?_insert_self] at known
    exact .inl (Option.some.inj known).symm
  · rw [get?_insert_of_ne table same] at known
    exact .inr known

theorem entries_insert_of_not_mem (table : Table α) {name : String} (absent : name ∉ table.names)
    (value : α) : (table.insert name value).entries = table.entries ++ [(name, value)] := by
  obtain ⟨entries⟩ := table
  simp only [names, insert] at absent ⊢
  induction entries with
  | nil => rfl
  | cons entry rest ih =>
      obtain ⟨other, old⟩ := entry
      simp only [List.map_cons, List.mem_cons, not_or] at absent
      simp [putEntry, Ne.symm absent.1, ih absent.2]

theorem names_insert_of_mem (table : Table α) {name : String} (present : name ∈ table.names)
    (value : α) : (table.insert name value).names = table.names := by
  obtain ⟨entries⟩ := table
  simp only [names, insert] at present ⊢
  induction entries with
  | nil => simp at present
  | cons entry rest ih =>
      obtain ⟨other, old⟩ := entry
      by_cases same : other = name
      · simp [putEntry, same]
      · simp only [List.map_cons, List.mem_cons] at present
        rcases present with here | later
        · exact absurd here.symm same
        · simp [putEntry, same, ih later]

@[simp] theorem erase_erase (table : Table α) (name : String) :
    (table.erase name).erase name = table.erase name := by
  simp [erase]

@[simp] theorem erase_insert_self (table : Table α) (name : String) (value : α) :
    (table.insert name value).erase name = table.erase name := by
  obtain ⟨entries⟩ := table
  simp only [erase, insert, mk.injEq]
  induction entries with
  | nil => simp [putEntry]
  | cons entry rest ih =>
      obtain ⟨other, old⟩ := entry
      by_cases same : other = name
      · simp [putEntry, same]
      · simp [putEntry, same, ih]

theorem erase_insert_of_ne (table : Table α) {name other : String} (different : other ≠ name)
    (value : α) :
    (table.insert other value).erase name = (table.erase name).insert other value := by
  obtain ⟨entries⟩ := table
  simp only [erase, insert, mk.injEq]
  induction entries with
  | nil => simp [putEntry, different]
  | cons entry rest ih =>
      obtain ⟨key, old⟩ := entry
      by_cases same : key = other
      · simp [putEntry, same, different]
      · by_cases gone : key = name
        · simp [putEntry, gone, ih, Ne.symm different]
        · simp [putEntry, same, gone, ih]

end Table

end Logicless
