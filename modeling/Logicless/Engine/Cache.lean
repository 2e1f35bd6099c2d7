import Logicless.Token
import Logicless.Value.Key

namespace Logicless

structure Cache where
  entries : List (Value × Tokens)

namespace Cache

def empty : Cache := ⟨[]⟩

instance : Inhabited Cache := ⟨empty⟩

def get? (cache : Cache) (name : String) : Option Tokens :=
  Value.findKey (.text name) cache.entries

/-- Overwrites what is kept under a key in its place, or adds it at the end. -/
def insert (cache : Cache) (key : Value) (tokens : Tokens) : Cache :=
  ⟨Value.putKey key tokens cache.entries⟩

def keys (cache : Cache) : List Value := cache.entries.map (·.1)

@[simp] theorem get?_empty (name : String) : empty.get? name = none := rfl

@[simp] theorem get?_insert_self (cache : Cache) (name : String) (tokens : Tokens) :
    (cache.insert (.text name) tokens).get? name = some tokens := by
  obtain ⟨entries⟩ := cache
  simp only [get?, insert]
  induction entries with
  | nil => simp [Value.putKey, Value.findKey, Value.sameKey]
  | cons entry rest ih =>
      obtain ⟨key, old⟩ := entry
      by_cases same : Value.sameKey key (.text name)
      · simp [Value.putKey, Value.findKey, same]
      · simp [Value.putKey, Value.findKey, same, ih]

/-- Only a text is found under a name. -/
theorem get?_insert_of_key_ne (cache : Cache) {key : Value} {name : String}
    (different : key ≠ .text name) (tokens : Tokens) :
    (cache.insert key tokens).get? name = cache.get? name := by
  obtain ⟨entries⟩ := cache
  have apart {other : Value} (same : Value.sameKey other key = true) :
      Value.sameKey other (.text name) = false := by
    cases other <;> simp [Value.sameKey]
    rintro rfl
    cases key <;> simp [Value.sameKey] at same different
    exact different same.symm
  simp only [get?, insert]
  induction entries with
  | nil =>
      cases key <;> simp [Value.putKey, Value.findKey, Value.sameKey] at different ⊢
      exact different
  | cons entry rest ih =>
      obtain ⟨other, old⟩ := entry
      by_cases same : Value.sameKey other key
      · simp [Value.putKey, Value.findKey, same, apart same]
      · simp [Value.putKey, Value.findKey, same, ih]

theorem get?_insert_of_ne (cache : Cache) {name other : String} (different : other ≠ name)
    (tokens : Tokens) : (cache.insert (.text name) tokens).get? other = cache.get? other :=
  cache.get?_insert_of_key_ne (by simpa using different.symm) tokens

end Cache

end Logicless
