import Logicless.Value
import Logicless.Decimal.Shortest

namespace Logicless

namespace Value

def floatIsInt (x : Float) (n : Int) : Bool :=
  if x.isNaN || x.isInf then false
  else
    let size := Decimal.Binary.ofBits x.toBits
    let negative := (x.toBits >>> 63) == 1
    let same := size.mantissa * Nat.pow 2 size.exponent.toNat ==
      n.natAbs * Nat.pow 2 (-size.exponent).toNat
    same && (n == 0 || negative == decide (n < 0))

def asInt? : Value → Option Int
  | .bool b => some (if b then 1 else 0)
  | .int n => some n
  | _ => none

def sameRange (start stop step start' stop' step' : Int) : Bool :=
  let length := rangeLength start stop step
  length == rangeLength start' stop' step' &&
    (length == 0 || (start == start' && (length == 1 || step == step')))

mutual

def isHashable : Value → Bool
  | .list _ | .set _ | .mapping _ | .ordered _ | .portion .keys _ | .portion .items _
  | .knot .. | .again _ | .cell .. => false
  | .tuple items => allHashable items
  | _ => true

def allHashable : List Value → Bool
  | [] => true
  | value :: rest => isHashable value && allHashable rest

end

mutual

def sameKey : Value → Value → Bool
  | .null, .null => true
  | .text s, .text t => s == t
  | .bytes s, .bytes t => s == t
  | .tuple items, .tuple others => sameKeys items others
  | .float x, .float y => x == y
  | .float x, .bool b => floatIsInt x (if b then 1 else 0)
  | .float x, .int n => floatIsInt x n
  | .bool b, .float y => floatIsInt y (if b then 1 else 0)
  | .int n, .float y => floatIsInt y n
  | .bool b, .bool c => b == c
  | .bool b, .int n => n == (if b then 1 else 0)
  | .int n, .bool b => n == (if b then 1 else 0)
  | .int n, .int m => n == m
  | .range start stop step, .range start' stop' step' =>
      sameRange start stop step start' stop' step'
  | .builtin known, .builtin other => known == other
  | .type name, .type other => name == other
  | .calendar thing, .calendar other => thing.same other
  | _, _ => false

def sameKeys : List Value → List Value → Bool
  | [], [] => true
  | key :: rest, other :: others => sameKey key other && sameKeys rest others
  | _, _ => false

end

def findKey {α : Type} (key : Value) : List (Value × α) → Option α
  | [] => none
  | (other, value) :: rest => if sameKey other key then some value else findKey key rest

/-- Overwrites what stands under a key in its place, or adds an entry at the end. -/
def putKey {α : Type} (key : Value) (value : α) : List (Value × α) → List (Value × α)
  | [] => [(key, value)]
  | (other, old) :: rest =>
      if sameKey other key then (other, value) :: rest else (other, old) :: putKey key value rest

/-- What has no entry yet gets one behind those that are there. -/
theorem putKey_append {α : Type} {key : Value} {entries : List (Value × α)}
    (absent : findKey key entries = none) (value : α) (added : List (Value × α)) :
    putKey key value (entries ++ added) = entries ++ putKey key value added := by
  induction entries with
  | nil => rfl
  | cons entry rest ih =>
      obtain ⟨other, old⟩ := entry
      simp only [findKey] at absent
      split at absent
      · contradiction
      · rename_i different
        simp only [List.cons_append, putKey, if_neg different, ih absent]

theorem key_of_mem_putKey {α : Type} {key other : Value} {value given : α}
    {entries : List (Value × α)} (member : (other, given) ∈ putKey key value entries) :
    other = key ∨ ∃ old, (other, old) ∈ entries := by
  induction entries with
  | nil =>
      cases List.mem_singleton.mp member
      exact .inl rfl
  | cons entry rest ih =>
      obtain ⟨first, old⟩ := entry
      simp only [putKey] at member
      split at member
      · rcases List.mem_cons.mp member with here | further
        · cases here
          exact .inr ⟨old, .head _⟩
        · exact .inr ⟨given, .tail _ further⟩
      · rcases List.mem_cons.mp member with here | further
        · cases here
          exact .inr ⟨given, .head _⟩
        · exact (ih further).imp_right fun ⟨kept, there⟩ => ⟨kept, .tail _ there⟩

def ofEntries (entries : List (Value × Value)) : Value :=
  .mapping (entries.foldl (fun built entry => putKey entry.1 entry.2 built) [])

def isIndexed (entries : List (Value × Value)) : Bool :=
  !entries.isEmpty &&
  entries.all (fun entry => match entry.1 with | .int _ => true | _ => false) &&
  (List.range entries.length).all fun index : Nat =>
    entries.any fun entry => sameKey entry.1 (.int (Int.ofNat index))

end Value

end Logicless
