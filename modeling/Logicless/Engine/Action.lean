import Logicless.Engine.Cache
import Logicless.Engine.Event
import Logicless.Engine.Fault
import Logicless.Value.Iteration

namespace Logicless

/-!
The state that compiling and rendering work on, and computations over it.

A computation ends in a result or a fault, and in either case in a state: templates that were cached
before a fault stay cached, and reports stay made.
-/

structure Store where
  cache : Cache
  memory : Memory
  /-- Reports, last first. -/
  reports : List Event
  /-- How deep the blocks begun so far were nested. -/
  deepest : Nat

namespace Store

def fresh : Store := ⟨.empty, .start, [], 0⟩

end Store

abbrev Action := EStateM Fault Store

namespace Action

def report (event : Event) : Action Unit :=
  modify fun store => { store with reports := event :: store.reports }

def reportAll (events : List Event) : Action Unit :=
  modify fun store => { store with reports := events.reverse ++ store.reports }

def ofExcept {α : Type} : Except Fault α → Action α
  | .ok result => pure result
  | .error fault => throw fault

def ofView {α : Type} : Except Trouble α → Action α
  | .ok result => pure result
  | .error trouble => throw (.trouble trouble)

def enter (depth : Nat) : Action Unit :=
  modify fun store => { store with deepest := max store.deepest depth }

def cached? (name : String) : Action (Option Tokens) := do
  return (← get).cache.get? name

def remember (key : Value) (tokens : Tokens) : Action Unit :=
  modify fun store => { store with cache := store.cache.insert key tokens }

end Action

end Logicless
