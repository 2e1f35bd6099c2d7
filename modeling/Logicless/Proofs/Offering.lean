import Logicless.Proofs.Inheritance

namespace Logicless

/-- A computation that has nothing to do with memory. -/
def KeepsMemory : ActionRelation := fun _ action _ =>
  ∀ store, (final (action store)).memory = store.memory

theorem searching_keepsMemory : Searching KeepsMemory where
  gives _ _ := rfl
  fails _ _ _ := rfl
  reports _ _ := rfl
  recalls _ _ := rfl
  remembers _ _ _ := rfl
  andThen := by
    intro α β first _ next _ begins continues store
    cases run : first store with
    | error fault after =>
        rw [bind_of_error run, ← begins store, run]
        rfl
    | ok result after =>
        rw [bind_of_ok run, continues result after, ← begins store, run]
        rfl

theorem tokenizeWithin_keepsMemory (source : Source) (fuel : Nat) (keep : Bool)
    (template : String) :
    KeepsMemory Tokens (tokenizeWithin source fuel keep template)
      (tokenizeWithin source fuel keep template) :=
  tokenizeWithin_self searching_keepsMemory (fun _ _ => rfl) source fuel keep template

theorem run_keepsMemory (library : Library) (handling : Handling) :
    KeepsMemory Value (handling.run library) (handling.run library) := by
  induction handling with
  | gives | raises => exact fun _ => rfl
  | tokenizes template keep next ih =>
      refine searching_keepsMemory.andThen ?_ ih
      exact tokenizeWithin_keepsMemory library.source _ keep template

/-- Pragmas may look at the view and at templates, and change nothing that is known of the view. -/
theorem offer_keepsMemory (setting : Setting) (active : ActivePragmas) (kind : Token.Kind)
    (payload : Payload) (view : Value) :
    KeepsMemory (Option Piece) (setting.offer active kind payload view)
      (setting.offer active kind payload view) := by
  have sequential := searching_keepsMemory.toSequential
  unfold Setting.offer
  split
  · exact sequential.gives none
  · rename_i home managed
    generalize active.entries = entries
    induction entries with
    | nil => exact sequential.gives none
    | cons entry rest ih =>
        obtain ⟨name, options⟩ := entry
        simp only [offerTo]
        split
        · exact fun _ => rfl
        · split
          · have looks : KeepsMemory Value (look view) (look view) := fun _ => rfl
            refine sequential.andThen looks fun now => ?_
            refine sequential.andThen (run_keepsMemory home.library _) fun piece => ?_
            split
            · exact sequential.gives _
            · exact ih
          · exact ih

/-- Of the state, looking a name up takes notice of the memory alone. -/
theorem find_moved {view value : Value} {name : String} {store other after : Store}
    (finds : find view name store = .ok value after) (memory : other.memory = store.memory) :
    find view name other = .ok value { other with memory := after.memory } := by
  cases known : (store.memory.current view).lookup name with
  | error trouble =>
      rw [find_of_error known] at finds
      cases finds
  | ok found =>
      rw [find_of_ok known] at finds
      cases finds
      rw [find_of_ok (memory.symm ▸ known), memory]

end Logicless
