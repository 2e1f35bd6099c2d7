namespace Logicless

variable {ε σ α β : Type} {first : EStateM ε σ α} {next : α → EStateM ε σ β} {before after : σ}

def outcome : EStateM.Result ε σ α → Except ε α
  | .ok result _ => .ok result
  | .error fault _ => .error fault

def final : EStateM.Result ε σ α → σ
  | .ok _ state | .error _ state => state

@[simp] theorem outcome_ok (result : α) (state : σ) :
    outcome (.ok result state : EStateM.Result ε σ α) = .ok result := rfl

@[simp] theorem outcome_error (fault : ε) (state : σ) :
    outcome (.error fault state : EStateM.Result ε σ α) = .error fault := rfl

@[simp] theorem final_ok (result : α) (state : σ) :
    final (.ok result state : EStateM.Result ε σ α) = state := rfl

@[simp] theorem final_error (fault : ε) (state : σ) :
    final (.error fault state : EStateM.Result ε σ α) = state := rfl

theorem bind_of_ok {result : α} (run : first before = .ok result after) :
    (first >>= next) before = next result after := by
  simp only [bind, EStateM.bind, run]

theorem bind_of_error {fault : ε} (run : first before = .error fault after) :
    (first >>= next) before = .error fault after := by
  simp only [bind, EStateM.bind, run]

theorem ok_of_bind {result : β} (run : (first >>= next) before = .ok result after) :
    ∃ given between, first before = .ok given between ∧ next given between = .ok result after := by
  cases begun : first before with
  | ok given between => exact ⟨given, between, rfl, (bind_of_ok begun).symm.trans run⟩
  | error fault between =>
      rw [bind_of_error begun] at run
      cases run

theorem map_of_ok {given : α → β} {result : α} (run : first before = .ok result after) :
    (given <$> first) before = .ok (given result) after := by
  rw [map_eq_pure_bind, bind_of_ok run]
  rfl

theorem map_of_error {given : α → β} {fault : ε} (run : first before = .error fault after) :
    (given <$> first) before = .error fault after := by
  rw [map_eq_pure_bind, bind_of_error run]

theorem get_bind (next : σ → EStateM ε σ β) : (get >>= next) before = next before before := rfl

theorem ok_ne_error {result : α} {fault : ε} :
    (.ok result after : EStateM.Result ε σ α) ≠ .error fault before := by
  simp

theorem outcome_bind_pure (given : α → β) :
    outcome ((first >>= fun result => pure (given result)) before) =
      (outcome (first before)).map given := by
  cases run : first before with
  | ok result after =>
      rw [bind_of_ok run]
      rfl
  | error fault after =>
      rw [bind_of_error run]
      rfl

theorem bind_of_eq {other : EStateM ε σ α} (same : first before = other before) :
    (first >>= next) before = (other >>= next) before := by
  simp only [bind, EStateM.bind, same]

theorem ok_of_outcome {run : EStateM.Result ε σ α} {result : α} (ended : outcome run = .ok result) :
    ∃ state, run = .ok result state := by
  cases run with
  | error fault state => simp at ended
  | ok given state =>
      cases ended
      exact ⟨state, rfl⟩

theorem error_of_outcome {run : EStateM.Result ε σ α} {fault : ε}
    (ended : outcome run = .error fault) : ∃ state, run = .error fault state := by
  cases run with
  | ok result state => simp at ended
  | error raised state =>
      cases ended
      exact ⟨state, rfl⟩

def Settled {ι : Type} (invariant : ι → σ → Prop) (action : EStateM ε σ α) : Prop :=
  ∃ expected : Except ε α, ∀ kept state, invariant kept state →
    outcome (action state) = expected ∧ invariant kept (final (action state))

namespace Settled

variable {ι : Type} {invariant : ι → σ → Prop}

theorem pure (result : α) : Settled invariant (Pure.pure result : EStateM ε σ α) :=
  ⟨.ok result, fun _ _ holds => ⟨rfl, holds⟩⟩

theorem throw (fault : ε) : Settled invariant (MonadExcept.throw fault : EStateM ε σ α) :=
  ⟨.error fault, fun _ _ holds => ⟨rfl, holds⟩⟩

theorem andThen (begun : Settled invariant first)
    (continued : ∀ result, Settled invariant (next result)) :
    Settled invariant (first >>= next) := by
  obtain ⟨expected, begun⟩ := begun
  cases expected with
  | error fault =>
      refine ⟨.error fault, fun kept state holds => ?_⟩
      obtain ⟨ended, holdsAfter⟩ := begun kept state holds
      cases run : first state with
      | ok result after => simp [run] at ended
      | error raised after =>
          rw [run] at ended holdsAfter
          rw [bind_of_error run]
          cases ended
          exact ⟨rfl, holdsAfter⟩
  | ok result =>
      obtain ⟨expected, later⟩ := continued result
      refine ⟨expected, fun kept state holds => ?_⟩
      obtain ⟨ended, holdsAfter⟩ := begun kept state holds
      cases run : first state with
      | error raised after => simp [run] at ended
      | ok given after =>
          rw [run] at ended holdsAfter
          rw [bind_of_ok run]
          cases ended
          exact later kept after holdsAfter

theorem of_eq {other : EStateM ε σ α} (settled : Settled invariant other)
    (same : ∀ kept state, invariant kept state → first state = other state) :
    Settled invariant first := by
  obtain ⟨expected, ends⟩ := settled
  refine ⟨expected, fun kept state holds => ?_⟩
  rw [same kept state holds]
  exact ends kept state holds

end Settled

end Logicless
