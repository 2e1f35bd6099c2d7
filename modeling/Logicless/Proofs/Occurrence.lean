import Logicless.Text.Search

namespace Logicless.Text

theorem isSome_after?_iff (marker text : List Char) :
    (after? marker text).isSome = true ↔ marker <+: text := by
  constructor
  · intro found
    obtain ⟨remaining, cut⟩ := Option.isSome_iff_exists.mp found
    exact ⟨remaining, ((after?_eq_some_iff marker text remaining).mp cut).symm⟩
  · rintro ⟨remaining, whole⟩
    exact Option.isSome_iff_exists.mpr
      ⟨remaining, (after?_eq_some_iff marker text remaining).mpr whole.symm⟩

theorem after?_eq_none_iff (marker text : List Char) :
    after? marker text = none ↔ ¬ marker <+: text := by
  rw [← isSome_after?_iff]
  cases after? marker text <;> simp

theorem breakOn_eq_none_iff (marker text : List Char) :
    breakOn marker text = none ↔ ∀ n, ¬ marker <+: text.drop n := by
  induction text with
  | nil => simp [breakOn]
  | cons c rest ih =>
      rw [breakOn]
      cases found : after? marker (c :: rest) with
      | some remaining =>
          have here := (isSome_after?_iff marker (c :: rest)).mp (by simp [found])
          simp only [reduceCtorEq, false_iff]
          intro nowhere
          exact nowhere 0 here
      | none =>
          have absent := (after?_eq_none_iff marker (c :: rest)).mp found
          constructor
          · intro missing n
            have later : breakOn marker rest = none := by
              cases cut : breakOn marker rest with
              | none => rfl
              | some pieces => simp [cut] at missing
            cases n with
            | zero => exact absent
            | succ n => exact ih.mp later n
          · intro nowhere
            have later : breakOn marker rest = none := ih.mpr (fun n => nowhere (n + 1))
            simp only [later]

/-- The cut is made at the first place where the marker begins. -/
theorem breakOn_eq_some_iff (marker text before after : List Char) :
    breakOn marker text = some (before, after) ↔
      text = before ++ marker ++ after ∧ ∀ n < before.length, ¬ marker <+: text.drop n := by
  constructor
  · intro cut
    refine ⟨breakOn_eq_some cut, ?_⟩
    induction text generalizing before with
    | nil =>
        by_cases empty : marker = []
        · simp only [breakOn, empty, List.isEmpty_nil, if_true, Option.some.injEq,
            Prod.mk.injEq] at cut
          intro n small
          simp [← cut.1] at small
        · simp [breakOn, empty] at cut
    | cons c rest ih =>
        rw [breakOn] at cut
        cases found : after? marker (c :: rest) with
        | some remaining =>
            simp only [found, Option.some.injEq, Prod.mk.injEq] at cut
            intro n small
            simp [← cut.1] at small
        | none =>
            have absent := (after?_eq_none_iff marker (c :: rest)).mp found
            cases later : breakOn marker rest with
            | none => simp [found, later] at cut
            | some pieces =>
                obtain ⟨shorter, remaining⟩ := pieces
                simp only [found, later, Option.some.injEq, Prod.mk.injEq] at cut
                obtain ⟨rfl, rfl⟩ := cut
                intro n small
                cases n with
                | zero => exact absent
                | succ n => exact ih shorter later n (by simpa using small)
  · rintro ⟨whole, first⟩
    induction before generalizing text with
    | nil =>
        have here := (after?_eq_some_iff marker text after).mpr (by simpa using whole)
        cases text with
        | nil =>
            have empty : marker = [] ∧ after = [] := by simpa using whole.symm
            simp [breakOn, empty]
        | cons c rest => simp [breakOn, here]
    | cons c before ih =>
        subst whole
        have absent : after? marker (c :: (before ++ marker ++ after)) = none := by
          rw [after?_eq_none_iff]
          exact first 0 (by simp)
        have later := ih (before ++ marker ++ after) rfl
          (fun n small => first (n + 1) (by simpa using small))
        simp only [List.cons_append, breakOn, absent, later]

/-- Taking text away behind the first occurrence does not move it. -/
theorem breakOn_of_append {marker text before after more : List Char}
    (cut : breakOn marker (text ++ more) = some (before, after ++ more)) :
    breakOn marker text = some (before, after) := by
  obtain ⟨whole, first⟩ := (breakOn_eq_some_iff marker _ before _).mp cut
  have shorter : text = before ++ marker ++ after := by
    rw [← List.append_assoc] at whole
    exact List.append_cancel_right whole
  refine (breakOn_eq_some_iff marker text before after).mpr ⟨shorter, ?_⟩
  intro n small found
  apply first n small
  rw [List.drop_append_of_le_length (by rw [shorter]; simp only [List.length_append]; omega)]
  exact found.trans (List.prefix_append _ _)

/-- The marker does not occur in what stands before its first occurrence, nor in a part of it. -/
theorem breakOn_before {marker text before after start : List Char} (solid : marker ≠ [])
    (cut : breakOn marker text = some (before, after)) (short : start <+: before) :
    breakOn marker start = none := by
  obtain ⟨whole, first⟩ := (breakOn_eq_some_iff marker text before after).mp cut
  rw [breakOn_eq_none_iff]
  intro n found
  have positive : 0 < marker.length := List.length_pos_iff.mpr solid
  have size := found.length_le
  have bound := short.length_le
  rw [List.length_drop] at size
  apply first n (by omega)
  obtain ⟨rest, rfl⟩ := short
  rw [whole, List.append_assoc, List.append_assoc, List.drop_append_of_le_length (by omega)]
  exact found.trans (List.prefix_append _ _)

/-- Behind a text that shares no character with the marker, the marker is found at once. -/
theorem breakOn_clean {marker before : List Char} (solid : marker ≠ [])
    (clean : ∀ c ∈ before, c ∉ marker) (after : List Char) :
    breakOn marker (before ++ marker ++ after) = some (before, after) := by
  refine (breakOn_eq_some_iff marker _ before after).mpr ⟨rfl, ?_⟩
  intro n small found
  obtain ⟨first, others, rfl⟩ := List.exists_cons_of_ne_nil solid
  rw [List.append_assoc, List.drop_append_of_le_length (by omega),
    List.drop_eq_getElem_cons small] at found
  have same := (List.cons_prefix_cons.mp found).1
  exact clean before[n] (List.getElem_mem small) (by simp [same])

theorem breakOn_eq_none_of_clean {marker text : List Char} (solid : marker ≠ [])
    (clean : ∀ c ∈ text, c ∉ marker) : breakOn marker text = none := by
  rw [breakOn_eq_none_iff]
  intro n found
  obtain ⟨first, others, rfl⟩ := List.exists_cons_of_ne_nil solid
  have present : first ∈ text.drop n := found.subset (by simp)
  exact clean first (List.mem_of_mem_drop present) (by simp)

end Logicless.Text
