namespace Logicless.Text

def after? : List Char → List Char → Option (List Char)
  | [], text => some text
  | _ :: _, [] => none
  | m :: marker, c :: text => if m = c then after? marker text else none

def breakOn (marker : List Char) : List Char → Option (List Char × List Char)
  | [] => if marker.isEmpty then some ([], []) else none
  | c :: rest =>
      match after? marker (c :: rest) with
      | some remaining => some ([], remaining)
      | none =>
          match breakOn marker rest with
          | some (before, remaining) => some (c :: before, remaining)
          | none => none

def occursIn (marker text : List Char) : Bool := (breakOn marker text).isSome

theorem after?_eq_some_iff (marker text remaining : List Char) :
    after? marker text = some remaining ↔ text = marker ++ remaining := by
  induction marker generalizing text with
  | nil => simp [after?, eq_comm]
  | cons m marker ih =>
      cases text with
      | nil => simp [after?]
      | cons c text =>
          by_cases same : m = c
          · subst same
            simp [after?, ih]
          · simp [after?, same, Ne.symm same]

theorem breakOn_eq_some {marker text before remaining : List Char}
    (cut : breakOn marker text = some (before, remaining)) :
    text = before ++ marker ++ remaining := by
  induction text generalizing before with
  | nil =>
      by_cases none : marker = []
      · subst none
        simp [breakOn] at cut
        simp [cut]
      · simp [breakOn, none] at cut
  | cons c rest ih =>
      simp only [breakOn] at cut
      split at cut
      · rename_i found
        cases cut
        simpa using (after?_eq_some_iff _ _ _).mp found
      · split at cut
        · rename_i found
          cases cut
          rw [ih found]
          simp
        · contradiction

theorem length_lt_of_breakOn {marker text before remaining : List Char} (solid : marker ≠ [])
    (cut : breakOn marker text = some (before, remaining)) : remaining.length < text.length := by
  have whole := breakOn_eq_some cut
  have positive : 0 < marker.length := List.length_pos_iff.mpr solid
  have size := congrArg List.length whole
  simp only [List.length_append] at size
  omega

/-- Every occurrence of a non-empty marker, from left to right, replaced by another text. `skip`
counts the characters of an occurrence that are still to be passed over. -/
def replaceFrom (marker replacement : List Char) : Nat → List Char → List Char
  | _, [] => []
  | skip + 1, _ :: rest => replaceFrom marker replacement skip rest
  | 0, c :: rest =>
      if (after? marker (c :: rest)).isSome then
        replacement ++ replaceFrom marker replacement (marker.length - 1) rest
      else c :: replaceFrom marker replacement 0 rest

/-- Every occurrence of a marker, from left to right, replaced by another text. An empty marker
occurs nowhere. -/
def replace (marker replacement text : List Char) : List Char :=
  if marker.isEmpty then text else replaceFrom marker replacement 0 text

/-- The pieces between the occurrences of a character; always one more than occurrences. -/
def splitOnChar (separator : Char) : List Char → List (List Char)
  | [] => [[]]
  | c :: rest =>
      if c = separator then [] :: splitOnChar separator rest
      else
        match splitOnChar separator rest with
        | [] => [[c]]
        | piece :: pieces => (c :: piece) :: pieces

theorem splitOnChar_ne_nil (separator : Char) (text : List Char) :
    splitOnChar separator text ≠ [] := by
  cases text with
  | nil => simp [splitOnChar]
  | cons c rest =>
      simp only [splitOnChar]
      split
      · simp
      · split <;> simp

end Logicless.Text
