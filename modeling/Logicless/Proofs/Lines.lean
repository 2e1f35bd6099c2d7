import Logicless.Template.Tag

namespace Logicless

namespace Text

/-- What follows the last newline. -/
def lastLine (text : List Char) : List Char := (text.reverse.takeWhile (· != '\n')).reverse

/-- What precedes the first newline. -/
def firstLine (text : List Char) : List Char := text.takeWhile (· != '\n')

/-- What stands between two places. -/
def slice (text : List Char) (start stop : Nat) : List Char := (text.drop start).take (stop - start)

/-- Where the line of a place begins. -/
def lineStart (text : List Char) (index : Nat) : Nat :=
  index - (lastLine (text.take index)).length

/-- Where the line of a place ends: behind its newline, or at the end of the text. -/
def lineEnd (text : List Char) (index : Nat) : Nat :=
  min (index + (firstLine (text.drop index)).length + 1) text.length

@[simp] theorem lastLine_nil : lastLine [] = [] := rfl

@[simp] theorem firstLine_nil : firstLine [] = [] := rfl

theorem lastLine_append_of_not_mem (left : List Char) {right : List Char}
    (flat : '\n' ∉ right) : lastLine (left ++ right) = lastLine left ++ right := by
  have solid : ∀ c ∈ right.reverse, (c != '\n') = true := by
    intro c member
    simp only [bne_iff_ne]
    intro same
    subst same
    exact flat (List.mem_reverse.mp member)
  simp only [lastLine, List.reverse_append, List.takeWhile_append_of_pos solid,
    List.reverse_reverse]

theorem lastLine_newline (start : List Char) {line : List Char} (flat : '\n' ∉ line) :
    lastLine (start ++ '\n' :: line) = line := by
  have whole := lastLine_append_of_not_mem (start ++ ['\n']) flat
  have empty : lastLine (start ++ ['\n']) = [] := by simp [lastLine]
  rw [empty] at whole
  simpa using whole

theorem exists_last_newline {text : List Char} (broken : '\n' ∈ text) :
    ∃ start line, text = start ++ '\n' :: line ∧ '\n' ∉ line := by
  obtain ⟨line, start, whole, flat⟩ :=
    List.eq_append_cons_of_mem (List.mem_reverse.mpr broken)
  refine ⟨start.reverse, line.reverse, ?_, by simpa using flat⟩
  rw [← List.reverse_reverse text, whole]
  simp

theorem lastLine_append_of_mem (left : List Char) {right : List Char}
    (broken : '\n' ∈ right) : lastLine (left ++ right) = lastLine right := by
  obtain ⟨start, line, rfl, flat⟩ := exists_last_newline broken
  rw [← List.append_assoc, lastLine_newline _ flat, lastLine_newline _ flat]

theorem lastLine_of_not_mem {text : List Char} (flat : '\n' ∉ text) : lastLine text = text :=
  lastLine_append_of_not_mem [] flat

theorem not_mem_lastLine (text : List Char) : '\n' ∉ lastLine text := by
  intro member
  have solid := List.all_eq_true.mp List.all_takeWhile '\n' (List.mem_reverse.mp member)
  simp at solid

theorem length_lastLine_le (text : List Char) : (lastLine text).length ≤ text.length := by
  simpa [lastLine] using (List.takeWhile_sublist (· != '\n') (l := text.reverse)).length_le

/-- A text is cut in two at the start of its last line. -/
theorem exists_append_lastLine (text : List Char) :
    ∃ start, text = start ++ lastLine text ∧ (start = [] ∨ start.getLast? = some '\n') := by
  refine ⟨(text.reverse.dropWhile (· != '\n')).reverse, ?_, ?_⟩
  · rw [lastLine, ← List.reverse_append, List.takeWhile_append_dropWhile, List.reverse_reverse]
  · rw [List.getLast?_reverse]
    cases cut : text.reverse.dropWhile (· != '\n') with
    | nil => exact .inl rfl
    | cons c rest =>
        have stop := List.head?_dropWhile_not (· != '\n') text.reverse
        rw [cut] at stop
        have same : c = '\n' := by simpa using stop
        exact .inr (by simp [same])

theorem lastLine_eq_nil_of_getLast? {text : List Char} (ends : text.getLast? = some '\n') :
    lastLine text = [] := by
  obtain ⟨start, rfl⟩ := List.getLast?_eq_some_iff.mp ends
  exact lastLine_newline start (by simp)

theorem mem_lastLine_append {text : List Char} {c : Char} (start : List Char)
    (member : c ∈ lastLine text) : c ∈ lastLine (start ++ text) := by
  by_cases broken : '\n' ∈ text
  · rw [lastLine_append_of_mem start broken]
    exact member
  · rw [lastLine_append_of_not_mem start broken]
    rw [lastLine_of_not_mem broken] at member
    exact List.mem_append_right _ member

theorem firstLine_append_of_not_mem {left : List Char} (flat : '\n' ∉ left)
    (right : List Char) : firstLine (left ++ right) = left ++ firstLine right := by
  have solid : ∀ c ∈ left, (c != '\n') = true := by
    intro c member
    simp only [bne_iff_ne]
    intro same
    exact flat (same ▸ member)
  simp only [firstLine, List.takeWhile_append_of_pos solid]

theorem firstLine_of_not_mem {text : List Char} (flat : '\n' ∉ text) : firstLine text = text := by
  simpa using firstLine_append_of_not_mem flat []

theorem firstLine_newline {left : List Char} (flat : '\n' ∉ left) (right : List Char) :
    firstLine (left ++ '\n' :: right) = left := by
  rw [firstLine_append_of_not_mem flat]
  simp [firstLine]

theorem firstLine_append_of_mem {left : List Char} (broken : '\n' ∈ left) (right : List Char) :
    firstLine (left ++ right) = firstLine left := by
  induction left with
  | nil => simp at broken
  | cons c left ih =>
      by_cases newline : c = '\n'
      · subst newline
        simp [firstLine]
      · have later : '\n' ∈ left := by simpa [Ne.symm newline] using broken
        have same := ih later
        simp only [firstLine, List.cons_append] at same ⊢
        simp [newline, same]

end Text

open Text

/-- Nothing but margin before a tag on its first line, nothing but blanks behind it on its last. -/
def Alone (before behind : List Char) : Prop :=
  (∀ c ∈ lastLine before, isMargin c = true) ∧ (∀ c ∈ firstLine behind, isTrailing c = true)

theorem all_iff_alone {before behind : List Char} :
    ((lastLine before).all isMargin && (firstLine behind).all isTrailing) = true ↔
      Alone before behind := by
  simp only [Alone, Bool.and_eq_true, List.all_eq_true]

instance (before behind : List Char) : Decidable (Alone before behind) :=
  decidable_of_iff _ all_iff_alone

theorem newline_not_mem_of_margin {text : List Char} (margin : ∀ c ∈ text, isMargin c = true) :
    '\n' ∉ text :=
  fun member => absurd (margin '\n' member) (by decide)

theorem newline_not_mem_of_trailing {text : List Char}
    (trailing : ∀ c ∈ text, isTrailing c = true) : '\n' ∉ text :=
  fun member => absurd (trailing '\n' member) (by decide)

theorem isMargin_of_not_trailing {c : Char} (clear : isTrailing c = false) :
    isMargin c = false := by
  simp only [isTrailing, Bool.or_eq_false_iff] at clear
  exact clear.1

theorem ne_newline_of_not_blank {c : Char} (solid : isBlank c = false) : c ≠ '\n' := by
  intro same
  rw [same] at solid
  exact absurd solid (by decide)

/-- What is not blank leaves no line to the tags beside it. -/
theorem isTrailing_of_not_blank {c : Char} (solid : isBlank c = false) : isTrailing c = false := by
  cases trailing : isTrailing c with
  | false => rfl
  | true =>
      have blank : isBlank c = true := by
        simp only [isTrailing, Bool.or_eq_true, beq_iff_eq] at trailing
        rcases trailing with margin | same
        · exact isBlank_of_isMargin c margin
        · rw [same]
          decide
      rw [solid] at blank
      contradiction

theorem leadingMargin_eq_some_iff (fresh : Bool) (chunk before margin : List Char) :
    leadingMargin fresh chunk = some (before, margin) ↔
      chunk = before ++ margin ∧ (∀ c ∈ margin, isMargin c = true) ∧
        (before = [] ∧ fresh = true ∨ before.getLast? = some '\n') := by
  constructor
  · intro cut
    obtain ⟨whole, blank⟩ := leadingMargin_eq_some cut
    refine ⟨whole, blank, ?_⟩
    simp only [leadingMargin] at cut
    split at cut
    · split at cut
      · rename_i begins
        cases cut
        exact .inl ⟨rfl, begins⟩
      · contradiction
    · rename_i last found
      split at cut
      · rename_i newline
        cases cut
        exact .inr (by rw [found, newline])
      · contradiction
  · rintro ⟨whole, blank, start⟩
    have solid : ∀ c ∈ margin.reverse, isMargin c = true :=
      fun c member => blank c (List.mem_reverse.mp member)
    have cuts : chunk.reverse.takeWhile isMargin = margin.reverse ∧
        chunk.reverse.dropWhile isMargin = before.reverse := by
      rw [whole, List.reverse_append, List.takeWhile_append_of_pos solid,
        List.dropWhile_append_of_pos solid]
      rcases start with ⟨empty, _⟩ | newline
      · simp [empty]
      · obtain ⟨start, rfl⟩ := List.getLast?_eq_some_iff.mp newline
        have stop : isMargin '\n' = false := by decide
        simp [stop]
    rcases start with ⟨empty, begins⟩ | newline
    · subst empty
      simp [leadingMargin, cuts, begins]
    · simp [leadingMargin, cuts, newline]

/-- Behind a newline it does not matter whether the text begins a line. -/
theorem leadingMargin_of_fresh {fresh again : Bool} {chunk before margin : List Char}
    (begins : fresh = true → again = true ∨ '\n' ∈ chunk)
    (cut : leadingMargin fresh chunk = some (before, margin)) :
    leadingMargin again chunk = some (before, margin) := by
  obtain ⟨whole, blank, starts⟩ := (leadingMargin_eq_some_iff ..).mp cut
  refine (leadingMargin_eq_some_iff ..).mpr ⟨whole, blank, ?_⟩
  rcases starts with ⟨empty, started⟩ | newline
  · rcases begins started with same | broken
    · exact .inl ⟨empty, same⟩
    · rw [whole, empty, List.nil_append] at broken
      exact absurd broken (newline_not_mem_of_margin blank)
  · exact .inr newline

theorem trailingMargin_eq_some_iff (rest margin after : List Char) :
    trailingMargin rest = some (margin, after) ↔
      ∃ blanks, (∀ c ∈ blanks, isTrailing c = true) ∧
        (rest = blanks ∧ margin = blanks ∧ after = [] ∨
          rest = blanks ++ '\n' :: after ∧ margin = blanks ++ ['\n']) := by
  constructor
  · intro cut
    have blank : ∀ c ∈ rest.takeWhile isTrailing, isTrailing c = true :=
      fun c member => List.all_eq_true.mp List.all_takeWhile c member
    have whole : rest.takeWhile isTrailing ++ rest.dropWhile isTrailing = rest :=
      List.takeWhile_append_dropWhile
    refine ⟨rest.takeWhile isTrailing, blank, ?_⟩
    simp only [trailingMargin] at cut
    split at cut
    · rename_i none
      cases cut
      exact .inl ⟨by rw [none, List.append_nil] at whole; exact whole.symm, rfl, rfl⟩
    · rename_i c tail found
      split at cut
      · rename_i newline
        cases cut
        exact .inr ⟨by rw [found, newline] at whole; exact whole.symm, rfl⟩
      · contradiction
  · rintro ⟨blanks, blank, cases⟩
    have stop : isTrailing '\n' = false := by decide
    rcases cases with ⟨rfl, rfl, rfl⟩ | ⟨rfl, rfl⟩
    · have all : (margin ++ []).takeWhile isTrailing = margin ++ [].takeWhile isTrailing :=
        List.takeWhile_append_of_pos blank
      have none : (margin ++ []).dropWhile isTrailing = [].dropWhile isTrailing :=
        List.dropWhile_append_of_pos blank
      simp only [List.append_nil, List.takeWhile_nil, List.dropWhile_nil] at all none
      simp [trailingMargin, all, none]
    · simp [trailingMargin, List.takeWhile_append_of_pos blank,
        List.dropWhile_append_of_pos blank, stop]

/-- What a scan knows of the line that it is in. `passed` is the text so far: the flag is set
behind a newline and at the start, and is not set behind a tag that shares its line. -/
def FreshAt (fresh : Bool) (passed : List Char) : Prop :=
  if fresh then lastLine passed = [] else ∃ c ∈ lastLine passed, isMargin c = false

theorem leadingMargin_isSome_iff {fresh : Bool} {passed : List Char}
    (known : FreshAt fresh passed) (chunk : List Char) :
    (leadingMargin fresh chunk).isSome = true ↔
      ∀ c ∈ lastLine (passed ++ chunk), isMargin c = true := by
  constructor
  · intro found
    obtain ⟨⟨before, margin⟩, cut⟩ := Option.isSome_iff_exists.mp found
    obtain ⟨whole, blank, start⟩ := (leadingMargin_eq_some_iff ..).mp cut
    have flat := newline_not_mem_of_margin blank
    have lines : lastLine (passed ++ chunk) = lastLine (passed ++ before) ++ margin := by
      rw [whole, ← List.append_assoc, lastLine_append_of_not_mem _ flat]
    have empty : lastLine (passed ++ before) = [] := by
      rcases start with ⟨empty, begins⟩ | newline
      · simpa [FreshAt, begins, empty] using known
      · exact lastLine_eq_nil_of_getLast? (by simp [newline])
    rw [lines, empty, List.nil_append]
    exact blank
  · intro blank
    obtain ⟨start, whole, ends⟩ := exists_append_lastLine chunk
    by_cases broken : '\n' ∈ chunk
    · have newline : start.getLast? = some '\n' := by
        rcases ends with empty | newline
        · rw [whole, empty, List.nil_append] at broken
          exact absurd broken (not_mem_lastLine chunk)
        · exact newline
      rw [lastLine_append_of_mem _ broken] at blank
      have cut := (leadingMargin_eq_some_iff fresh chunk start (lastLine chunk)).mpr
        ⟨whole, blank, .inr newline⟩
      simp [cut]
    · rw [lastLine_append_of_not_mem _ broken] at blank
      cases fresh with
      | true =>
          have cut := (leadingMargin_eq_some_iff true chunk [] chunk).mpr
            ⟨rfl, fun c member => blank c (by simp [member]), .inl ⟨rfl, rfl⟩⟩
          simp [cut]
      | false =>
          obtain ⟨c, member, solid⟩ : ∃ c ∈ lastLine passed, isMargin c = false := by
            simpa [FreshAt] using known
          rw [blank c (by simp [member])] at solid
          contradiction

theorem lastLine_of_leadingMargin {fresh : Bool} {passed chunk before margin : List Char}
    (known : FreshAt fresh passed) (cut : leadingMargin fresh chunk = some (before, margin)) :
    lastLine (passed ++ before) = [] := by
  obtain ⟨_, _, starts⟩ := (leadingMargin_eq_some_iff ..).mp cut
  rcases starts with ⟨empty, begins⟩ | newline
  · simpa [FreshAt, begins, empty] using known
  · exact lastLine_eq_nil_of_getLast? (by simp [newline])

theorem trailingMargin_isSome_iff (rest : List Char) :
    (trailingMargin rest).isSome = true ↔ ∀ c ∈ firstLine rest, isTrailing c = true := by
  constructor
  · intro found
    obtain ⟨⟨margin, after⟩, cut⟩ := Option.isSome_iff_exists.mp found
    obtain ⟨blanks, blank, cases⟩ := (trailingMargin_eq_some_iff ..).mp cut
    have flat := newline_not_mem_of_trailing blank
    rcases cases with ⟨whole, _, _⟩ | ⟨whole, _⟩
    · rw [whole, firstLine_of_not_mem flat]
      exact blank
    · rw [whole, firstLine_newline flat]
      exact blank
  · intro blank
    by_cases broken : '\n' ∈ rest
    · obtain ⟨line, after, whole, flat⟩ := List.eq_append_cons_of_mem broken
      rw [whole, firstLine_newline flat] at blank
      have cut := (trailingMargin_eq_some_iff rest (line ++ ['\n']) after).mpr
        ⟨line, blank, .inr ⟨whole, rfl⟩⟩
      simp [cut]
    · rw [firstLine_of_not_mem broken] at blank
      have cut := (trailingMargin_eq_some_iff rest rest []).mpr
        ⟨rest, blank, .inl ⟨rfl, rfl, rfl⟩⟩
      simp [cut]

/-- Where a line ends within a text, what follows the text does not matter for it. -/
theorem trailingMargin_append {rest margin after : List Char} (broken : '\n' ∈ rest)
    (cut : trailingMargin rest = some (margin, after)) (more : List Char) :
    trailingMargin (rest ++ more) = some (margin, after ++ more) := by
  obtain ⟨blanks, blank, ends⟩ := (trailingMargin_eq_some_iff ..).mp cut
  rcases ends with ⟨whole, _, _⟩ | ⟨whole, ends⟩
  · rw [whole] at broken
    exact absurd broken (newline_not_mem_of_trailing blank)
  · refine (trailingMargin_eq_some_iff ..).mpr ⟨blanks, blank, .inr ⟨?_, ends⟩⟩
    rw [whole, List.append_assoc, List.cons_append]

theorem trailingMargin_append_eq_none {rest more : List Char}
    (blocked : ∃ c ∈ firstLine more, isTrailing c = false)
    (shared : '\n' ∈ rest → trailingMargin rest = none) : trailingMargin (rest ++ more) = none := by
  cases found : trailingMargin (rest ++ more) with
  | none => rfl
  | some cut =>
      have blank := (trailingMargin_isSome_iff (rest ++ more)).mp (by rw [found]; rfl)
      by_cases broken : '\n' ∈ rest
      · rw [firstLine_append_of_mem broken, ← trailingMargin_isSome_iff, shared broken] at blank
        contradiction
      · obtain ⟨c, member, solid⟩ := blocked
        have trailing := blank c (by
          rw [firstLine_append_of_not_mem broken]
          exact List.mem_append_right rest member)
        rw [solid] at trailing
        contradiction

end Logicless
