namespace Logicless.Text

/-!
Blank characters, and the two ways in which a tag body is cut at them: `strip` and `words`.

The set is that of Unicode white space together with the four information separators
U+001C to U+001F.
-/

def blankRanges : List (Nat × Nat) :=
  [(0x09, 0x0D), (0x1C, 0x20), (0x85, 0x85), (0xA0, 0xA0), (0x1680, 0x1680), (0x2000, 0x200A),
   (0x2028, 0x2029), (0x202F, 0x202F), (0x205F, 0x205F), (0x3000, 0x3000)]

def inRanges (ranges : List (Nat × Nat)) (code : Nat) : Bool :=
  ranges.any fun range => range.1 ≤ code && code ≤ range.2

def isBlank (c : Char) : Bool := inRanges blankRanges c.toNat

def strip (text : List Char) : List Char :=
  ((text.dropWhile isBlank).reverse.dropWhile isBlank).reverse

/-- The maximal blank-free runs that follow, `current` being the run read so far, last first. -/
def wordsFrom (current : List Char) : List Char → List (List Char)
  | [] => if current.isEmpty then [] else [current.reverse]
  | c :: rest =>
      if isBlank c then
        if current.isEmpty then wordsFrom [] rest else current.reverse :: wordsFrom [] rest
      else wordsFrom (c :: current) rest

def words (text : List Char) : List (List Char) := wordsFrom [] text

def isMargin (c : Char) : Bool := c == ' ' || c == '\t'

theorem isBlank_of_isMargin (c : Char) (margin : isMargin c = true) : isBlank c = true := by
  simp only [isMargin, Bool.or_eq_true, beq_iff_eq] at margin
  rcases margin with same | same <;> subst same <;> decide

theorem wordsFrom_blankFree (current text : List Char)
    (clean : ∀ c ∈ current, isBlank c = false) :
    ∀ word ∈ wordsFrom current text, ∀ c ∈ word, isBlank c = false := by
  induction text generalizing current with
  | nil =>
      intro word member c inWord
      by_cases none : current.isEmpty
      · simp [wordsFrom, none] at member
      · simp only [wordsFrom, none, Bool.false_eq_true, if_false, List.mem_singleton] at member
        subst member
        exact clean c (by simpa using inWord)
  | cons next rest ih =>
      intro word member c inWord
      simp only [wordsFrom] at member
      split at member
      · split at member
        · exact ih [] (by simp) word member c inWord
        · rcases List.mem_cons.mp member with same | later
          · subst same
            exact clean c (by simpa using inWord)
          · exact ih [] (by simp) word later c inWord
      · rename_i solid
        refine ih (next :: current) ?_ word member c inWord
        intro d inCurrent
        rcases List.mem_cons.mp inCurrent with same | before
        · subst same
          simpa using solid
        · exact clean d before

theorem words_blankFree (text : List Char) :
    ∀ word ∈ words text, ∀ c ∈ word, isBlank c = false :=
  wordsFrom_blankFree [] text (by simp)

theorem wordsFrom_ne_nil (current text : List Char) :
    ∀ word ∈ wordsFrom current text, word ≠ [] := by
  induction text generalizing current with
  | nil =>
      intro word member
      by_cases none : current = []
      · simp [wordsFrom, none] at member
      · simp only [wordsFrom, List.isEmpty_iff, none, if_false, List.mem_singleton] at member
        subst member
        simpa using none
  | cons next rest ih =>
      intro word member
      simp only [wordsFrom] at member
      split at member
      · split at member
        · exact ih [] word member
        · rename_i some
          rcases List.mem_cons.mp member with same | later
          · subst same
            simpa [List.isEmpty_iff] using some
          · exact ih [] word later
      · exact ih (next :: current) word member

theorem words_ne_nil (text : List Char) : ∀ word ∈ words text, word ≠ [] :=
  wordsFrom_ne_nil [] text

end Logicless.Text
