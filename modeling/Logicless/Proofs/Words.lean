import Logicless.Table
import Logicless.Text.Blank

namespace Logicless

namespace Text

/-- Words with a space between them. -/
def unwords : List (List Char) → List Char
  | [] => []
  | [word] => word
  | word :: next :: rest => word ++ ' ' :: unwords (next :: rest)

/-- No blank in a text. -/
def BlankFree (text : List Char) : Prop := ∀ c ∈ text, isBlank c = false

instance (text : List Char) : Decidable (BlankFree text) :=
  List.decidableBAll (fun c => isBlank c = false) text

/-- A text that can be a word. -/
structure IsWord (word : List Char) : Prop where
  ne_nil : word ≠ []
  solid : BlankFree word

theorem wordsFrom_solid {word : List Char} (solid : BlankFree word)
    (current rest : List Char) :
    wordsFrom current (word ++ rest) = wordsFrom (word.reverse ++ current) rest := by
  induction word generalizing current with
  | nil => rfl
  | cons c word ih =>
      have here := solid c (by simp)
      have later := ih (fun d member => solid d (by simp [member])) (c :: current)
      simp only [List.cons_append, wordsFrom, here, Bool.false_eq_true, if_false, later,
        List.reverse_cons, List.append_assoc, List.nil_append]

theorem words_of_isWord {word : List Char} (isWord : IsWord word) : words word = [word] := by
  have read := wordsFrom_solid isWord.solid [] []
  rw [List.append_nil, List.append_nil] at read
  rw [words, read, wordsFrom]
  simp [isWord.ne_nil]

theorem words_append_space {word : List Char} (isWord : IsWord word) (rest : List Char) :
    words (word ++ ' ' :: rest) = word :: words rest := by
  have space : isBlank ' ' = true := by decide
  rw [words, wordsFrom_solid isWord.solid, List.append_nil, wordsFrom, if_pos space]
  simp [isWord.ne_nil, words]

theorem words_unwords {parts : List (List Char)} (areWords : ∀ word ∈ parts, IsWord word) :
    words (unwords parts) = parts := by
  induction parts with
  | nil => rfl
  | cons word rest ih =>
      have first := areWords word (by simp)
      have later := ih (fun other member => areWords other (by simp [member]))
      cases rest with
      | nil => exact words_of_isWord first
      | cons next more => rw [unwords, words_append_space first, later]

theorem strip_eq_self {text : List Char} (start : ∀ c ∈ text.head?, isBlank c = false)
    (stop : ∀ c ∈ text.getLast?, isBlank c = false) : strip text = text := by
  have front : text.dropWhile isBlank = text := by
    cases text with
    | nil => rfl
    | cons c rest => exact List.dropWhile_cons_of_neg (by simp [start c (by simp)])
  have back : text.reverse.dropWhile isBlank = text.reverse := by
    cases turned : text.reverse with
    | nil => rfl
    | cons c rest =>
        have last : text.getLast? = some c := by
          rw [← List.head?_reverse, turned]
          rfl
        exact List.dropWhile_cons_of_neg (by simp [stop c (by simp [last])])
  rw [strip, front, back, List.reverse_reverse]

theorem mem_unwords {parts : List (List Char)} {c : Char} (member : c ∈ unwords parts) :
    c = ' ' ∨ ∃ word ∈ parts, c ∈ word := by
  induction parts with
  | nil => simp [unwords] at member
  | cons word rest ih =>
      cases rest with
      | nil => exact .inr ⟨word, by simp, member⟩
      | cons next more =>
          simp only [unwords, List.mem_append, List.mem_cons] at member
          rcases member with here | same | later
          · exact .inr ⟨word, by simp, here⟩
          · exact .inl same
          · rcases ih later with same | ⟨other, among, inside⟩
            · exact .inl same
            · exact .inr ⟨other, List.mem_cons_of_mem word among, inside⟩

theorem unwords_ne_nil {word : List Char} (isWord : IsWord word) (rest : List (List Char)) :
    unwords (word :: rest) ≠ [] := by
  cases rest <;> simp [unwords, isWord.ne_nil]

theorem strip_unwords {word : List Char} {rest : List (List Char)}
    (areWords : ∀ part ∈ word :: rest, IsWord part) :
    strip (unwords (word :: rest)) = unwords (word :: rest) := by
  apply strip_eq_self
  · intro c first
    have isWord := areWords word (by simp)
    obtain ⟨start, others, split⟩ := List.exists_cons_of_ne_nil isWord.ne_nil
    have same : start = c := by cases rest <;> simpa [unwords, split] using first
    exact isWord.solid c (by simp [split, same])
  · intro c last
    induction rest generalizing word with
    | nil => exact (areWords word (by simp)).solid c (List.mem_of_getLast? last)
    | cons next more ih =>
        have later : ∀ part ∈ next :: more, IsWord part :=
          fun part member => areWords part (List.mem_cons_of_mem word member)
        apply ih later
        have longer : unwords (word :: next :: more) =
            (word ++ [' ']) ++ unwords (next :: more) := by simp [unwords]
        have split := List.dropLast_concat_getLast (unwords_ne_nil (later next (by simp)) more)
        rw [longer, ← split, ← List.append_assoc, List.getLast?_concat] at last
        rw [← split, List.getLast?_concat]
        exact last

end Text

namespace Table

variable {α : Type}

theorem foldl_insert {table : Table α} {entries : List (String × α)}
    (apart : (table.names ++ entries.map (·.1)).Nodup) :
    entries.foldl (fun table entry => table.insert entry.1 entry.2) table =
      ⟨table.entries ++ entries⟩ := by
  induction entries generalizing table with
  | nil => simp
  | cons entry rest ih =>
      obtain ⟨name, value⟩ := entry
      have absent : name ∉ table.names := by
        intro present
        simp only [List.map_cons, List.nodup_append] at apart
        exact apart.2.2 name present name (by simp) rfl
      have added := table.entries_insert_of_not_mem absent value
      rw [List.foldl_cons, ih, added]
      · simp
      · simpa [names, added] using apart

/-- Entries with different names stay as they are. -/
theorem ofList_of_nodup {entries : List (String × α)} (apart : (entries.map (·.1)).Nodup) :
    ofList entries = ⟨entries⟩ := by
  have whole : (names (empty : Table α) ++ entries.map (·.1)).Nodup := by
    simpa [names] using apart
  rw [ofList, foldl_insert whole]
  rfl

end Table

end Logicless
