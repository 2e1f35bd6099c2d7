import Logicless.Escape
import Logicless.Text.Search

namespace Logicless

namespace Text

variable {m c : Char} {marker text : List Char}

theorem replaceFrom_eq_drop (marker replacement : List Char) (skip : Nat) (text : List Char) :
    replaceFrom marker replacement skip text =
      replaceFrom marker replacement 0 (text.drop skip) := by
  induction skip generalizing text with
  | zero => rfl
  | succ skip ih =>
      cases text with
      | nil => rfl
      | cons c rest => exact ih rest

/-- An occurrence at the very beginning is replaced. -/
theorem replace_append_self (m : Char) (marker replacement rest : List Char) :
    replace (m :: marker) replacement (m :: marker ++ rest) =
      replacement ++ replace (m :: marker) replacement rest := by
  have found : after? (m :: marker) (m :: (marker ++ rest)) = some rest :=
    (after?_eq_some_iff _ _ _).mpr rfl
  have behind : (marker ++ rest).drop marker.length = rest := List.drop_left
  simp only [replace, List.isEmpty_cons, Bool.false_eq_true, if_false, List.cons_append,
    replaceFrom, found, Option.isSome_some, if_true, List.length_cons, Nat.add_sub_cancel]
  rw [replaceFrom_eq_drop, behind]

theorem replace_cons_of_none (replacement : List Char)
    (none : after? (m :: marker) (c :: text) = none) :
    replace (m :: marker) replacement (c :: text) =
      c :: replace (m :: marker) replacement text := by
  simp only [replace, List.isEmpty_cons, Bool.false_eq_true, if_false, replaceFrom, none,
    Option.isSome_none]

/-- Where the marker cannot begin, nothing is replaced. -/
theorem replace_append_of_not_mem {piece : List Char} (clear : m ∉ piece)
    (replacement rest : List Char) :
    replace (m :: marker) replacement (piece ++ rest) =
      piece ++ replace (m :: marker) replacement rest := by
  induction piece with
  | nil => rfl
  | cons c piece ih =>
      simp only [List.mem_cons, not_or] at clear
      have none : after? (m :: marker) (c :: (piece ++ rest)) = none := by
        simp only [after?, if_neg clear.1]
      rw [List.cons_append, replace_cons_of_none _ none, ih clear.2, List.cons_append]

theorem replace_singleton (m : Char) (replacement text : List Char) :
    replace [m] replacement text = text.flatMap fun c => if c = m then replacement else [c] := by
  induction text with
  | nil => rfl
  | cons c rest ih =>
      rw [List.flatMap_cons, ← ih]
      by_cases same : c = m
      · subst same
        rw [if_pos rfl]
        exact replace_append_self c [] replacement rest
      · rw [if_neg same]
        have clear : m ∉ [c] := by simpa using Ne.symm same
        exact replace_append_of_not_mem clear replacement rest

end Text

/-- The characters that have entities. -/
def special : List Char := ['&', '<', '>', '"']

theorem entity_of_not_mem {c : Char} (plain : c ∉ special) : entity c = [c] := by
  simp only [special, List.mem_cons, List.not_mem_nil, or_false, not_or] at plain
  obtain ⟨ampersand, less, greater, quote⟩ := plain
  simp only [entity, if_neg ampersand, if_neg less, if_neg greater, if_neg quote]

/-- An entity has a single ampersand, at its beginning. -/
theorem exists_name {c : Char} (marked : c ∈ special) :
    ∃ name, entity c = '&' :: name ∧ '&' ∉ name := by
  simp only [special, List.mem_cons, List.not_mem_nil, or_false] at marked
  rcases marked with rfl | rfl | rfl | rfl
  · exact ⟨"amp;".toList, rfl, by decide⟩
  · exact ⟨"lt;".toList, rfl, by decide⟩
  · exact ⟨"gt;".toList, rfl, by decide⟩
  · exact ⟨"quot;".toList, rfl, by decide⟩

/-- No entity begins like another one goes on. -/
theorem after?_entity {mark c : Char} (marked : mark ∈ special) (other : c ∈ special)
    (different : c ≠ mark) (rest : List Char) :
    Text.after? (entity mark) (entity c ++ rest) = none := by
  simp only [special, List.mem_cons, List.not_mem_nil, or_false] at marked other
  rcases marked with rfl | rfl | rfl | rfl <;> rcases other with rfl | rfl | rfl | rfl <;>
    first | contradiction | rfl

theorem escapeHtml_cons (c : Char) (rest : List Char) :
    escapeHtml (c :: rest) = entity c ++ escapeHtml rest := rfl

theorem ampersand_of_entity {c : Char} {before ending : List Char}
    (spelled : entity c = before ++ '&' :: ending) : c ∈ special ∧ before = [] := by
  have inside : '&' ∈ entity c := by simp [spelled]
  have marked : c ∈ special := by
    by_cases marked : c ∈ special
    · exact marked
    · rw [entity_of_not_mem marked, List.mem_singleton] at inside
      rw [← inside]
      decide
  obtain ⟨name, begins, single⟩ := exists_name marked
  refine ⟨marked, ?_⟩
  cases before with
  | nil => rfl
  | cons d before =>
      rw [begins, List.cons_append] at spelled
      have name_eq := (List.cons.inj spelled).2
      simp [name_eq] at single

/-- Every ampersand of an escaped text begins an entity. -/
theorem entity_of_ampersand {text before after : List Char}
    (spelled : escapeHtml text = before ++ '&' :: after) :
    ∃ c ∈ special, entity c <+: '&' :: after := by
  induction text generalizing before with
  | nil =>
      have none : ([] : List Char) = before ++ '&' :: after := spelled
      simp at none
  | cons c rest ih =>
      rw [escapeHtml_cons] at spelled
      rcases List.append_eq_append_iff.mp spelled with ⟨more, _, further⟩ | ⟨ending, here, further⟩
      · exact ih further
      · cases ending with
        | nil => exact ih (further.symm.trans (List.nil_append _).symm)
        | cons first ending =>
            obtain rfl := (List.cons.inj further).1
            obtain ⟨marked, rfl⟩ := ampersand_of_entity here
            refine ⟨c, marked, ?_⟩
            rw [here, further]
            exact List.prefix_append _ _

/-- Replaces ampersands first and the other special characters after them. -/
def escapeInTurn (text : List Char) : List Char :=
  Text.replace ['"'] "&quot;".toList <| Text.replace ['>'] "&gt;".toList <|
    Text.replace ['<'] "&lt;".toList <| Text.replace ['&'] "&amp;".toList text

theorem escapeInTurn_eq (text : List Char) : escapeInTurn text = escapeHtml text := by
  simp only [escapeInTurn, Text.replace_singleton, List.flatMap_assoc, escapeHtml]
  congr 1
  funext c
  by_cases marked : c ∈ special
  · simp only [special, List.mem_cons, List.not_mem_nil, or_false] at marked
    rcases marked with rfl | rfl | rfl | rfl <;> rfl
  · rw [entity_of_not_mem marked]
    simp only [special, List.mem_cons, List.not_mem_nil, or_false, not_or] at marked
    obtain ⟨ampersand, less, greater, quote⟩ := marked
    simp only [if_neg ampersand, if_neg less, if_neg greater, if_neg quote, List.flatMap_cons,
      List.flatMap_nil, List.append_nil]

/-- Replaces entities by what they stand for, those of ampersands last. -/
def unescapeHtml (text : List Char) : List Char :=
  Text.replace "&amp;".toList ['&'] <| Text.replace "&quot;".toList ['"'] <|
    Text.replace "&gt;".toList ['>'] <| Text.replace "&lt;".toList ['<'] text

/-- How a character is spelled when some special characters have been put back already. -/
def spelling (restored : List Char) (c : Char) : List Char :=
  if c ∈ restored then [c] else entity c

theorem spelling_nil (text : List Char) : text.flatMap (spelling []) = escapeHtml text := rfl

theorem spelling_of_plain {restored : List Char} {c : Char}
    (plain : c ∈ restored ∨ c ∉ special) : spelling restored c = [c] := by
  rcases plain with here | plain
  · exact if_pos here
  · simp only [spelling, entity_of_not_mem plain, ite_self]

theorem spelling_all {restored : List Char} (all : ∀ c ∈ special, c ∈ restored)
    (text : List Char) : text.flatMap (spelling restored) = text := by
  induction text with
  | nil => rfl
  | cons c rest ih =>
      have plain : c ∈ restored ∨ c ∉ special := by
        by_cases marked : c ∈ special
        · exact .inl (all c marked)
        · exact .inr marked
      rw [List.flatMap_cons, spelling_of_plain plain, ih, List.singleton_append]

/-- While ampersands are still spelled out, no entity can be made out but those that were written. -/
theorem replace_entity {restored : List Char} {mark : Char} (marked : mark ∈ special)
    (ampersand : '&' ∉ restored) (text : List Char) :
    Text.replace (entity mark) [mark] (text.flatMap (spelling restored)) =
      text.flatMap (spelling (mark :: restored)) := by
  obtain ⟨name, begins, _⟩ := exists_name marked
  induction text with
  | nil =>
      rw [begins]
      rfl
  | cons c rest ih =>
      rw [List.flatMap_cons, List.flatMap_cons, ← ih]
      generalize rest.flatMap (spelling restored) = rest
      by_cases escaped : c ∈ special ∧ c ∉ restored
      · have before : spelling restored c = entity c := if_neg escaped.2
        rw [before]
        by_cases same : c = mark
        · subst same
          have after : spelling (c :: restored) c = [c] := if_pos (.head _)
          rw [after, begins]
          exact Text.replace_append_self '&' name [c] rest
        · have after : spelling (mark :: restored) c = entity c :=
            if_neg (by simp only [List.mem_cons, same, escaped.2, or_self, not_false_iff])
          have none := after?_entity marked escaped.1 same rest
          obtain ⟨other, spelled, single⟩ := exists_name escaped.1
          rw [begins, spelled, List.cons_append] at none
          rw [after, begins, spelled, List.cons_append, Text.replace_cons_of_none _ none,
            Text.replace_append_of_not_mem single, List.cons_append]
      · have plain : c ∈ restored ∨ c ∉ special := by
          by_cases here : c ∈ restored
          · exact .inl here
          · exact .inr fun marked => escaped ⟨marked, here⟩
        have other : '&' ∉ [c] := by
          intro same
          obtain rfl := List.mem_singleton.mp same
          rcases plain with here | missing
          · exact ampersand here
          · exact missing (by decide)
        rw [spelling_of_plain plain, spelling_of_plain (plain.imp_left (.tail mark)), begins]
        exact Text.replace_append_of_not_mem other _ _

theorem unescapeHtml_escapeHtml (text : List Char) : unescapeHtml (escapeHtml text) = text := by
  have less := @replace_entity [] '<' (by decide) (by decide) text
  have greater := @replace_entity ['<'] '>' (by decide) (by decide) text
  have quote := @replace_entity ['>', '<'] '"' (by decide) (by decide) text
  have ampersand := @replace_entity ['"', '>', '<'] '&' (by decide) (by decide) text
  have every : ∀ c ∈ special, c ∈ ['&', '"', '>', '<'] := by simp [special]
  have all : text.flatMap (spelling ['&', '"', '>', '<']) = text := spelling_all every text
  rw [spelling_nil] at less
  rw [← less] at greater
  rw [← greater] at quote
  rw [← quote, all] at ampersand
  exact ampersand

/-- Escaping a text is replacing its special characters kind by kind. The result holds no mark of
markup, and no ampersand that does not begin an entity. It is put together from the escaped parts of
the text, and replacing its entities gives the text back. -/
theorem escapedHtml_lossless (s t : String) :
    (escapedHtml (.text s)).toList = escapeInTurn s.toList ∧
      (∀ mark, mark = '<' ∨ mark = '>' ∨ mark = '"' → mark ∉ (escapedHtml (.text s)).toList) ∧
      (∀ before after, (escapedHtml (.text s)).toList = before ++ '&' :: after →
        ∃ name ∈ ["&amp;", "&lt;", "&gt;", "&quot;"], name.toList <+: '&' :: after) ∧
      escapedHtml (.text (s ++ t)) = escapedHtml (.text s) ++ escapedHtml (.text t) ∧
      unescapeHtml (escapedHtml (.text s)).toList = s.toList ∧
      (escapedHtml (.text s) = escapedHtml (.text t) → s = t) := by
  have spelled (s : String) : (escapedHtml (.text s)).toList = escapeHtml s.toList :=
    String.toList_ofList
  have lossless (s : String) : unescapeHtml (escapedHtml (.text s)).toList = s.toList := by
    rw [spelled, unescapeHtml_escapeHtml]
  refine ⟨?_, ?_, ?_, ?_, lossless s, ?_⟩
  · rw [escapeInTurn_eq]
    exact spelled s
  · intro mark marked
    rw [spelled s]
    exact not_mem_escapeHtml marked
  · intro before after split
    obtain ⟨c, marked, begins⟩ := entity_of_ampersand ((spelled s).symm.trans split)
    simp only [special, List.mem_cons, List.not_mem_nil, or_false] at marked
    rcases marked with rfl | rfl | rfl | rfl
    · exact ⟨"&amp;", by simp, begins⟩
    · exact ⟨"&lt;", by simp, begins⟩
    · exact ⟨"&gt;", by simp, begins⟩
    · exact ⟨"&quot;", by simp, begins⟩
  · apply String.toList_inj.mp
    rw [String.toList_append, spelled, spelled, spelled, String.toList_append, escapeHtml_append]
  · intro same
    apply String.toList_inj.mp
    rw [← lossless s, ← lossless t, same]

end Logicless
