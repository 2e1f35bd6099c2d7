import Logicless.Value.Call
import Logicless.Value.Print

namespace Logicless

abbrev Escaper := Value → Except Trouble Value

def entity (c : Char) : List Char :=
  if c = '&' then "&amp;".toList
  else if c = '<' then "&lt;".toList
  else if c = '>' then "&gt;".toList
  else if c = '"' then "&quot;".toList
  else [c]

def escapeHtml (text : List Char) : List Char := text.flatMap entity

def escapedHtml (value : Value) : String := String.ofList (escapeHtml value.decodedChars)

namespace Escaper

def html : Escaper := fun value => .ok (.text (escapedHtml value))

def none : Escaper := fun value => .ok (.text value.decoded)

/-- Encloses the text of a value, however it came about, in angle brackets. -/
def brackets : Escaper := fun value => .ok (.text ("<" ++ value.printed ++ ">"))

def empty : Escaper := fun _ => .ok (.text "")

def calling (callee : Value) : Escaper := fun value =>
  match callee.callReply [.value value] with
  | .gives result => .ok result
  | .raises trouble => .error trouble
  | .renders .. => .error .misuse

end Escaper

theorem escapeHtml_append (left right : List Char) :
    escapeHtml (left ++ right) = escapeHtml left ++ escapeHtml right := by
  simp [escapeHtml]

theorem not_mem_entity {c : Char} {mark : Char}
    (marked : mark = '<' ∨ mark = '>' ∨ mark = '"') : mark ∉ entity c := by
  unfold entity
  split
  · rcases marked with same | same | same <;> subst same <;> decide
  · split
    · rcases marked with same | same | same <;> subst same <;> decide
    · split
      · rcases marked with same | same | same <;> subst same <;> decide
      · split
        · rcases marked with same | same | same <;> subst same <;> decide
        · rename_i _ notLess notGreater notQuote
          intro member
          have same : mark = c := by simpa using member
          subst same
          rcases marked with same | same | same
          · exact notLess same
          · exact notGreater same
          · exact notQuote same

theorem not_mem_escapeHtml {text : List Char} {mark : Char}
    (marked : mark = '<' ∨ mark = '>' ∨ mark = '"') : mark ∉ escapeHtml text := by
  intro member
  obtain ⟨c, _, inside⟩ := List.mem_flatMap.mp member
  exact not_mem_entity marked inside

end Logicless
