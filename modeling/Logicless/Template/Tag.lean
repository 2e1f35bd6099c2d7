import Logicless.Template.Flaw
import Logicless.Text.Blank
import Logicless.Text.Search

namespace Logicless

/-- The two texts that enclose tags. Neither is empty. -/
structure Delimiters where
  opening : List Char
  closing : List Char
  opening_ne_nil : opening ≠ []
  closing_ne_nil : closing ≠ []
  deriving Repr, DecidableEq

def Delimiters.standard : Delimiters where
  opening := ['\x7b', '\x7b']
  closing := ['\x7d', '\x7d']
  opening_ne_nil := List.cons_ne_nil _ _
  closing_ne_nil := List.cons_ne_nil _ _

inductive Sigil where
  | escaped
  | braced
  | unescaped
  | block
  | inverted
  | placeholder
  | parent
  | closing
  | partials
  | comment
  | pragma
  | delimiters
  deriving Repr, DecidableEq

namespace Sigil

def char? : Sigil → Option Char
  | .escaped => none
  | .braced => some '\x7b'
  | .unescaped => some '&'
  | .block => some '#'
  | .inverted => some '^'
  | .placeholder => some '$'
  | .parent => some '<'
  | .closing => some '/'
  | .partials => some '>'
  | .comment => some '!'
  | .pragma => some '%'
  | .delimiters => some '='

def ofChar (c : Char) : Sigil :=
  if c = '\x7b' then .braced
  else if c = '&' then .unescaped
  else if c = '#' then .block
  else if c = '^' then .inverted
  else if c = '$' then .placeholder
  else if c = '<' then .parent
  else if c = '/' then .closing
  else if c = '>' then .partials
  else if c = '!' then .comment
  else if c = '%' then .pragma
  else if c = '=' then .delimiters
  else .escaped

def opens : Sigil → Bool
  | .block | .inverted | .placeholder | .parent => true
  | _ => false

/-- Tags that write nothing by themselves, so that a line with nothing else is dropped. -/
def standsAlone : Sigil → Bool
  | .escaped | .braced | .unescaped => false
  | _ => true

/-- What a tag of this sort ends with before the closing delimiter. -/
def ending : Sigil → List Char
  | .braced => ['\x7d']
  | .delimiters => ['=']
  | _ => []

end Sigil

/-- A tag as it is read behind an opening delimiter. -/
structure RawTag where
  sigil : Sigil
  body : List Char
  /-- The text from the opening delimiter on, up to and with the closing one. -/
  literal : List Char
  rest : List Char
  deriving Repr, DecidableEq

namespace RawTag

/-- Reads the tag of a known sort. `inner` follows the opening delimiter; the character of the sort,
if there is one, is still in front of it. -/
def readAs (delimiters : Delimiters) (sigil : Sigil) (inner : List Char) : Option RawTag :=
  let marker := sigil.ending ++ delimiters.closing
  let skipped := if sigil.ending.isEmpty then [] else inner.take 1
  match Text.breakOn marker (inner.drop skipped.length) with
  | none => none
  | some (before, rest) =>
      let raw := skipped ++ before
      let body := if sigil = .escaped then raw else raw.drop 1
      some ⟨sigil, Text.strip body, delimiters.opening ++ raw ++ marker, rest⟩

def read (delimiters : Delimiters) (inner : List Char) : Option RawTag :=
  match inner with
  | [] => none
  | c :: _ => readAs delimiters (.ofChar c) inner

theorem literal_readAs {delimiters : Delimiters} {sigil : Sigil} {inner : List Char} {raw : RawTag}
    (found : readAs delimiters sigil inner = some raw) :
    raw.literal ++ raw.rest = delimiters.opening ++ inner := by
  simp only [readAs] at found
  generalize skip : (if sigil.ending.isEmpty = true then [] else inner.take 1) = skipped at found
  have start : inner = skipped ++ inner.drop skipped.length := by
    subst skip
    split
    · simp
    · cases inner <;> simp
  split at found
  · contradiction
  · rename_i before rest cut
    cases found
    rw [Text.breakOn_eq_some cut] at start
    rw [start]
    simp

/-- A tag together with what follows it is the text behind the opening delimiter. -/
theorem literal_read {delimiters : Delimiters} {inner : List Char} {raw : RawTag}
    (found : read delimiters inner = some raw) :
    raw.literal ++ raw.rest = delimiters.opening ++ inner := by
  cases inner with
  | nil => simp [read] at found
  | cons c rest => exact literal_readAs found

theorem length_rest_readAs {delimiters : Delimiters} {sigil : Sigil} {inner : List Char}
    {raw : RawTag}
    (found : readAs delimiters sigil inner = some raw) : raw.rest.length < inner.length := by
  simp only [readAs] at found
  split at found
  · contradiction
  · rename_i before rest cut
    cases found
    have marker : sigil.ending ++ delimiters.closing ≠ [] := by
      simp [delimiters.closing_ne_nil]
    have shorter := Text.length_lt_of_breakOn marker cut
    simp only [List.length_drop] at shorter
    simp only
    omega

theorem length_rest_read {delimiters : Delimiters} {inner : List Char} {raw : RawTag}
    (found : read delimiters inner = some raw) : raw.rest.length < inner.length := by
  cases inner with
  | nil => simp [read] at found
  | cons c rest => exact length_rest_readAs found

end RawTag

/-- A tag with the text that it takes up: its literal text and, if it stands alone on its line, the
blanks around it. -/
structure Tag where
  sigil : Sigil
  body : String
  lead : List Char
  literal : List Char
  trail : List Char
  position : Position
  deriving Repr, DecidableEq

def Tag.source (tag : Tag) : List Char := tag.lead ++ tag.literal ++ tag.trail

/-- Spaces, tabs and carriage returns: what may stand behind a tag on a line of its own. -/
def isTrailing (c : Char) : Bool := Text.isMargin c || c == '\r'

/-- Cuts the margin of the last line off a text, if there is nothing else on that line. The text
begins a line if `fresh` holds. -/
def leadingMargin (fresh : Bool) (chunk : List Char) : Option (List Char × List Char) :=
  let margin := (chunk.reverse.takeWhile Text.isMargin).reverse
  let before := (chunk.reverse.dropWhile Text.isMargin).reverse
  match before.getLast? with
  | none => if fresh then some ([], margin) else none
  | some last => if last = '\n' then some (before, margin) else none

def trailingMargin (rest : List Char) : Option (List Char × List Char) :=
  let margin := rest.takeWhile isTrailing
  match rest.dropWhile isTrailing with
  | [] => some (margin, [])
  | c :: after => if c = '\n' then some (margin ++ ['\n'], after) else none

theorem leadingMargin_eq_some {fresh : Bool} {chunk before margin : List Char}
    (cut : leadingMargin fresh chunk = some (before, margin)) :
    chunk = before ++ margin ∧ ∀ c ∈ margin, Text.isMargin c = true := by
  have whole : chunk = (chunk.reverse.dropWhile Text.isMargin).reverse ++
      (chunk.reverse.takeWhile Text.isMargin).reverse := by
    rw [← List.reverse_append, List.takeWhile_append_dropWhile, List.reverse_reverse]
  have blank : ∀ c ∈ (chunk.reverse.takeWhile Text.isMargin).reverse, Text.isMargin c = true := by
    intro c member
    exact List.all_eq_true.mp List.all_takeWhile c (List.mem_reverse.mp member)
  simp only [leadingMargin] at cut
  split at cut
  · rename_i empty
    split at cut
    · cases cut
      have none : (chunk.reverse.dropWhile Text.isMargin).reverse = [] :=
        List.getLast?_eq_none_iff.mp empty
      rw [none, List.nil_append] at whole
      exact ⟨by rw [List.nil_append]; exact whole, blank⟩
    · contradiction
  · split at cut
    · cases cut
      exact ⟨whole, blank⟩
    · contradiction

theorem trailingMargin_eq_some {rest margin after : List Char}
    (cut : trailingMargin rest = some (margin, after)) : rest = margin ++ after := by
  have whole : rest = rest.takeWhile isTrailing ++ rest.dropWhile isTrailing :=
    List.takeWhile_append_dropWhile.symm
  simp only [trailingMargin] at cut
  split at cut
  · rename_i none
    cases cut
    rw [none] at whole
    exact whole
  · rename_i c tail found
    split at cut
    · rename_i newline
      subst newline
      cases cut
      rw [found] at whole
      simpa using whole
    · contradiction

end Logicless
