import Logicless.Template.Tag

namespace Logicless

/-!
A template as text and tags in turn.

`Scan.ofText` reads a template from left to right with the delimiters that are in force. It begins
and ends with text (which may be empty) and stops at the first tag that cannot be read. The text and
the tags of a scan that is not cut short give the template back (`source_ofText`).
-/

inductive Scan where
  /-- The text behind the last tag. -/
  | finished (chunk : List Char)
  /-- The text before a tag that cannot be read. -/
  | broken (chunk : List Char) (flaw : Flaw)
  | tagged (chunk : List Char) (tag : Tag) (rest : Scan)
  deriving Repr, DecidableEq

namespace Scan

def source : Scan → List Char
  | finished chunk => chunk
  | broken chunk _ => chunk
  | tagged chunk tag rest => chunk ++ tag.source ++ rest.source

def tags : Scan → List Tag
  | finished _ | broken .. => []
  | tagged _ tag rest => tag :: rest.tags

def flaw? : Scan → Option Flaw
  | finished _ => none
  | broken _ flaw => some flaw
  | tagged _ _ rest => rest.flaw?

/-- The delimiters that the body of a delimiter tag names. -/
def delimitersOf (body : List Char) : Option Delimiters :=
  match cut : Text.words body with
  | [opening, closing] =>
      if opening.contains '=' || closing.contains '=' then none
      else
        some {
          opening, closing
          opening_ne_nil := Text.words_ne_nil body opening (by simp [cut])
          closing_ne_nil := Text.words_ne_nil body closing (by simp [cut]) }
  | _ => none

/-- The delimiters in force behind a tag, or what is wrong with the tag. -/
def delimitersAfter (delimiters : Delimiters) (raw : RawTag) : Except FlawCause Delimiters :=
  if raw.body.isEmpty && raw.sigil != .comment then .error .emptyTag
  else if raw.sigil = .delimiters then
    match delimitersOf raw.body with
    | some changed => .ok changed
    | none => .error (.badDelimiters (String.ofList raw.body))
  else .ok delimiters

structure Settled where
  before : List Char
  tag : Tag
  after : List Char
  /-- Whether the text behind the tag begins a line. -/
  fresh : Bool

/-- A tag takes its line with it when it can stand alone and nothing else is on the line. -/
def settle (fresh : Bool) (chunk : List Char) (raw : RawTag) (position : Position) : Settled :=
  let plain : Tag := ⟨raw.sigil, String.ofList raw.body, [], raw.literal, [], position⟩
  if raw.sigil.standsAlone then
    match leadingMargin fresh chunk, trailingMargin raw.rest with
    | some (before, lead), some (trail, after) => ⟨before, { plain with lead, trail }, after, true⟩
    | _, _ => ⟨chunk, plain, raw.rest, false⟩
  else ⟨chunk, plain, raw.rest, false⟩

theorem source_settle (fresh : Bool) (chunk : List Char) (raw : RawTag) (position : Position) :
    (settle fresh chunk raw position).before ++ (settle fresh chunk raw position).tag.source ++
      (settle fresh chunk raw position).after = chunk ++ raw.literal ++ raw.rest := by
  simp only [settle]
  split
  · split
    · rename_i leading trailing
      obtain ⟨before, _⟩ := leadingMargin_eq_some leading
      have behind := trailingMargin_eq_some trailing
      simp [Tag.source, before, behind]
    · simp [Tag.source]
  · simp [Tag.source]

theorem length_after_settle (fresh : Bool) (chunk : List Char) (raw : RawTag)
    (position : Position) :
    (settle fresh chunk raw position).after.length ≤ raw.rest.length := by
  simp only [settle]
  split
  · split
    · rename_i trailing
      have size := congrArg List.length (trailingMargin_eq_some trailing)
      simp only [List.length_append] at size
      simp only
      omega
    · exact Nat.le_refl _
  · exact Nat.le_refl _

/-- Scans a text that begins at a position. `fresh` tells whether it begins a line, as far as tags
before it are concerned. -/
def ofTextFrom (delimiters : Delimiters) (fresh : Bool) (position : Position) (text : List Char) :
    Scan :=
  match _cut : Text.breakOn delimiters.opening text with
  | none => .finished text
  | some (chunk, inner) =>
      let here := position.past chunk
      match _found : RawTag.read delimiters inner with
      | none => .broken chunk ⟨.unclosedTag (String.ofList delimiters.opening), here⟩
      | some raw =>
          match delimitersAfter delimiters raw with
          | .error cause => .broken chunk ⟨cause, here⟩
          | .ok changed =>
              let settled := settle fresh chunk raw here
              .tagged settled.before settled.tag
                (ofTextFrom changed settled.fresh
                  ((position.past settled.before).past settled.tag.source) settled.after)
termination_by text.length
decreasing_by
  have outer := Text.length_lt_of_breakOn delimiters.opening_ne_nil _cut
  have middle := RawTag.length_rest_read _found
  have last := length_after_settle fresh chunk raw (position.past chunk)
  omega

def ofText (text : List Char) : Scan :=
  ofTextFrom .standard true .start text

theorem source_ofTextFrom (delimiters : Delimiters) (fresh : Bool) (position : Position)
    (text : List Char) (whole : (ofTextFrom delimiters fresh position text).flaw? = none) :
    (ofTextFrom delimiters fresh position text).source = text := by
  fun_induction ofTextFrom delimiters fresh position text with
  | case1 => rfl
  | case2 => simp [flaw?] at whole
  | case3 => simp [flaw?] at whole
  | case4 delimiters fresh position text chunk inner cut here raw found changed next settled ih =>
      have outer := Text.breakOn_eq_some cut
      have middle := RawTag.literal_read found
      have joined := source_settle fresh chunk raw here
      rw [source, ih whole, joined, outer, List.append_assoc, middle, List.append_assoc]

theorem source_ofText (text : List Char) (whole : (ofText text).flaw? = none) :
    (ofText text).source = text :=
  source_ofTextFrom .standard true .start text whole

end Scan

end Logicless
