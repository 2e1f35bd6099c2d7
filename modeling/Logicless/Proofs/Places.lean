import Logicless.Proofs.Lines
import Logicless.Proofs.Reading
import Logicless.Proofs.Words

namespace Logicless

open Text

/-!
Where the tags of a template lie in its text.

A scan only keeps what remains to be read; here its tags are given their places in the whole text.
`Lexes` describes a scan by such places alone: every tag is the first that opens behind the one
before it, can be read (`Delimiters.Accepts`), and sits in its lines as `TagPlace.Sits` says; the
last text holds no tag, or one that cannot be read. `lexes_ofText` says that the scan of a template is
described like that. What keeps places from overlapping is `FreshAt`: a tag ends in a solid
character unless it took its line with it, so the line before a later tag never reaches back over
it.
-/

/-- The line and column of a place in a text. -/
def Position.ofIndex (text : List Char) (index : Nat) : Position :=
  ⟨(text.take index).count '\n' + 1, (lastLine (text.take index)).length + 1⟩

/-- A tag in its text: the text before it, and the ends of what it takes up and of its literal
text. -/
structure TagPlace where
  chunk : List Char
  tag : Tag
  before : Nat
  start : Nat
  stop : Nat
  after : Nat

namespace TagPlace

/-- The place of a tag when the text before it begins at an index. -/
def behind (index : Nat) (chunk : List Char) (tag : Tag) : TagPlace where
  chunk := chunk
  tag := tag
  before := index + chunk.length
  start := index + chunk.length + tag.lead.length
  stop := index + chunk.length + tag.lead.length + tag.literal.length
  after := index + chunk.length + tag.lead.length + tag.literal.length + tag.trail.length

/-- A tag lies in a text behind an index, with all that it takes up. -/
structure Sits (text : List Char) (index : Nat) (place : TagPlace) : Prop where
  index_le_before : index ≤ place.before
  before_le_start : place.before ≤ place.start
  start_lt_stop : place.start < place.stop
  stop_le_after : place.stop ≤ place.after
  after_le_length : place.after ≤ text.length
  chunk_eq : slice text index place.before = place.chunk
  lead_eq : slice text place.before place.start = place.tag.lead
  literal_eq : slice text place.start place.stop = place.tag.literal
  trail_eq : slice text place.stop place.after = place.tag.trail
  lead_margin : ∀ c ∈ place.tag.lead, isMargin c = true
  trail_blank : ∃ blanks newline, place.tag.trail = blanks ++ newline ∧
    (∀ c ∈ blanks, isTrailing c = true) ∧ (newline = [] ∨ newline = ['\n'])
  bare : place.tag.sigil.standsAlone = false → place.before = place.start ∧ place.after = place.stop
  lines : place.tag.sigil.standsAlone = true →
    ((place.before = lineStart text place.start ∧ place.after = lineEnd text place.stop) ↔
      Alone (text.take place.start) (text.drop place.stop))
  narrow : ¬ Alone (text.take place.start) (text.drop place.stop) →
    place.before = place.start ∧ place.after = place.stop

end TagPlace

namespace Scan

/-- The tags of a scan in their places; the scan begins at an index. -/
def placesFrom (index : Nat) : Scan → List TagPlace
  | finished _ | broken .. => []
  | tagged chunk tag rest =>
      let place := TagPlace.behind index chunk tag
      place :: rest.placesFrom place.after

def places (scan : Scan) : List TagPlace := scan.placesFrom 0

/-- The text behind the last tag that was read. -/
def final : Scan → List Char
  | finished chunk | broken chunk _ => chunk
  | tagged _ _ rest => rest.final

end Scan

/-- The marker begins at a place of a text, and nowhere between an index and it. -/
def FirstAt (marker text : List Char) (index start : Nat) : Prop :=
  index ≤ start ∧ marker <+: text.drop start ∧
    ∀ n, index ≤ n → n < start → ¬ marker <+: text.drop n

/-- A scan is right about what a text holds behind an index. -/
inductive Lexes (text : List Char) : Delimiters → Nat → Scan → Prop where
  | finished {delimiters : Delimiters} {index : Nat}
      (never : ∀ n, index ≤ n → ¬ delimiters.opening <+: text.drop n) :
      Lexes text delimiters index (.finished (text.drop index))
  | broken {delimiters : Delimiters} {index start : Nat} {cause : FlawCause}
      (first : FirstAt delimiters.opening text index start)
      (rejects : delimiters.Rejects (text.drop (start + delimiters.opening.length)) cause) :
      Lexes text delimiters index
        (.broken (slice text index start) ⟨cause, .ofIndex text start⟩)
  | tagged {delimiters next : Delimiters} {index : Nat} {chunk body : List Char} {tag : Tag}
      {rest : Scan}
      (sits : (TagPlace.behind index chunk tag).Sits text index)
      (first : FirstAt delimiters.opening text index (TagPlace.behind index chunk tag).start)
      (accepts : delimiters.Accepts
        (text.drop ((TagPlace.behind index chunk tag).start + delimiters.opening.length))
        tag.sigil body tag.literal next)
      (named : tag.body = String.ofList body)
      (placed : tag.position = .ofIndex text (TagPlace.behind index chunk tag).start)
      (later : Lexes text next (TagPlace.behind index chunk tag).after rest) :
      Lexes text delimiters index (.tagged chunk tag rest)

theorem Position.past_eq (position : Position) (text : List Char) :
    position.past text = ⟨position.line + text.count '\n',
      if '\n' ∈ text then (lastLine text).length + 1 else position.column + text.length⟩ := by
  induction text generalizing position with
  | nil => rfl
  | cons c rest ih =>
      rw [past, ih]
      by_cases newline : c = '\n'
      · subst newline
        by_cases more : '\n' ∈ rest
        · have same : lastLine ('\n' :: rest) = lastLine rest := lastLine_append_of_mem ['\n'] more
          simp [more, same]
          omega
        · have same : lastLine ('\n' :: rest) = rest := lastLine_newline [] more
          simp [more, same]
          omega
      · by_cases more : '\n' ∈ rest
        · have same : lastLine (c :: rest) = lastLine rest := lastLine_append_of_mem [c] more
          simp [newline, more, same]
        · simp [newline, Ne.symm newline, more]
          omega

theorem Position.past_start (text : List Char) :
    Position.start.past text = .ofIndex text text.length := by
  rw [past_eq, ofIndex, List.take_length]
  by_cases broken : '\n' ∈ text
  · simp [start, broken, Nat.add_comm]
  · simp [start, broken, lastLine_of_not_mem broken, Nat.add_comm]

theorem Position.ofIndex_append (before behind : List Char) :
    Position.ofIndex (before ++ behind) before.length = Position.start.past before := by
  rw [past_start, ofIndex, ofIndex, List.take_left, List.take_length]

/-- No blank in either delimiter. This is so for all delimiters that can be in force. -/
def Delimiters.Solid (delimiters : Delimiters) : Prop :=
  BlankFree delimiters.opening ∧ BlankFree delimiters.closing

namespace Delimiters

theorem solid_standard : standard.Solid := by
  constructor <;> decide

theorem Named.solid {body : List Char} {next : Delimiters} (named : Named body next) :
    next.Solid := by
  have clean := words_blankFree body
  rw [named.1] at clean
  exact ⟨clean next.opening (by simp), clean next.closing (by simp)⟩

/-- A line on which a tag opens is not left to the tag before it. -/
theorem exists_clear_opening {delimiters : Delimiters} (solid : delimiters.Solid)
    {margin : List Char} (blank : ∀ c ∈ margin, isMargin c = true) (rest : List Char) :
    ∃ c ∈ firstLine (margin ++ (delimiters.opening ++ rest)), isTrailing c = false := by
  obtain ⟨c, others, split⟩ := List.exists_cons_of_ne_nil delimiters.opening_ne_nil
  have here : isBlank c = false := solid.1 c (by simp [split])
  refine ⟨c, ?_, isTrailing_of_not_blank here⟩
  rw [firstLine_append_of_not_mem (newline_not_mem_of_margin blank), split]
  simp [firstLine, ne_newline_of_not_blank here]

theorem Accepts.next_solid {delimiters next : Delimiters} {inner : List Char} {sigil : Sigil}
    {body literal : List Char} (accepts : delimiters.Accepts inner sigil body literal next)
    (solid : delimiters.Solid) : next.Solid := by
  by_cases switch : sigil = .delimiters
  · exact (accepts.switched switch).solid
  · rw [accepts.kept switch]
    exact solid

theorem Accepts.literal_ne_nil {delimiters next : Delimiters} {inner : List Char} {sigil : Sigil}
    {body literal : List Char} (accepts : delimiters.Accepts inner sigil body literal next) :
    literal ≠ [] := by
  obtain ⟨written, rest, _, _, whole⟩ := accepts.closed
  simp [whole, delimiters.opening_ne_nil]

/-- Where a tag was read there is text, so it is known whether the text began a line. -/
theorem Accepts.known {delimiters next : Delimiters} {inner : List Char} {sigil : Sigil}
    {body literal : List Char} (accepts : delimiters.Accepts inner sigil body literal next)
    {fresh : Bool} {passed text chunk rest : List Char} (whole : text = chunk ++ literal ++ rest)
    (known : text = [] ∨ FreshAt fresh passed) : FreshAt fresh passed := by
  refine known.resolve_left ?_
  simp [whole, accepts.literal_ne_nil]

/-- A tag ends in a character that is no margin, so nothing behind it on its line is alone. -/
theorem Accepts.freshAt {delimiters next : Delimiters} {inner : List Char} {sigil : Sigil}
    {body literal : List Char} (accepts : delimiters.Accepts inner sigil body literal next)
    (solid : delimiters.Solid) (front : List Char) : FreshAt false (front ++ literal) := by
  obtain ⟨written, rest, _, _, whole⟩ := accepts.closed
  obtain ⟨start, last, ends⟩ : ∃ start last, delimiters.closing = start ++ [last] :=
    ⟨_, _, (List.dropLast_concat_getLast delimiters.closing_ne_nil).symm⟩
  have clear : isBlank last = false := solid.2 last (by simp [ends])
  have notNewline : '\n' ∉ [last] := by
    rw [List.mem_singleton]
    exact (ne_newline_of_not_blank clear).symm
  have notMargin := isMargin_of_not_trailing (isTrailing_of_not_blank clear)
  simp only [FreshAt, Bool.false_eq_true, if_false, whole, ends, ← List.append_assoc]
  rw [lastLine_append_of_not_mem _ notNewline]
  exact ⟨last, by simp, notMargin⟩

end Delimiters

namespace Scan

/-- A tag that is settled: either its lines are empty besides and it takes them, or nothing around
it changes. -/
theorem settle_cases (fresh : Bool) (chunk : List Char) (raw : RawTag) (position : Position) :
    (∃ before lead trail after,
      raw.sigil.standsAlone = true ∧ leadingMargin fresh chunk = some (before, lead) ∧
        trailingMargin raw.rest = some (trail, after) ∧
        settle fresh chunk raw position =
          ⟨before, ⟨raw.sigil, String.ofList raw.body, lead, raw.literal, trail, position⟩, after,
            true⟩) ∨
    ((raw.sigil.standsAlone = true → leadingMargin fresh chunk = none ∨
        trailingMargin raw.rest = none) ∧
      settle fresh chunk raw position =
        ⟨chunk, ⟨raw.sigil, String.ofList raw.body, [], raw.literal, [], position⟩, raw.rest,
          false⟩) := by
  cases alone : raw.sigil.standsAlone with
  | false => exact .inr ⟨by simp, by simp [settle, alone]⟩
  | true =>
      cases leading : leadingMargin fresh chunk with
      | none => exact .inr ⟨by simp, by simp [settle, alone, leading]⟩
      | some front =>
          cases trailing : trailingMargin raw.rest with
          | none => exact .inr ⟨by simp, by simp [settle, alone, leading, trailing]⟩
          | some back =>
              obtain ⟨before, lead⟩ := front
              obtain ⟨trail, after⟩ := back
              exact .inl ⟨before, lead, trail, after, rfl, rfl, rfl,
                by simp [settle, alone, leading, trailing]⟩

end Scan

namespace TagPlace

variable {text passed chunk after : List Char} {tag : Tag}

theorem take_start (whole : text = passed ++ chunk ++ tag.source ++ after) :
    text.take (behind passed.length chunk tag).start = passed ++ chunk ++ tag.lead := by
  have split : text = (passed ++ chunk ++ tag.lead) ++ (tag.literal ++ tag.trail ++ after) := by
    simp [whole, Tag.source]
  have size : (behind passed.length chunk tag).start = (passed ++ chunk ++ tag.lead).length := by
    simp only [behind, List.length_append]
  rw [size, split, List.take_left]

theorem drop_stop (whole : text = passed ++ chunk ++ tag.source ++ after) :
    text.drop (behind passed.length chunk tag).stop = tag.trail ++ after := by
  have split : text = (passed ++ chunk ++ tag.lead ++ tag.literal) ++ (tag.trail ++ after) := by
    simp [whole, Tag.source]
  have size : (behind passed.length chunk tag).stop =
      (passed ++ chunk ++ tag.lead ++ tag.literal).length := by
    simp only [behind, List.length_append]
  rw [size, split, List.drop_left]

theorem slice_middle (front middle back : List Char) :
    slice (front ++ middle ++ back) front.length (front.length + middle.length) = middle := by
  rw [slice, List.append_assoc, List.drop_left, Nat.add_sub_cancel_left, List.take_left]

/-- What a tag takes up is where its place says, whatever surrounds it. -/
theorem slices (whole : text = passed ++ chunk ++ tag.source ++ after) :
    let place := behind passed.length chunk tag
    slice text passed.length place.before = chunk ∧
      slice text place.before place.start = tag.lead ∧
      slice text place.start place.stop = tag.literal ∧
      slice text place.stop place.after = tag.trail := by
  have first := slice_middle passed chunk (tag.lead ++ tag.literal ++ tag.trail ++ after)
  have second := slice_middle (passed ++ chunk) tag.lead (tag.literal ++ tag.trail ++ after)
  have third := slice_middle (passed ++ chunk ++ tag.lead) tag.literal (tag.trail ++ after)
  have fourth := slice_middle (passed ++ chunk ++ tag.lead ++ tag.literal) tag.trail after
  subst whole
  simp only [List.append_assoc, List.length_append, ← Nat.add_assoc] at first second third fourth
  simp only [Tag.source, List.append_assoc, behind]
  exact ⟨first, second, third, fourth⟩

theorem after_eq (index : Nat) (chunk : List Char) (tag : Tag) :
    (behind index chunk tag).after = index + chunk.length + tag.source.length := by
  simp only [behind, Tag.source, List.length_append]
  omega

/-- A tag that is alone sits with its whole lines. -/
theorem sits_alone {rest : List Char} (whole : text = passed ++ chunk ++ tag.source ++ after)
    (solid : tag.literal ≠ []) (begins : lastLine (passed ++ chunk) = [])
    (margin : ∀ c ∈ tag.lead, isMargin c = true) (split : rest = tag.trail ++ after)
    (trailing : trailingMargin rest = some (tag.trail, after))
    (sort : tag.sigil.standsAlone = true) :
    (behind passed.length chunk tag).Sits text passed.length := by
  obtain ⟨chunk_eq, lead_eq, literal_eq, trail_eq⟩ := slices whole
  obtain ⟨blanks, blank, ends⟩ := (trailingMargin_eq_some_iff ..).mp trailing
  have size := congrArg List.length whole
  simp only [List.length_append] at size
  have sizeSource : tag.source.length =
      tag.lead.length + tag.literal.length + tag.trail.length := by
    simp only [Tag.source, List.length_append]
  have positive := List.length_pos_iff.mpr solid
  have line : lastLine (text.take (behind passed.length chunk tag).start) = tag.lead := by
    rw [take_start whole, lastLine_append_of_not_mem _ (newline_not_mem_of_margin margin), begins,
      List.nil_append]
  have alone : Alone (text.take (behind passed.length chunk tag).start)
      (text.drop (behind passed.length chunk tag).stop) := by
    refine ⟨by rw [line]; exact margin, ?_⟩
    rw [drop_stop whole, ← split]
    exact (trailingMargin_isSome_iff rest).mp (by rw [trailing]; rfl)
  have lineBefore : (behind passed.length chunk tag).before =
      lineStart text (behind passed.length chunk tag).start := by
    rw [lineStart, line]
    simp only [behind]
    omega
  have lineAfter : (behind passed.length chunk tag).after =
      lineEnd text (behind passed.length chunk tag).stop := by
    have flat := newline_not_mem_of_trailing blank
    rw [lineEnd, drop_stop whole, ← split]
    rcases ends with ⟨same, trail, none⟩ | ⟨same, trail⟩
    · rw [same, firstLine_of_not_mem flat]
      rw [trail] at sizeSource
      simp only [behind, none, List.length_nil, trail] at size ⊢
      omega
    · rw [same, firstLine_newline flat]
      have width := congrArg List.length trail
      simp only [List.length_append, List.length_singleton] at width
      simp only [behind]
      omega
  exact {
    index_le_before := by simp only [behind]; omega
    before_le_start := by simp only [behind]; omega
    start_lt_stop := by simp only [behind]; omega
    stop_le_after := by simp only [behind]; omega
    after_le_length := by rw [after_eq]; omega
    chunk_eq, lead_eq, literal_eq, trail_eq
    lead_margin := margin
    trail_blank := by
      rcases ends with ⟨_, trail, _⟩ | ⟨_, trail⟩
      · exact ⟨blanks, [], by simp [behind, trail], blank, .inl rfl⟩
      · exact ⟨blanks, ['\n'], trail, blank, .inr rfl⟩
    bare := by simp [behind, sort]
    lines := fun _ => ⟨fun _ => alone, fun _ => ⟨lineBefore, lineAfter⟩⟩
    narrow := fun shared => absurd alone shared }

/-- A tag that is not alone, or is none of those that can be, sits without what surrounds it. -/
theorem sits_plain (after : List Char) (whole : text = passed ++ chunk ++ tag.source ++ after)
    (solid : tag.literal ≠ []) (lead : tag.lead = []) (trail : tag.trail = [])
    (shared : tag.sigil.standsAlone = true → ¬ Alone (passed ++ chunk) after) :
    (behind passed.length chunk tag).Sits text passed.length := by
  obtain ⟨chunk_eq, lead_eq, literal_eq, trail_eq⟩ := slices whole
  have positive := List.length_pos_iff.mpr solid
  have size := congrArg List.length whole
  simp only [Tag.source, List.length_append] at size
  have front : text.take (behind passed.length chunk tag).start = passed ++ chunk := by
    rw [take_start whole, lead, List.append_nil]
  have back : text.drop (behind passed.length chunk tag).stop = after := by
    rw [drop_stop whole, trail, List.nil_append]
  have narrow : (behind passed.length chunk tag).before = (behind passed.length chunk tag).start ∧
      (behind passed.length chunk tag).after = (behind passed.length chunk tag).stop := by
    simp [behind, lead, trail]
  exact {
    index_le_before := by simp only [behind]; omega
    before_le_start := by simp only [behind]; omega
    start_lt_stop := by simp only [behind]; omega
    stop_le_after := by simp only [behind]; omega
    after_le_length := by simp only [behind]; omega
    chunk_eq, lead_eq, literal_eq, trail_eq
    lead_margin := by simp [behind, lead]
    trail_blank := ⟨[], [], by simp [behind, trail], by simp, .inl rfl⟩
    bare := fun _ => narrow
    lines := by
      intro sort
      constructor
      · -- A line that begins and ends at the tag holds nothing else, and then it is alone.
        rintro ⟨lineBefore, lineAfter⟩
        rw [narrow.1, lineStart] at lineBefore
        rw [narrow.2, lineEnd] at lineAfter
        have short := length_lastLine_le (text.take (behind passed.length chunk tag).start)
        have bound : (behind passed.length chunk tag).start ≤ text.length := by
          simp only [behind]; omega
        rw [List.length_take] at short
        have noLine : lastLine (text.take (behind passed.length chunk tag).start) = [] :=
          List.eq_nil_of_length_eq_zero (by omega)
        have noRest : text.drop (behind passed.length chunk tag).stop = [] := by
          apply List.drop_eq_nil_of_le
          omega
        exact ⟨by simp [noLine], by simp [noRest]⟩
      · intro alone
        rw [front, back] at alone
        exact absurd alone (shared sort)
    narrow := fun _ => narrow }

end TagPlace

namespace Scan

theorem firstAt_of_breakOn {marker passed remaining chunk inner : List Char}
    (cut : breakOn marker remaining = some (chunk, inner)) :
    FirstAt marker (passed ++ remaining) passed.length (passed.length + chunk.length) := by
  obtain ⟨whole, first⟩ := (breakOn_eq_some_iff ..).mp cut
  refine ⟨Nat.le_add_right .., ?_, ?_⟩
  · rw [List.drop_length_add_append, whole, List.append_assoc, List.drop_left]
    exact List.prefix_append ..
  · intro n large small
    obtain ⟨k, rfl⟩ := Nat.exists_eq_add_of_le large
    rw [List.drop_length_add_append]
    exact first k (by omega)

theorem settle_rest (fresh : Bool) (chunk : List Char) (raw : RawTag) (position : Position) :
    (settle fresh chunk raw position).tag.trail ++ (settle fresh chunk raw position).after =
      raw.rest := by
  rcases settle_cases fresh chunk raw position with
    ⟨before, lead, trail, after, _, _, trailing, settled⟩ | ⟨_, settled⟩
  · rw [settled]
    exact (trailingMargin_eq_some trailing).symm
  · rw [settled]
    rfl

/-- A tag that is alone takes its lines. -/
theorem settle_alone {fresh : Bool} {passed chunk : List Char} {raw : RawTag} (position : Position)
    (known : FreshAt fresh passed) (sort : raw.sigil.standsAlone = true)
    (alone : Alone (passed ++ chunk) raw.rest) :
    (settle fresh chunk raw position).fresh = true ∧
      lastLine (passed ++ (settle fresh chunk raw position).before) = [] := by
  have leading := (leadingMargin_isSome_iff known chunk).mpr alone.1
  have trailing := (trailingMargin_isSome_iff raw.rest).mpr alone.2
  rcases settle_cases fresh chunk raw position with
    ⟨before, lead, trail, after, _, cut, _, settled⟩ | ⟨shared, _⟩
  · rw [settled]
    exact ⟨rfl, lastLine_of_leadingMargin known cut⟩
  · rcases shared sort with none | none
    · rw [none] at leading
      contradiction
    · rw [none] at trailing
      contradiction

/-- What a settled tag leaves behind: its place, and what the scan then knows of the line. -/
theorem settle_sits {delimiters next : Delimiters} {fresh : Bool} {passed inner : List Char}
    {raw : RawTag} (chunk : List Char) (position : Position) (solid : delimiters.Solid)
    (known : FreshAt fresh passed)
    (accepts : delimiters.Accepts inner raw.sigil raw.body raw.literal next) :
    let settled := settle fresh chunk raw position
    (TagPlace.behind passed.length settled.before settled.tag).Sits
        (passed ++ (chunk ++ raw.literal ++ raw.rest)) passed.length ∧
      (settled.after = [] ∨
        FreshAt settled.fresh (passed ++ settled.before ++ settled.tag.source)) := by
  have source := source_settle fresh chunk raw position
  rcases settle_cases fresh chunk raw position with
    ⟨before, lead, trail, after, sort, leading, trailing, settled⟩ | ⟨shared, settled⟩
  · rw [settled] at source ⊢
    obtain ⟨_, margin, _⟩ := (leadingMargin_eq_some_iff ..).mp leading
    obtain ⟨blanks, blank, ends⟩ := (trailingMargin_eq_some_iff ..).mp trailing
    have begins := lastLine_of_leadingMargin known leading
    constructor
    · exact TagPlace.sits_alone (by rw [← source]; simp only [List.append_assoc])
        accepts.literal_ne_nil begins margin (trailingMargin_eq_some trailing) trailing sort
    · rcases ends with ⟨_, _, none⟩ | ⟨_, whole⟩
      · exact .inl none
      · refine .inr (lastLine_eq_nil_of_getLast? ?_)
        simp [Tag.source, whole]
  · rw [settled] at source ⊢
    constructor
    · have whole : passed ++ (chunk ++ raw.literal ++ raw.rest) =
          passed ++ chunk ++ raw.literal ++ raw.rest := by
        simp only [List.append_assoc]
      rw [whole]
      refine TagPlace.sits_plain raw.rest ?_ accepts.literal_ne_nil rfl rfl ?_
      · simp only [Tag.source, List.nil_append, List.append_nil]
      intro sort alone
      rcases shared sort with missing | missing
      · have found := (leadingMargin_isSome_iff known chunk).mpr alone.1
        rw [missing] at found
        contradiction
      · have found := (trailingMargin_isSome_iff raw.rest).mpr alone.2
        rw [missing] at found
        contradiction
    · right
      simpa [Tag.source] using accepts.freshAt solid (passed ++ chunk)

/-- Settling moves margin from the text before a tag to the tag, and changes nothing else. -/
theorem settle_tag (fresh : Bool) (chunk : List Char) (raw : RawTag) (position : Position) :
    let settled := settle fresh chunk raw position
    settled.before ++ settled.tag.lead = chunk ∧ settled.tag.sigil = raw.sigil ∧
      settled.tag.body = String.ofList raw.body ∧ settled.tag.literal = raw.literal ∧
      settled.tag.position = position := by
  rcases settle_cases fresh chunk raw position with
    ⟨before, lead, trail, after, _, leading, _, settled⟩ | ⟨_, settled⟩
  · rw [settled]
    exact ⟨(leadingMargin_eq_some leading).1.symm, rfl, rfl, rfl, rfl⟩
  · rw [settled]
    exact ⟨List.append_nil _, rfl, rfl, rfl, rfl⟩

theorem drop_behind {opening inner chunk passed remaining : List Char}
    (cut : breakOn opening remaining = some (chunk, inner)) :
    (passed ++ remaining).drop (passed.length + chunk.length + opening.length) = inner := by
  have size : passed.length + chunk.length + opening.length =
      (passed ++ chunk ++ opening).length := by
    simp only [List.length_append]
  rw [size, breakOn_eq_some cut, ← List.append_assoc, ← List.append_assoc, List.drop_left]

theorem position_behind {opening inner chunk passed remaining : List Char}
    (cut : breakOn opening remaining = some (chunk, inner)) :
    (Position.start.past passed).past chunk =
      .ofIndex (passed ++ remaining) (passed.length + chunk.length) := by
  rw [breakOn_eq_some cut, List.append_assoc chunk, ← List.append_assoc passed,
    ← List.length_append, Position.ofIndex_append, Position.past_append]

theorem lexes_broken {delimiters : Delimiters} {passed remaining chunk inner : List Char}
    {cause : FlawCause} (cut : breakOn delimiters.opening remaining = some (chunk, inner))
    (rejects : delimiters.Rejects inner cause) :
    Lexes (passed ++ remaining) delimiters passed.length
      (.broken chunk ⟨cause, (Position.start.past passed).past chunk⟩) := by
  have text : slice (passed ++ remaining) passed.length (passed.length + chunk.length) = chunk := by
    rw [breakOn_eq_some cut, List.append_assoc chunk, ← List.append_assoc passed]
    exact TagPlace.slice_middle passed chunk _
  rw [← drop_behind cut] at rejects
  have broken := Lexes.broken (firstAt_of_breakOn cut) rejects
  rwa [text, ← position_behind cut] at broken

/-- A scan from the middle of a text is right about the rest of it. -/
theorem lexes_ofTextFrom {delimiters : Delimiters} {fresh : Bool} {position : Position}
    {passed remaining : List Char} (solid : delimiters.Solid)
    (known : remaining = [] ∨ FreshAt fresh passed) (here : position = .past .start passed) :
    Lexes (passed ++ remaining) delimiters passed.length
      (ofTextFrom delimiters fresh position remaining) := by
  fun_induction ofTextFrom delimiters fresh position remaining generalizing passed with
  | case1 delimiters fresh position remaining missing =>
      have never := (breakOn_eq_none_iff ..).mp missing
      have finished : Lexes (passed ++ remaining) delimiters passed.length
          (.finished ((passed ++ remaining).drop passed.length)) := by
        refine .finished ?_
        intro n large
        obtain ⟨k, rfl⟩ := Nat.exists_eq_add_of_le large
        rw [List.drop_length_add_append]
        exact never k
      simpa using finished
  | case2 delimiters fresh position remaining chunk inner cut =>
      rename_i missing
      subst here
      exact lexes_broken cut (.unclosed (RawTag.read_eq_none_iff.mp missing))
  | case3 delimiters fresh position remaining chunk inner cut place raw found cause =>
      rename_i flawed
      subst here
      exact lexes_broken cut (read_rejects found flawed)
  | case4 delimiters fresh position remaining chunk inner cut place raw found next changed
      settled =>
      rename_i ih
      subst here
      have accepts := read_accepts found changed
      have whole : remaining = chunk ++ raw.literal ++ raw.rest := by
        rw [breakOn_eq_some cut, List.append_assoc, List.append_assoc, RawTag.literal_read found]
      have knownHere := accepts.known whole known
      have moved := settle_tag fresh chunk raw place
      have sits := settle_sits chunk place solid knownHere accepts
      have source := source_settle fresh chunk raw place
      have same : settled = settle fresh chunk raw place := rfl
      rw [← same] at moved sits source
      clear_value settled
      obtain ⟨front, sort, body, literal, placed⟩ := moved
      obtain ⟨sits, fresher⟩ := sits
      have start : (TagPlace.behind passed.length settled.before settled.tag).start =
          passed.length + chunk.length := by
        have size := congrArg List.length front
        rw [List.length_append] at size
        simp only [TagPlace.behind]
        omega
      have rest : passed ++ settled.before ++ settled.tag.source ++ settled.after =
          passed ++ remaining := by
        rw [whole, ← source]
        simp only [List.append_assoc]
      have later := ih (accepts.next_solid solid) fresher (by simp only [Position.past_append])
      rw [rest, List.length_append, List.length_append, ← TagPlace.after_eq] at later
      refine .tagged (whole ▸ sits) ?_ ?_ body ?_ later
      · rw [start]
        exact firstAt_of_breakOn cut
      · rw [start, drop_behind cut, sort, literal]
        exact accepts
      · rw [placed, start]
        exact position_behind cut

/-- The scan of a template is right about all of its text. -/
theorem lexes_ofText (text : List Char) : Lexes text .standard 0 (ofText text) := by
  have fresh : FreshAt true [] := rfl
  have lexes : Lexes ([] ++ text) .standard [].length (ofTextFrom .standard true .start text) :=
    lexes_ofTextFrom Delimiters.solid_standard (.inr fresh) rfl
  exact lexes

end Scan

/-- Every tag ends in a character that is no margin. -/
theorem Lexes.freshAt_stop {text : List Char} {delimiters : Delimiters} {index : Nat} {scan : Scan}
    (lexes : Lexes text delimiters index scan) (solid : delimiters.Solid) :
    ∀ place ∈ scan.placesFrom index, FreshAt false (text.take place.stop) := by
  induction lexes with
  | finished => simp [Scan.placesFrom]
  | broken => simp [Scan.placesFrom]
  | @tagged delimiters next index chunk body tag rest sits _ accepts _ _ _ ih =>
      intro place member
      simp only [Scan.placesFrom, List.mem_cons] at member
      rcases member with same | later
      · rw [same]
        have whole : text.take (TagPlace.behind index chunk tag).stop =
            text.take (TagPlace.behind index chunk tag).start ++ tag.literal := by
          have literal := sits.literal_eq
          have order := Nat.add_sub_cancel' (Nat.le_of_lt sits.start_lt_stop)
          rw [slice] at literal
          rw [← order, List.take_add, literal]
          rfl
        rw [whole]
        exact accepts.freshAt solid _
      · exact ih (accepts.next_solid solid) place later

/-- Tags in their places, one behind the other up to the text behind the last one. -/
inductive Tile (text : List Char) : Nat → List TagPlace → List Char → Prop where
  | last {index : Nat} (bound : index ≤ text.length) : Tile text index [] (text.drop index)
  | next {index : Nat} {place : TagPlace} {places : List TagPlace} {final : List Char}
      (sits : place.Sits text index) (later : Tile text place.after places final) :
      Tile text index (place :: places) final

theorem Lexes.tile {text : List Char} {delimiters : Delimiters} {index : Nat} {scan : Scan}
    (lexes : Lexes text delimiters index scan) (bound : index ≤ text.length)
    (whole : scan.flaw? = none) : Tile text index (scan.placesFrom index) scan.final := by
  induction lexes with
  | finished => exact .last bound
  | broken => simp [Scan.flaw?] at whole
  | tagged sits _ _ _ _ _ ih => exact .next sits (ih sits.after_le_length whole)

/-- A scan reads a tag at most for every character. -/
theorem Lexes.length_tags_le {text : List Char} {delimiters : Delimiters} {index : Nat}
    {scan : Scan} (lexes : Lexes text delimiters index scan) (bound : index ≤ text.length) :
    index + scan.tags.length ≤ text.length := by
  induction lexes with
  | finished => exact bound
  | broken => exact bound
  | tagged sits _ _ _ _ _ ih =>
      have later := ih sits.after_le_length
      have order := sits.index_le_before
      have before := sits.before_le_start
      have width := sits.start_lt_stop
      have after := sits.stop_le_after
      simp only [Scan.tags, List.length_cons]
      omega

namespace Text

theorem slice_append_drop {text : List Char} {start stop : Nat} (order : start ≤ stop) :
    slice text start stop ++ text.drop stop = text.drop start := by
  have rest : text.drop stop = (text.drop start).drop (stop - start) := by
    rw [List.drop_drop, Nat.add_sub_cancel' order]
  rw [slice, rest, List.take_append_drop]

end Text

theorem Tile.whole {text : List Char} {index : Nat} {places : List TagPlace} {final : List Char}
    (tile : Tile text index places final) :
    (places.flatMap fun place => place.chunk ++ slice text place.before place.after) ++ final =
      text.drop index := by
  induction tile with
  | last => rfl
  | next sits _ ih =>
      rw [List.flatMap_cons, List.append_assoc, ih, List.append_assoc,
        slice_append_drop (Nat.le_trans sits.before_le_start
          (Nat.le_trans (Nat.le_of_lt sits.start_lt_stop) sits.stop_le_after)),
        ← sits.chunk_eq, slice_append_drop sits.index_le_before]

/-- The texts and tags of a template tile it: none is lost, none is read twice. -/
theorem Scan.places_tile (text : List Char) :
    Lexes text .standard 0 (ofText text) ∧ (ofText text).tags.length ≤ text.length ∧
      ((ofText text).flaw? = none →
        Tile text 0 (ofText text).places (ofText text).final ∧
          ((ofText text).places.flatMap fun place =>
            place.chunk ++ slice text place.before place.after) ++ (ofText text).final = text) := by
  have lexes := lexes_ofText text
  refine ⟨lexes, ?_, ?_⟩
  · simpa using lexes.length_tags_le (Nat.zero_le _)
  · intro whole
    have tile := lexes.tile (Nat.zero_le _) whole
    exact ⟨tile, tile.whole⟩

theorem Scan.places_tile_switch :
    let text := " \x7b\x7b=< >=\x7d\x7d\n<b>c"
    (ofText text.toList).flaw? = none ∧
      ∃ places, places.length = 2 ∧ Tile text.toList 0 places ['c'] := by
  intro text
  have whole : (ofText text.toList).flaw? = none := by decide +kernel
  have size : (ofText text.toList).places.length = 2 := by decide +kernel
  have final : (ofText text.toList).final = ['c'] := by decide +kernel
  obtain ⟨tile, _⟩ := (places_tile text.toList).2.2 whole
  rw [final] at tile
  exact ⟨whole, _, size, tile⟩

end Logicless
