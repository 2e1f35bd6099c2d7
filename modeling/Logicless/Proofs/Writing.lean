import Logicless.Proofs.Verdict
import Logicless.Proofs.Words

namespace Logicless

open Text

namespace Delimiters

/-- Characters that begin marked tags, and the brace and the equals sign that end some. -/
def reserved : List Char :=
  ['=', '\x7b', '\x7d', '#', '^', '$', '<', '/', '>', '!', '%', '&']

/-- Delimiters without blanks and reserved characters. -/
def Free (delimiters : Delimiters) : Prop :=
  ∀ c ∈ delimiters.opening ++ delimiters.closing, isBlank c = false ∧ c ∉ reserved

instance (delimiters : Delimiters) : Decidable delimiters.Free :=
  List.decidableBAll (fun c => isBlank c = false ∧ c ∉ reserved) _

/-- Delimiters that a template can be written with. -/
def Plain (delimiters : Delimiters) : Prop := delimiters = .standard ∨ delimiters.Free

/-- A tag as it is written. -/
def tag (delimiters : Delimiters) (sigil : Sigil) (body : List Char) : List Char :=
  delimiters.opening ++ (sigil.char?.toList ++ body) ++ (sigil.ending ++ delimiters.closing)

/-- A block as it is written. -/
def block (delimiters : Delimiters) (sigil : Sigil) (name : String) (inner : List Char) :
    List Char :=
  delimiters.tag sigil name.toList ++ inner ++ delimiters.tag .closing name.toList

/-- The tag that asks for delimiters, unless they are in force from the start. -/
def preamble (delimiters : Delimiters) : List Char :=
  if delimiters = .standard then []
  else standard.tag .delimiters (unwords [delimiters.opening, delimiters.closing])

/-- The token of the preamble. -/
def announced (delimiters : Delimiters) : Tokens :=
  if delimiters = .standard then []
  else [.delimiters (String.ofList delimiters.opening) (String.ofList delimiters.closing)]

/-- A text on one line that no delimiter can begin or end in. -/
def Spares (delimiters : Delimiters) (text : List Char) : Prop :=
  ∀ c ∈ text, c ≠ '\n' ∧ c ∉ delimiters.opening ∧ c ∉ delimiters.closing ∧ c ≠ '\x7b' ∧ c ≠ '\x7d'

instance (delimiters : Delimiters) (text : List Char) : Decidable (delimiters.Spares text) :=
  List.decidableBAll (fun c => c ≠ '\n' ∧ c ∉ delimiters.opening ∧ c ∉ delimiters.closing ∧
    c ≠ '\x7b' ∧ c ≠ '\x7d') text

/-- A name that can be written. -/
structure IsName (delimiters : Delimiters) (name : String) : Prop where
  ne_nil : name.toList ≠ []
  stripped : strip name.toList = name.toList
  spared : delimiters.Spares name.toList

end Delimiters

def pragmaWord (option : String × String) : List Char :=
  option.1.toList ++ '=' :: option.2.toList

def pragmaBody (name : String) (options : Options) : List Char :=
  unwords (name.toList :: options.entries.map pragmaWord)

/-- An option that can be written. -/
structure Delimiters.IsOption (delimiters : Delimiters) (option : String × String) : Prop where
  key : IsWord option.1.toList
  value : BlankFree option.2.toList
  unequal : '=' ∉ option.1.toList
  spared : delimiters.Spares (option.1.toList ++ option.2.toList)

mutual

/-- A token as it is written; tokens of known partials and delimiter tags are not. -/
def Token.written (delimiters : Delimiters) : Token → List Char
  | .content text => text.toList
  | .escaped name => delimiters.tag .escaped name.toList
  | .unescaped name => delimiters.tag .braced name.toList
  | .block name content _ => delimiters.block .block name (Tokens.written delimiters content)
  | .inverted name content => delimiters.block .inverted name (Tokens.written delimiters content)
  | .placeholder name content =>
      delimiters.block .placeholder name (Tokens.written delimiters content)
  | .partialNamed name => delimiters.tag .partials name.toList
  | .pragma name options => delimiters.tag .pragma (pragmaBody name options)
  | .comment text => delimiters.tag .comment text.toList
  | .partialKnown _ | .delimiters .. => []

def Tokens.written (delimiters : Delimiters) : List Token → List Char
  | [] => []
  | token :: rest => Token.written delimiters token ++ Tokens.written delimiters rest

end

mutual

/-- A token in which every section keeps the text that its content is written as. -/
def Token.filled (delimiters : Delimiters) : Token → Token
  | .block name content _ =>
      .block name (Tokens.filled delimiters content)
        (String.ofList (Tokens.written delimiters content))
  | .inverted name content => .inverted name (Tokens.filled delimiters content)
  | .placeholder name content => .placeholder name (Tokens.filled delimiters content)
  | .content text => .content text
  | .escaped name => .escaped name
  | .unescaped name => .unescaped name
  | .partialNamed name => .partialNamed name
  | .partialKnown tokens => .partialKnown tokens
  | .pragma name options => .pragma name options
  | .delimiters opening closing => .delimiters opening closing
  | .comment text => .comment text

def Tokens.filled (delimiters : Delimiters) : List Token → List Token
  | [] => []
  | token :: rest => Token.filled delimiters token :: Tokens.filled delimiters rest

end

mutual

/-- A token that can be written so that it is read as it was. -/
def Token.Legible (delimiters : Delimiters) : Token → Prop
  | .content text =>
      delimiters.Spares text.toList ∧ ∃ c ∈ text.toList, isTrailing c = false
  | .escaped name => delimiters.IsName name ∧ Sigil.ofText name.toList = .escaped
  | .unescaped name | .partialNamed name => delimiters.IsName name
  | .block name content _ | .inverted name content | .placeholder name content =>
      delimiters.IsName name ∧ Tokens.Legible delimiters content
  | .pragma name options =>
      IsWord name.toList ∧ delimiters.Spares name.toList ∧
        (∀ option ∈ options.entries, delimiters.IsOption option) ∧ options.names.Nodup
  | .comment text => delimiters.Spares text.toList ∧ strip text.toList = text.toList
  | .partialKnown _ | .delimiters .. => False

def Tokens.Legible (delimiters : Delimiters) : List Token → Prop
  | [] => True
  | token :: rest => Token.Legible delimiters token ∧ Tokens.Legible delimiters rest

end

namespace Delimiters

/-- What a tag has to say so that it is read as it was written. -/
structure Writes (delimiters : Delimiters) (sigil : Sigil) (body : List Char) : Prop where
  spared : ∀ c ∈ body, c ∉ sigil.ending ++ delimiters.closing
  stripped : strip body = body
  solid : body ≠ [] ∨ sigil = .comment
  unmarked : sigil = .escaped → Sigil.ofText body = .escaped

theorem Plain.solid {delimiters : Delimiters} (plain : delimiters.Plain) : delimiters.Solid := by
  rcases plain with same | free
  · subst same
    exact solid_standard
  · exact ⟨fun c member => (free c (List.mem_append_left _ member)).1,
      fun c member => (free c (List.mem_append_right _ member)).1⟩

theorem Plain.marker_not_mem {delimiters : Delimiters} (plain : delimiters.Plain) {sigil : Sigil}
    {c : Char} (begins : sigil.char? = some c) : c ∉ delimiters.closing := by
  rcases plain with same | free
  · subst same
    cases sigil <;> cases begins <;> decide
  · intro member
    have unreserved := (free c (List.mem_append_right _ member)).2
    cases sigil <;> cases begins <;> simp [reserved] at unreserved

theorem Writes.ofText_eq {delimiters : Delimiters} {sigil : Sigil} {body : List Char}
    (writes : delimiters.Writes sigil body) (rest : List Char) :
    Sigil.ofText (sigil.char?.toList ++ body ++ rest) = sigil := by
  cases sort : sigil.char? with
  | some c =>
      cases sigil <;> cases sort <;> rfl
  | none =>
      have same : sigil = .escaped := by
        cases sigil <;> first | rfl | contradiction
      subst same
      obtain ⟨c, others, split⟩ := List.exists_cons_of_ne_nil (writes.solid.resolve_right (by simp))
      have unmarked := writes.unmarked rfl
      rw [split] at unmarked ⊢
      exact unmarked

theorem Writes.closes {delimiters : Delimiters} {sigil : Sigil} {body : List Char}
    (plain : delimiters.Plain) (writes : delimiters.Writes sigil body) (rest : List Char) :
    Closes delimiters (sigil.char?.toList ++ body ++ (sigil.ending ++ delimiters.closing) ++ rest)
      sigil (sigil.char?.toList ++ body) rest := by
  rw [closes_iff]
  refine ⟨by rw [List.append_assoc]; exact (writes.ofText_eq _).symm, ?_⟩
  have solid : sigil.ending ++ delimiters.closing ≠ [] := by simp [delimiters.closing_ne_nil]
  cases ends : sigil.ending with
  | nil =>
      refine ⟨sigil.char?.toList ++ body, rfl, ?_⟩
      have spared := writes.spared
      rw [ends] at spared solid
      refine breakOn_clean solid ?_ rest
      intro c member
      rcases List.mem_append.mp member with begins | inside
      · exact plain.marker_not_mem (Option.mem_toList.mp begins)
      · exact spared c inside
  | cons last others =>
      -- Only braced tags and delimiter tags end in a marker; it is not looked for in front.
      obtain ⟨c, begins, single⟩ : ∃ c, sigil.char? = some c ∧ others = [] := by
        cases sigil <;> cases ends <;> exact ⟨_, rfl, rfl⟩
      subst single
      have spared := writes.spared
      rw [ends] at spared solid
      rw [begins]
      exact ⟨body, rfl, breakOn_clean solid spared rest⟩

theorem Writes.read_eq {delimiters : Delimiters} {sigil : Sigil} {body : List Char}
    (plain : delimiters.Plain) (writes : delimiters.Writes sigil body) (rest : List Char) :
    RawTag.read delimiters
        (sigil.char?.toList ++ body ++ (sigil.ending ++ delimiters.closing) ++ rest) =
      some ⟨sigil, body, delimiters.tag sigil body, rest⟩ := by
  refine (RawTag.read_eq_some_iff _).mpr ⟨_, writes.closes plain rest, ?_, rfl⟩
  have inner : Sigil.bodyOf sigil (sigil.char?.toList ++ body) = strip body := by
    cases sigil <;> rfl
  rw [inner, writes.stripped]

/-- A tag that was written behind a text is the next tag that a scan finds. -/
theorem Writes.reads {delimiters next : Delimiters} {sigil : Sigil} {chunk body : List Char}
    (plain : delimiters.Plain) (writes : delimiters.Writes sigil body)
    (spared : ∀ c ∈ chunk, c ∉ delimiters.opening) (rest : List Char)
    (switched : sigil = .delimiters → Named body next)
    (kept : sigil ≠ .delimiters → next = delimiters) :
    Scan.Reads delimiters (chunk ++ delimiters.tag sigil body ++ rest) chunk
      ⟨sigil, body, delimiters.tag sigil body, rest⟩ next := by
  constructor
  · refine ⟨_, ?_, writes.read_eq plain rest⟩
    rw [tag]
    have first := breakOn_clean delimiters.opening_ne_nil spared
      (sigil.char?.toList ++ body ++ (sigil.ending ++ delimiters.closing) ++ rest)
    simpa only [List.append_assoc] using first
  · exact (Scan.delimitersAfter_eq_ok_iff ..).mpr ⟨writes.solid, switched, kept⟩

end Delimiters

/-- The tag of a scan that was written. -/
def Delimiters.written (delimiters : Delimiters) (sigil : Sigil) (body : List Char) : Tag :=
  ⟨sigil, String.ofList body, [], delimiters.tag sigil body, [], .start⟩

@[simp] theorem Delimiters.source_written (delimiters : Delimiters) (sigil : Sigil)
    (body : List Char) :
    (Stretch.tag (delimiters.written sigil body)).source = delimiters.tag sigil body := by
  simp [Stretch.source, Tag.source, written]

/-- A part of a scan that was written. -/
inductive Stretch.Legible (delimiters : Delimiters) : Stretch → Prop where
  | chunk {text : List Char} (spared : delimiters.Spares text)
      (solid : ∃ c ∈ text, isTrailing c = false) : Legible delimiters (.chunk text)
  | tag {sigil : Sigil} {body : List Char} (writes : delimiters.Writes sigil body)
      (steady : sigil ≠ .delimiters) (rootless : sigil ≠ .parent) :
      Legible delimiters (.tag (delimiters.written sigil body))

/-- Text on one line that is not all blank leaves no margin. -/
theorem leadingMargin_of_solid {chunk : List Char} (flat : '\n' ∉ chunk)
    (solid : ∃ c ∈ chunk, isTrailing c = false) (fresh : Bool) :
    leadingMargin fresh chunk = none := by
  cases found : leadingMargin fresh chunk with
  | none => rfl
  | some cut =>
      obtain ⟨before, margin⟩ := cut
      obtain ⟨whole, blank, starts⟩ := (leadingMargin_eq_some_iff ..).mp found
      obtain ⟨c, member, solid⟩ := solid
      rcases starts with ⟨empty, _⟩ | newline
      · rw [whole, empty, List.nil_append] at member
        have margin := blank c member
        rw [isMargin_of_not_trailing solid] at margin
        contradiction
      · rw [whole] at flat
        exact absurd (List.mem_append_left _ (List.mem_of_getLast? newline)) flat

/-- Between texts that are not all blank a tag takes up its literal text only. -/
theorem Scan.settle_inline {chunk : List Char} (raw : RawTag) (fresh : Bool) (position : Position)
    (front : chunk = [] ∨ '\n' ∉ chunk ∧ ∃ c ∈ chunk, isTrailing c = false)
    (back : raw.rest = [] ∨ ∃ c ∈ firstLine raw.rest, isTrailing c = false) :
    ∃ begins, settle fresh chunk raw position =
      ⟨chunk, ⟨raw.sigil, String.ofList raw.body, [], raw.literal, [], position⟩, raw.rest,
        begins⟩ := by
  rcases settle_cases fresh chunk raw position with
    ⟨before, lead, trail, after, _, leading, trailing, settled⟩ | ⟨_, settled⟩
  · have noLead : before = [] ∧ lead = [] ∧ chunk = [] := by
      rcases front with empty | ⟨flat, solid⟩
      · rw [empty] at leading
        have split := (leadingMargin_eq_some leading).1
        simp only [List.nil_eq, List.append_eq_nil_iff] at split
        exact ⟨split.1, split.2, empty⟩
      · rw [leadingMargin_of_solid flat solid] at leading
        contradiction
    have noTrail : trail = [] ∧ after = [] ∧ raw.rest = [] := by
      rcases back with empty | ⟨c, member, solid⟩
      · rw [empty] at trailing
        have split := trailingMargin_eq_some trailing
        simp only [List.nil_eq, List.append_eq_nil_iff] at split
        exact ⟨split.1, split.2, empty⟩
      · have blank := (trailingMargin_isSome_iff raw.rest).mp (by rw [trailing]; rfl) c member
        rw [solid] at blank
        contradiction
    obtain ⟨rfl, rfl, rfl⟩ := noLead
    obtain ⟨rfl, rfl, empty⟩ := noTrail
    exact ⟨true, by rw [settled, empty]⟩
  · exact ⟨false, settled⟩

namespace Delimiters

variable {delimiters : Delimiters}

theorem Spares.flat {text : List Char} (spares : delimiters.Spares text) : '\n' ∉ text :=
  fun member => (spares '\n' member).1 rfl

theorem exists_solid_source (solid : delimiters.Solid) {pieces : List Stretch}
    (legible : ∀ piece ∈ pieces, piece.Legible delimiters) :
    sourceOf pieces = [] ∨ ∃ c ∈ firstLine (sourceOf pieces), isTrailing c = false := by
  cases pieces with
  | nil => exact .inl rfl
  | cons piece rest =>
      right
      rw [sourceOf_cons]
      cases legible piece (by simp) with
      | chunk spared solidText =>
          obtain ⟨c, member, solidHere⟩ := solidText
          rw [Stretch.source, firstLine_append_of_not_mem spared.flat]
          exact ⟨c, List.mem_append_left _ member, solidHere⟩
      | @tag sigil body =>
          rw [source_written, tag]
          simp only [List.append_assoc]
          exact exists_clear_opening solid (List.forall_mem_nil _) _

end Delimiters

theorem Stretch.chunk_of_legible {delimiters : Delimiters} {chunk : List Char}
    {pieces : List Stretch}
    (legible : ∀ piece ∈ Stretch.ofChunk chunk ++ pieces, piece.Legible delimiters) :
    chunk = [] ∨ delimiters.Spares chunk ∧ ∃ c ∈ chunk, isTrailing c = false := by
  cases chunk with
  | nil => exact .inl rfl
  | cons c rest =>
      cases legible (.chunk (c :: rest)) (by simp [Stretch.ofChunk]) with
      | chunk spared solid => exact .inr ⟨spared, solid⟩

theorem Delimiters.not_mem_opening {delimiters : Delimiters} {chunk : List Char}
    (front : chunk = [] ∨ delimiters.Spares chunk ∧ ∃ c ∈ chunk, isTrailing c = false) :
    ∀ c ∈ chunk, c ∉ delimiters.opening := by
  rcases front with empty | ⟨spared, _⟩
  · simp [empty]
  · exact fun c member => (spared c member).2.1

/-- Pieces that were written are the pieces that a scan finds, but for their positions. -/
theorem Scan.pieces_written {delimiters : Delimiters} {chunk : List Char} {pieces : List Stretch}
    (plain : delimiters.Plain) (fresh : Bool) (position : Position)
    (spaced : Spaced (Stretch.ofChunk chunk ++ pieces))
    (legible : ∀ piece ∈ Stretch.ofChunk chunk ++ pieces, piece.Legible delimiters) :
    (ofTextFrom delimiters fresh position (chunk ++ sourceOf pieces)).flaw? = none ∧
      (ofTextFrom delimiters fresh position (chunk ++ sourceOf pieces)).pieces.map
        Stretch.unplaced = Stretch.ofChunk chunk ++ pieces := by
  induction pieces generalizing chunk fresh position with
  | nil =>
      have clear := Delimiters.not_mem_opening (Stretch.chunk_of_legible legible)
      have none := breakOn_eq_none_of_clean delimiters.opening_ne_nil clear
      rw [sourceOf_nil, List.append_nil, List.append_nil, ofTextFrom_eq_finished none]
      exact ⟨rfl, Stretch.unplaced_ofChunk chunk⟩
  | cons piece rest ih =>
      cases legible piece (by simp) with
      | @chunk text spared solid =>
          -- Texts are not neighbours, so nothing is pending in front of this one.
          cases chunk with
          | nil =>
              obtain ⟨c, member, _⟩ := solid
              have some : Stretch.ofChunk text = [.chunk text] := by
                cases text <;> simp [Stretch.ofChunk] at member ⊢
              have later := @ih text fresh position (by rw [some]; exact spaced)
                (by rw [some]; exact legible)
              rw [some] at later
              exact later
          | cons c front =>
              obtain ⟨tag, same⟩ := spaced.2.1 (.chunk text) (by simp)
              contradiction
      | @tag sigil body writes steady _ =>
          have front := Stretch.chunk_of_legible legible
          have legibleRest : ∀ piece ∈ rest, piece.Legible delimiters :=
            fun piece member => legible piece (by simp [member])
          have reads := writes.reads plain (Delimiters.not_mem_opening front)
            (sourceOf rest)
            (fun switch => absurd switch steady) (fun _ => rfl)
          have source : chunk ++ sourceOf (.tag (delimiters.written sigil body) :: rest) =
              chunk ++ delimiters.tag sigil body ++ sourceOf rest := by
            simp
          obtain ⟨begins, settled⟩ := settle_inline
            ⟨sigil, body, delimiters.tag sigil body, sourceOf rest⟩ fresh (position.past chunk)
            (front.imp_right fun known => ⟨known.1.flat, known.2⟩)
            (Delimiters.exists_solid_source plain.solid legibleRest)
          rw [source, reads.ofTextFrom_eq]
          simp only [settled]
          have spacedRest : Spaced rest := spaced.right
          have later := fun here => @ih [] begins here spacedRest legibleRest
          simp only [List.nil_append] at later
          refine ⟨(later _).1, ?_⟩
          rw [pieces_tagged, List.map_append, Stretch.unplaced_ofChunk, List.map_cons, (later _).2]
          rfl

end Logicless
