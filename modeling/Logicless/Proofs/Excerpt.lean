import Logicless.Proofs.Compiling
import Logicless.Proofs.Places

namespace Logicless

open Text

/-!
Compiling the text of a section by itself.

A section keeps the text between its tags. Scanned alone, that text gives the tags that the section
holds, if no delimiter tag is in between and its first and last line are read as they were in the
template. They may not be: a tag on one of them can be alone in the excerpt although it shares its
line with a tag of the section in the template (`StartsShared`, `EndsShared`).
-/

/-- No tag on the first line of a text is alone there. -/
def StartsShared (text : List Char) : Prop :=
  ∀ place ∈ (Scan.ofText text).places, place.tag.sigil.standsAlone = true →
    '\n' ∉ text.take place.start → ¬ Alone (text.take place.start) (text.drop place.stop)

/-- No tag on the last line of a text is alone there. -/
def EndsShared (text : List Char) : Prop :=
  ∀ place ∈ (Scan.ofText text).places, place.tag.sigil.standsAlone = true →
    '\n' ∉ text.drop place.stop → ¬ Alone (text.take place.start) (text.drop place.stop)

theorem all_iff_shared {text : List Char} (nearby : TagPlace → List Char) :
    ((Scan.ofText text).places.all fun place =>
      !place.tag.sigil.standsAlone || (nearby place).contains '\n' ||
        !decide (Alone (text.take place.start) (text.drop place.stop))) = true ↔
      ∀ place ∈ (Scan.ofText text).places, place.tag.sigil.standsAlone = true →
        '\n' ∉ nearby place → ¬ Alone (text.take place.start) (text.drop place.stop) := by
  rw [List.all_eq_true]
  refine forall_congr' fun place => forall_congr' fun _ => ?_
  by_cases near : '\n' ∈ nearby place <;> cases place.tag.sigil.standsAlone <;> simp [near]

instance (text : List Char) : Decidable (StartsShared text) :=
  decidable_of_iff _ (all_iff_shared fun place => text.take place.start)

instance (text : List Char) : Decidable (EndsShared text) :=
  decidable_of_iff _ (all_iff_shared fun place => text.drop place.stop)

mutual

/-- How many tags a token is written with. -/
def Token.tagCount : Token → Nat
  | .block _ content _ | .inverted _ content | .placeholder _ content =>
      Tokens.tagCount content + 2
  | .content _ => 0
  | _ => 1

def Tokens.tagCount : List Token → Nat
  | [] => 0
  | token :: rest => Token.tagCount token + Tokens.tagCount rest

end

/-- What a token encloses. -/
def Token.inner : Token → Tokens
  | .block _ children _ | .inverted _ children | .placeholder _ children => children
  | _ => []

/-- A tree holds a token, at any depth, behind a number of tags. -/
inductive Tokens.HoldsAt : Tokens → Nat → Token → Prop where
  | here {token : Token} {rest : Tokens} : HoldsAt (token :: rest) 0 token
  | within {token found : Token} {rest : Tokens} {index : Nat}
      (inside : HoldsAt token.inner index found) : HoldsAt (token :: rest) (index + 1) found
  | later {token found : Token} {rest : Tokens} {index : Nat}
      (behind : HoldsAt rest index found) : HoldsAt (token :: rest) (token.tagCount + index) found

theorem Tag.tagCount_leaf (tag : Tag) : tag.leaf.tagCount = 1 := by
  unfold Tag.leaf
  split <;> try rfl
  cases Text.words tag.body.toList <;> rfl

theorem Tag.inner_leaf (tag : Tag) : tag.leaf.inner = [] := by
  unfold Tag.leaf
  split <;> try rfl
  cases Text.words tag.body.toList <;> rfl

theorem Tag.leaf_ne_block (tag : Tag) (name : String) (content : Tokens) (template : String) :
    tag.leaf ≠ .block name content template := by
  unfold Tag.leaf
  split <;> try simp
  cases Text.words tag.body.toList <;> simp [pragmaToken]

theorem BlockShape.tagCount_closed {shape : BlockShape} (known : shape ≠ .parent) (name : String)
    (content : Tokens) (template : List Char) :
    (shape.closed name content template).tagCount = Tokens.tagCount content + 2 := by
  cases shape <;> first | rfl | contradiction

theorem BlockShape.inner_closed {shape : BlockShape} (known : shape ≠ .parent) (name : String)
    (content : Tokens) (template : List Char) :
    (shape.closed name content template).inner = content := by
  cases shape <;> first | rfl | contradiction

theorem Yields.length_tagsOf {pieces : List Stretch} {tokens : Tokens}
    (yields : Yields pieces tokens)
    (plain : ∀ tag ∈ tagsOf pieces, tag.sigil ≠ .parent) :
    (tagsOf pieces).length = Tokens.tagCount tokens := by
  induction yields with
  | nil => rfl
  | chunk _ ih =>
      have later := ih plain
      simp [Tokens.tagCount, Token.tagCount, later]
  | @leaf tag rest tokens _ _ _ ih =>
      have later := ih (fun tag member => plain tag (by simp [member]))
      simp only [tagsOf_tag, List.length_cons, later, Tokens.tagCount, tag.tagCount_leaf]
      omega
  | block opens _ _ _ _ ihInner ihRest =>
      have inner := ihInner (fun tag member => plain tag (by simp [member]))
      have later := ihRest (fun tag member => plain tag (by simp [member]))
      have known := Sigil.shape_ne_parent (plain _ (by simp)) opens
      simp only [List.cons_append, tagsOf_tag, tagsOf_append, List.length_cons, List.length_append,
        inner, later, Tokens.tagCount, BlockShape.tagCount_closed known]
      omega

/-- A section in a tree comes from two tags and what stands between them. -/
theorem Yields.exists_section {pieces : List Stretch} {tokens content : Tokens} {index : Nat}
    {name template : String} {found : Token} (yields : Yields pieces tokens)
    (plain : ∀ tag ∈ tagsOf pieces, tag.sigil ≠ .parent) (holds : tokens.HoldsAt index found)
    (sort : found = .block name content template) :
    ∃ before opening inner closing back,
      pieces = before ++ .tag opening :: inner ++ .tag closing :: back ∧
        (tagsOf before).length = index ∧ opening.sigil = .block ∧ opening.body = name ∧
        closing.sigil = .closing ∧ closing.body = name ∧ Yields inner content ∧
        template = String.ofList (sourceOf inner) := by
  induction yields generalizing index with
  | nil => cases holds
  | @chunk text rest tokens _ ih =>
      cases holds with
      | here => contradiction
      | within inside => cases inside
      | later behind =>
          obtain ⟨before, opening, inner, closing, back, split, size, known⟩ := ih plain behind
          exact ⟨.chunk text :: before, opening, inner, closing, back, by simp [split],
            by simp [size, Token.tagCount], known⟩
  | @leaf tag rest tokens _ _ _ ih =>
      cases holds with
      | here => exact absurd sort (tag.leaf_ne_block _ _ _)
      | within inside =>
          rw [tag.inner_leaf] at inside
          cases inside
      | later behind =>
          obtain ⟨before, opening, inner, closing, back, split, size, known⟩ :=
            ih (fun other member => plain other (by simp [member])) behind
          exact ⟨.tag tag :: before, opening, inner, closing, back, by simp [split],
            by simp [size, tag.tagCount_leaf]; omega, known⟩
  | @block shape opening closing inner rest content' tokens opens closes same within later ihInner
      ihRest =>
      have shapeKnown := Sigil.shape_ne_parent (plain opening (by simp)) opens
      have plainInner : ∀ tag ∈ tagsOf inner, tag.sigil ≠ .parent :=
        fun tag member => plain tag (by simp [member])
      cases holds with
      | here =>
          cases shape with
          | block =>
              cases sort
              have sigil : opening.sigil = .block := by
                cases known : opening.sigil <;> simp [known, Sigil.shape?] at opens ⊢
              exact ⟨[], opening, inner, closing, rest, rfl, rfl, sigil, rfl, closes, same, within,
                rfl⟩
          | inverted | placeholder | parent => contradiction
      | within inside =>
          rw [BlockShape.inner_closed shapeKnown] at inside
          obtain ⟨before, first, middle, last, back, split, size, known⟩ :=
            ihInner plainInner inside
          exact ⟨.tag opening :: before, first, middle, last, back ++ .tag closing :: rest,
            by simp [split], by simp [size], known⟩
      | later behind =>
          obtain ⟨before, first, middle, last, back, split, size, known⟩ :=
            ihRest (fun tag member => plain tag (by simp [member])) behind
          refine ⟨.tag opening :: inner ++ .tag closing :: before, first, middle, last, back,
            by simp [split], ?_, known⟩
          have count := within.length_tagsOf plainInner
          simp only [List.cons_append, tagsOf_tag, tagsOf_append, List.length_cons,
            List.length_append, size, count, BlockShape.tagCount_closed shapeKnown]
          omega

namespace Scan

/-- A tag lies in an excerpt as it does in the template, if the lines around it are the same. -/
theorem settle_excerpt {fresh again : Bool} {passed chunk tail : List Char} {raw : RawTag}
    (here there : Position) (known : FreshAt again passed) (begins : fresh = true → again = true)
    (early : fresh = again ∨ passed = [])
    (flush : raw.sigil.standsAlone = true → Alone (passed ++ chunk) raw.rest →
      (fresh = again ∨ '\n' ∈ passed ++ chunk) ∧ '\n' ∈ raw.rest)
    (blocked : ∃ c ∈ firstLine tail, isTrailing c = false) :
    let settled := settle again chunk raw there
    settle fresh chunk { raw with rest := raw.rest ++ tail } here =
      ⟨settled.before, { settled.tag with position := here }, settled.after ++ tail,
        settled.fresh⟩ := by
  rcases settle_cases again chunk raw there with
    ⟨before, lead, trail, after, sort, leading, trailing, settled⟩ | ⟨shared, settled⟩
  · have alone : Alone (passed ++ chunk) raw.rest :=
      ⟨(leadingMargin_isSome_iff known chunk).mp (by rw [leading]; rfl),
        (trailingMargin_isSome_iff raw.rest).mp (by rw [trailing]; rfl)⟩
    obtain ⟨starts, ends⟩ := flush sort alone
    have startsHere : again = true → fresh = true ∨ '\n' ∈ chunk := by
      intro started
      rcases starts with same | broken
      · exact .inl (same.trans started)
      · rcases early with same | first
        · exact .inl (same.trans started)
        · rw [first] at broken
          exact .inr broken
    have leadingToo := leadingMargin_of_fresh startsHere leading
    have trailingToo := trailingMargin_append ends trailing tail
    rw [settled]
    simp [settle, sort, leadingToo, trailingToo]
  · rw [settled]
    cases sort : raw.sigil.standsAlone with
    | false => simp [settle, sort]
    | true =>
        cases leading : leadingMargin fresh chunk with
        | none => simp [settle, sort, leading]
        | some front =>
            -- The excerpt has the same margin in front, so the line goes on behind the tag.
            have leadingToo := leadingMargin_of_fresh (fun started => .inl (begins started)) leading
            have missing : trailingMargin (raw.rest ++ tail) = none := by
              refine trailingMargin_append_eq_none blocked (fun _ => ?_)
              rcases shared sort with none | none
              · rw [leadingToo] at none
                contradiction
              · exact none
            simp [settle, sort, leading, missing]

/-- A tag among the pieces of a scan, among its places. -/
theorem exists_place_of_pieces {scan : Scan} {before back : List Stretch} {tag : Tag}
    (pieces : scan.pieces = before ++ .tag tag :: back) (index : Nat) :
    ∃ earlier front chunk later,
      scan.placesFrom index =
        earlier ++ TagPlace.behind (index + front.length) chunk tag :: later ∧
      earlier.length = (tagsOf before).length ∧ sourceOf before = front ++ chunk := by
  induction scan generalizing index before with
  | finished chunk => exact absurd pieces Stretch.ofChunk_ne
  | broken chunk flaw => exact absurd pieces Stretch.ofChunk_ne
  | tagged chunk found rest ih =>
      rcases Stretch.ofChunk_append_eq pieces with ⟨rfl, rfl, rfl⟩ | ⟨within, rfl, later⟩
      · exact ⟨[], [], chunk, _, rfl, by simp, by simp⟩
      · obtain ⟨earlier, front, text, behind, places, size, source⟩ :=
          ih later (TagPlace.behind index chunk found).after
        refine ⟨TagPlace.behind index chunk found :: earlier, chunk ++ found.source ++ front, text,
          behind, ?_, by simp [size], by simp [source, Stretch.source]⟩
        rw [Scan.placesFrom, places, TagPlace.after_eq]
        simp [Nat.add_assoc]

/-- What is known of a tag in a scan, and of the scan behind it. -/
theorem exists_behind {scan : Scan} {delimiters : Delimiters} {fresh : Bool}
    {position : Position} {passed text : List Char} {before back : List Stretch} {tag : Tag}
    (solid : delimiters.Solid) (known : text = [] ∨ FreshAt fresh passed)
    (scanned : ofTextFrom delimiters fresh position text = scan)
    (pieces : scan.pieces = before ++ .tag tag :: back)
    (steady : ∀ other ∈ tagsOf before, other.sigil ≠ .delimiters) :
    ∃ next begins here rest, text = sourceOf before ++ tag.source ++ rest ∧
      (ofTextFrom next begins here rest).pieces = back ∧
      (tag.sigil ≠ .delimiters → next = delimiters) ∧
      (rest = [] ∨ FreshAt begins (passed ++ sourceOf before ++ tag.source)) ∧
      (∀ c ∈ tag.lead, isMargin c = true) ∧ delimiters.opening <+: tag.literal ∧
      (tag.sigil.standsAlone = true →
        Alone (passed ++ sourceOf before ++ tag.lead) (tag.trail ++ rest) →
          begins = true ∧ lastLine (passed ++ sourceOf before) = []) := by
  induction scan generalizing fresh position passed text before with
  | finished chunk => exact absurd pieces Stretch.ofChunk_ne
  | broken chunk flaw => exact absurd pieces Stretch.ofChunk_ne
  | tagged lead found later ih =>
      obtain ⟨chunk, raw, next, reads, rfl, rfl, continues⟩ := exists_reads scanned
      obtain ⟨inner, accepts⟩ := reads.accepts
      have whole := reads.whole
      have knownHere := accepts.known whole known
      have source := source_settle fresh chunk raw (position.past chunk)
      have moved := settle_tag fresh chunk raw (position.past chunk)
      have behind := settle_rest fresh chunk raw (position.past chunk)
      obtain ⟨sits, fresher⟩ := settle_sits chunk (position.past chunk) solid knownHere accepts
      have alone := @settle_alone _ _ chunk raw (position.past chunk) knownHere
      generalize settle fresh chunk raw (position.past chunk) = settled at *
      obtain ⟨front, sort, _, literal, _⟩ := moved
      rcases Stretch.ofChunk_append_eq pieces with ⟨rfl, rfl, rfl⟩ | ⟨within, rfl, more⟩
      · refine ⟨next, _, _, settled.after, ?_, congrArg Scan.pieces continues, ?_, ?_,
          sits.lead_margin, ?_, ?_⟩
        · simp [whole, source]
        · intro plain
          exact accepts.kept (sort ▸ plain)
        · simpa using fresher
        · obtain ⟨_, _, _, _, begins⟩ := accepts.closed
          rw [literal, begins, List.append_assoc]
          exact List.prefix_append ..
        · rw [sourceOf_ofChunk, List.append_assoc, front, behind, sort]
          exact alone
      · have plain : settled.tag.sigil ≠ .delimiters := steady settled.tag (by simp)
        have same : next = delimiters := accepts.kept (sort ▸ plain)
        subst same
        obtain ⟨last, begins, here, rest, text', pieces', kept, fresher', margin, opens, alone'⟩ :=
          ih fresher continues more (fun other member => steady other (by simp [member]))
        refine ⟨last, begins, here, rest, ?_, pieces', kept, ?_, margin, opens, ?_⟩
        · rw [whole, ← source, text']
          simp [Stretch.source]
        · simpa [Stretch.source] using fresher'
        · simpa [Stretch.source] using alone'

/-- Tags that are alone in their lines end no text, and begin one only if it is `shared`. -/
def Flush (shared : Prop) (text : List Char) (places : List TagPlace) : Prop :=
  ∀ place ∈ places, place.tag.sigil.standsAlone = true →
    Alone (text.take place.start) (text.drop place.stop) →
      (shared ∨ '\n' ∈ text.take place.start) ∧ '\n' ∈ text.drop place.stop

theorem Flush.first {shared : Prop} {text passed before rest : List Char} {tag : Tag}
    {places : List TagPlace}
    (flush : Flush shared text (TagPlace.behind passed.length before tag :: places))
    (whole : text = passed ++ before ++ tag.source ++ rest)
    (sort : tag.sigil.standsAlone = true)
    (alone : Alone (passed ++ before ++ tag.lead) (tag.trail ++ rest)) :
    (shared ∨ '\n' ∈ passed ++ before ++ tag.lead) ∧ '\n' ∈ tag.trail ++ rest := by
  have here := flush _ List.mem_cons_self sort
  rw [TagPlace.take_start whole, TagPlace.drop_stop whole] at here
  exact here alone

theorem Flush.later {shared : Prop} {text : List Char} {place : TagPlace}
    {places : List TagPlace} (flush : Flush shared text (place :: places)) :
    Flush True text places :=
  fun other member sort alone =>
    ⟨.inl trivial, (flush other (List.mem_cons_of_mem _ member) sort alone).2⟩

/-- A tag that ends in the front of a text. -/
theorem Reads.exists_short {delimiters next : Delimiters} {part tail more chunk : List Char}
    {raw : RawTag} (reads : Reads delimiters (part ++ tail) chunk raw next) (position : Position)
    (fresh : Bool)
    (covers : part = (settle fresh chunk raw position).before ++
      (settle fresh chunk raw position).tag.source ++ more) :
    ∃ short : RawTag, raw = { short with rest := short.rest ++ tail } := by
  have source := source_settle fresh chunk raw position
  have behind := settle_rest fresh chunk raw position
  have whole := reads.whole
  refine ⟨{ raw with rest := (settle fresh chunk raw position).tag.trail ++ more }, ?_⟩
  have after : (settle fresh chunk raw position).after = more ++ tail := by
    rw [← source, covers, List.append_assoc] at whole
    exact (List.append_cancel_left whole).symm
  rw [after, ← List.append_assoc] at behind
  simp only [behind]

/-- An excerpt up to a tag holds the tags that the scan found before that one. -/
theorem pieces_excerpt {scan : Scan} {delimiters : Delimiters} {fresh again : Bool}
    {position other : Position} {passed part tail : List Char} {inner back : List Stretch}
    {closing : Tag} (solid : delimiters.Solid) (covers : part = sourceOf inner)
    (known : part = [] ∨ FreshAt again passed)
    (scanned : ofTextFrom delimiters fresh position (part ++ tail) = scan)
    (pieces : scan.pieces = inner ++ .tag closing :: back)
    (steady : ∀ tag ∈ tagsOf inner, tag.sigil ≠ .delimiters)
    (blocked : ∃ c ∈ firstLine tail, isTrailing c = false)
    (begins : fresh = true → again = true) (early : fresh = again ∨ passed = [])
    (flush : Flush (fresh = again) (passed ++ part)
      ((ofTextFrom delimiters again other part).placesFrom passed.length)) :
    (ofTextFrom delimiters again other part).flaw? = none ∧
      (ofTextFrom delimiters again other part).pieces.map Stretch.unplaced =
        inner.map Stretch.unplaced := by
  induction scan generalizing fresh again position other passed part inner with
  | finished chunk => exact absurd pieces Stretch.ofChunk_ne
  | broken chunk flaw => exact absurd pieces Stretch.ofChunk_ne
  | tagged lead found later ih =>
      obtain ⟨chunk, raw, next, reads, rfl, rfl, continues⟩ := exists_reads scanned
      rcases Stretch.ofChunk_append_eq pieces with ⟨rfl, rfl, rfl⟩ | ⟨within, rfl, more⟩
      · have front := (settle_tag fresh chunk raw (position.past chunk)).1
        rw [sourceOf_ofChunk] at covers
        obtain ⟨⟨_, cut, _⟩, _⟩ := reads
        have none : breakOn delimiters.opening part = none := by
          refine breakOn_before delimiters.opening_ne_nil cut ?_
          rw [covers]
          exact ⟨_, front⟩
        rw [ofTextFrom_eq_finished none, covers]
        exact ⟨rfl, rfl⟩
      · obtain ⟨short, rfl⟩ := reads.exists_short (position.past chunk) fresh
          (by rw [covers]; simp [Stretch.source]; rfl)
        have readsPart : Reads delimiters part chunk short next := reads.of_append
        obtain ⟨text, accepts⟩ := readsPart.accepts
        have whole := readsPart.whole
        have knownHere := accepts.known whole known
        have source := source_settle again chunk short (other.past chunk)
        rw [← whole] at source
        have moved := settle_tag again chunk short (other.past chunk)
        have behind := settle_rest again chunk short (other.past chunk)
        have fresher := (settle_sits chunk (other.past chunk) solid knownHere accepts).2
        have scannedPart := readsPart.ofTextFrom_eq again other
        have wholeHere : passed ++ part =
            passed ++ (settle again chunk short (other.past chunk)).before ++
              (settle again chunk short (other.past chunk)).tag.source ++
                (settle again chunk short (other.past chunk)).after := by
          rw [← source]
          simp only [List.append_assoc]
        rw [scannedPart] at flush ⊢
        have flushHere : short.sigil.standsAlone = true → Alone (passed ++ chunk) short.rest →
            (fresh = again ∨ '\n' ∈ passed ++ chunk) ∧ '\n' ∈ short.rest := by
          have first := flush.first wholeHere
          rw [List.append_assoc, moved.1, behind] at first
          exact moved.2.1 ▸ first
        have alike := settle_excerpt (position.past chunk) (other.past chunk) knownHere begins early
          flushHere blocked
        simp only at alike
        rw [alike] at continues covers steady ⊢
        generalize settle again chunk short (other.past chunk) = settled at *
        have plain : settled.tag.sigil ≠ .delimiters :=
          steady { settled.tag with position := position.past chunk } (by simp)
        have same : next = delimiters := accepts.kept (moved.2.1 ▸ plain)
        subst same
        have behindFirst : settled.after = sourceOf within := by
          rw [← source] at covers
          simp only [sourceOf_append, sourceOf_ofChunk, sourceOf_cons, Stretch.source,
            List.append_assoc] at covers
          exact List.append_cancel_left (List.append_cancel_left covers)
        have later : (ofTextFrom next settled.fresh
              ((other.past settled.before).past settled.tag.source) settled.after).flaw? = none ∧
            (ofTextFrom next settled.fresh
              ((other.past settled.before).past settled.tag.source) settled.after).pieces.map
                Stretch.unplaced = within.map Stretch.unplaced := by
          refine ih behindFirst fresher continues more ?_ (fun begins => begins) (.inl rfl) ?_
          · exact fun tag member => steady tag (by simp [member])
          · have others := flush.later
            rw [wholeHere, TagPlace.after_eq] at others
            simpa [Flush, Nat.add_assoc] using others
        refine ⟨later.1, ?_⟩
        simp [pieces_tagged, Stretch.unplaced_ofChunk, later.2, Stretch.unplaced, Tag.unplaced]

/-- A tag that takes its line with it leaves no unfinished line before it. -/
theorem newline_mem_drop_stop {part start : List Char} (ends : lastLine (start ++ part) = [])
    {place : TagPlace} (found : place ∈ (ofText part).places) : '\n' ∈ part.drop place.stop := by
  apply Decidable.byContradiction
  intro flat
  obtain ⟨c, member, _⟩ := (lexes_ofText part).freshAt_stop Delimiters.solid_standard place found
  have present := mem_lastLine_append start member
  rw [← List.take_append_drop place.stop part, ← List.append_assoc,
    lastLine_append_of_not_mem _ flat, List.append_eq_nil_iff] at ends
  rw [ends.1] at present
  contradiction

/-- Between two tags that lie in their lines as `StartsShared` and `EndsShared` ask, the excerpt
gives the tags of the template. -/
theorem pieces_between {before inner back : List Stretch} {opening closing : Tag} {rest : List Char}
    (pieces : (ofText (sourceOf before ++ opening.source ++
      (sourceOf inner ++ closing.source ++ rest))).pieces =
        before ++ .tag opening :: (inner ++ .tag closing :: back))
    (opens : opening.sigil.standsAlone = true) (closes : closing.sigil.standsAlone = true)
    (steady : ∀ tag ∈ tagsOf before ++ opening :: tagsOf inner, tag.sigil ≠ .delimiters)
    (starts : Alone (sourceOf before ++ opening.lead)
        (opening.trail ++ (sourceOf inner ++ closing.source ++ rest)) ∨
      StartsShared (sourceOf inner))
    (ends : Alone (sourceOf before ++ opening.source ++ sourceOf inner ++ closing.lead)
        (closing.trail ++ rest) ∨ EndsShared (sourceOf inner)) :
    (ofText (sourceOf inner)).flaw? = none ∧
      (ofText (sourceOf inner)).pieces.map Stretch.unplaced = inner.map Stretch.unplaced := by
  have start : FreshAt true [] := rfl
  obtain ⟨next, begins, here, afterOpening, whole, later, kept, known, _, _, alone⟩ :=
    exists_behind Delimiters.solid_standard (.inr start) rfl pieces
      (fun tag member => steady tag (by simp [member]))
  obtain rfl : next = .standard := kept (steady opening (by simp))
  obtain rfl : _ = afterOpening := List.append_cancel_left whole
  rw [List.nil_append] at known
  obtain ⟨_, _, _, afterClosing, wholeInner, _, _, _, margin, marker, aloneClosing⟩ :=
    exists_behind Delimiters.solid_standard known rfl later
      (fun tag member => steady tag (by simp [member]))
  obtain rfl : rest = afterClosing := List.append_cancel_left wholeInner
  have blocked : ∃ c ∈ firstLine (closing.source ++ rest), isTrailing c = false := by
    obtain ⟨written, literal⟩ := marker
    rw [Tag.source, ← literal]
    simp only [List.append_assoc]
    exact Delimiters.exists_clear_opening Delimiters.solid_standard margin _
  have scanned : ofTextFrom .standard begins here (sourceOf inner ++ (closing.source ++ rest)) =
      ofTextFrom .standard begins here (sourceOf inner ++ closing.source ++ rest) := by
    rw [List.append_assoc]
  refine pieces_excerpt Delimiters.solid_standard rfl (.inr start) scanned later
    (fun tag member => steady tag (by simp [member]))
    blocked (fun _ => rfl) (.inr rfl) ?_
  intro place found sort aloneInside
  rw [List.nil_append] at aloneInside ⊢
  constructor
  · rcases starts with aloneOpening | shared
    · exact .inl (alone opens aloneOpening).1
    · refine .inr (Decidable.byContradiction ?_)
      intro flat
      exact shared place found sort flat aloneInside
  · rcases ends with aloneHere | shared
    · exact newline_mem_drop_stop (aloneClosing closes aloneHere).2 found
    · apply Decidable.byContradiction
      intro flat
      exact shared place found sort flat aloneInside

/-- A tag among the pieces of a scan, with its place in the text. -/
theorem exists_place_at {scan : Scan} {before back : List Stretch} {tag : Tag}
    (pieces : scan.pieces = before ++ .tag tag :: back) :
    ∃ place, scan.places[(tagsOf before).length]? = some place ∧ place.tag = tag ∧
      place.before = (sourceOf before).length ∧
      place.after = (sourceOf before ++ tag.source).length ∧
      scan.source.take place.start = sourceOf before ++ tag.lead ∧
      scan.source.drop place.stop = tag.trail ++ sourceOf back := by
  obtain ⟨earlier, front, chunk, later, places, size, source⟩ := exists_place_of_pieces pieces 0
  have whole : scan.source = front ++ chunk ++ tag.source ++ sourceOf back := by
    rw [← sourceOf_pieces, pieces, sourceOf_append, source, sourceOf_cons, Stretch.source]
    simp only [List.append_assoc]
  rw [source]
  refine ⟨TagPlace.behind front.length chunk tag, ?_, rfl, by simp [TagPlace.behind], ?_,
    TagPlace.take_start whole, TagPlace.drop_stop whole⟩
  · rw [Scan.places, places, Nat.zero_add, ← size]
    simp
  · rw [TagPlace.after_eq]
    simp [Nat.add_assoc]

end Scan

/-- The text of a section compiles to what the section holds. -/
theorem compileText_excerpt {text name excerpt : String} {tokens content : Tokens} {index : Nat}
    {after : Store} (parent : String → Action Tokens) (template : Option String) (store : Store)
    (plain : ∀ tag ∈ (Scan.ofText text.toList).tags, tag.sigil ≠ .parent)
    (done : compileText parent template text store = .ok tokens after)
    (holds : tokens.HoldsAt index (.block name content excerpt)) :
    ∃ opening closing,
      (Scan.ofText text.toList).places[index]? = some opening ∧
      (Scan.ofText text.toList).places[index + 1 + Tokens.tagCount content]? = some closing ∧
      opening.tag.sigil = .block ∧ opening.tag.body = name ∧
      closing.tag.sigil = .closing ∧ closing.tag.body = name ∧
      excerpt.toList = slice text.toList opening.after closing.before ∧
      ((∀ tag ∈ (Scan.ofText text.toList).tags.take (index + 1 + Tokens.tagCount content),
          tag.sigil ≠ .delimiters) →
        (Alone (text.toList.take opening.start) (text.toList.drop opening.stop) ∨
          StartsShared excerpt.toList) →
        (Alone (text.toList.take closing.start) (text.toList.drop closing.stop) ∨
          EndsShared excerpt.toList) →
        ∀ parent template store, ∃ after,
          compileText parent template excerpt store = .ok content after) := by
  obtain ⟨whole, yields⟩ := (compileText_eq_ok_iff parent template store plain).mp ⟨after, done⟩
  have plainPieces : ∀ tag ∈ tagsOf (Scan.ofText text.toList).pieces, tag.sigil ≠ .parent := by
    rw [Scan.tagsOf_pieces]
    exact plain
  obtain ⟨before, opening, inner, closing, back, pieces, size, opens, named, closes, namedToo,
    within, rfl⟩ := yields.exists_section plainPieces holds rfl
  have plainInner : ∀ tag ∈ tagsOf inner, tag.sigil ≠ .parent :=
    fun tag member => plainPieces tag (by simp [pieces, member])
  have count := within.length_tagsOf plainInner
  have text_eq : text.toList =
      sourceOf before ++ opening.source ++ (sourceOf inner ++ closing.source ++ sourceOf back) := by
    rw [← Scan.source_ofText text.toList whole, ← Scan.sourceOf_pieces, pieces]
    simp [Stretch.source]
  have split := pieces
  rw [List.append_assoc, List.cons_append] at split
  have source := Scan.source_ofText text.toList whole
  obtain ⟨first, atFirst, tagFirst, _, afterFirst, frontFirst, backFirst⟩ :=
    Scan.exists_place_at split
  obtain ⟨last, atLast, tagLast, beforeLast, _, frontLast, backLast⟩ :=
    Scan.exists_place_at pieces
  have inside : (tagsOf (before ++ .tag opening :: inner)).length =
      index + 1 + Tokens.tagCount content := by
    simp [size, count]
    omega
  rw [size] at atFirst
  rw [inside] at atLast
  rw [source] at frontFirst backFirst frontLast backLast
  refine ⟨first, last, atFirst, atLast, tagFirst ▸ opens, tagFirst ▸ named, tagLast ▸ closes,
    tagLast ▸ namedToo, ?_, ?_⟩
  · rw [afterFirst, beforeLast, text_eq, String.toList_ofList]
    have middle := TagPlace.slice_middle (sourceOf before ++ opening.source) (sourceOf inner)
      (closing.source ++ sourceOf back)
    simpa [Stretch.source, Nat.add_assoc] using middle.symm
  · intro steady starts ends parent template store
    rw [String.toList_ofList, frontFirst, backFirst] at starts
    rw [String.toList_ofList, frontLast, backLast] at ends
    have cut : (Scan.ofText text.toList).tags.take (index + 1 + Tokens.tagCount content) =
        tagsOf (before ++ .tag opening :: inner) := by
      rw [← inside, ← Scan.tagsOf_pieces, pieces,
        tagsOf_append (before ++ .tag opening :: inner) (.tag closing :: back), List.take_left]
    rw [cut, tagsOf_append, tagsOf_tag] at steady
    rw [text_eq] at split
    obtain ⟨complete, alike⟩ := Scan.pieces_between split (opens ▸ rfl) (closes ▸ rfl) steady
      (by simpa [Stretch.source] using starts) (by simpa [Stretch.source] using ends)
    refine (compileText_eq_ok_iff parent template store ?_).mpr ⟨?_, ?_⟩
    · rw [String.toList_ofList, ← Scan.tagsOf_pieces]
      exact plain_of_unplaced alike plainInner
    · rw [String.toList_ofList]
      exact complete
    · rw [String.toList_ofList]
      exact within.of_unplaced alike

/-- A section with comments at both edges. The first is alone on its line, in the template and in the
excerpt, as the opening tag is; the other shares its line with some text and the closing tag. -/
theorem compileText_excerpt_nested :
    let excerpt := "\x7b\x7b!n\x7d\x7d\ny \x7b\x7b!m\x7d\x7d"
    let text := "\x7b\x7b^a\x7d\x7d\n \x7b\x7b#b\x7d\x7d\n" ++ excerpt ++
      "\x7b\x7b/b\x7d\x7d\n\x7b\x7b/a\x7d\x7d"
    let content : Tokens := [.comment "n", .content "y ", .comment "m"]
    (∃ after, compileAlone none text .fresh =
      .ok [.inverted "a" [.block "b" content excerpt, .content "\n"]] after) ∧
    ¬ StartsShared excerpt.toList ∧ EndsShared excerpt.toList ∧
    ∃ after, compileAlone none excerpt .fresh = .ok content after := by
  intro excerpt text content
  let mark (sigil : Sigil) (body lead literal trail : String) (line column : Nat) : Tag :=
    ⟨sigil, body, lead.toList, literal.toList, trail.toList, ⟨line, column⟩⟩
  let outer := mark .inverted "a" "" "\x7b\x7b^a\x7d\x7d" "\n" 1 1
  let inner := mark .block "b" " " "\x7b\x7b#b\x7d\x7d" "\n" 2 2
  let first := mark .comment "n" "" "\x7b\x7b!n\x7d\x7d" "\n" 3 1
  let last := mark .comment "m" "" "\x7b\x7b!m\x7d\x7d" "" 4 3
  let innerEnd := mark .closing "b" "" "\x7b\x7b/b\x7d\x7d" "" 4 9
  let outerEnd := mark .closing "a" "" "\x7b\x7b/a\x7d\x7d" "" 5 1
  let within : List Stretch := [.tag first, .chunk "y ".toList, .tag last]
  have whole : (Scan.ofText text.toList).flaw? = none := by decide +kernel
  have pieces : (Scan.ofText text.toList).pieces = .tag outer :: ([.tag inner] ++ within ++
      [.tag innerEnd, .chunk "\n".toList]) ++ [.tag outerEnd] := by decide +kernel
  have tags : (Scan.ofText text.toList).tags =
      [outer, inner, first, last, innerEnd, outerEnd] := by
    rw [← Scan.tagsOf_pieces, pieces]
    rfl
  have plain : ∀ tag ∈ (Scan.ofText text.toList).tags, tag.sigil ≠ .parent := by
    simp [tags, outer, inner, first, last, innerEnd, outerEnd, mark]
  have steady : ∀ tag ∈ (Scan.ofText text.toList).tags, tag.sigil ≠ .delimiters := by
    simp [tags, outer, inner, first, last, innerEnd, outerEnd, mark]
  have yields : Yields (Scan.ofText text.toList).pieces
      [.inverted "a" [.block "b" content excerpt, .content "\n"]] := by
    have read : Yields within content :=
      .leaf rfl (by simp [first, mark]) (.chunk (.leaf rfl (by simp [last, mark]) .nil))
    have block : Yields ([.tag inner] ++ within ++ [.tag innerEnd, .chunk "\n".toList])
        [.block "b" content (String.ofList (sourceOf within)), .content "\n"] :=
      @Yields.block .block inner innerEnd _ _ _ _ rfl rfl rfl read (.chunk .nil)
    have written : String.ofList (sourceOf within) = excerpt := by decide
    rw [written] at block
    rw [pieces]
    exact @Yields.block .inverted outer outerEnd _ [] _ [] rfl rfl rfl block .nil
  obtain ⟨after, done⟩ := (compileText_eq_ok_iff _ none .fresh plain).mpr ⟨whole, yields⟩
  have placed : (Scan.ofText text.toList).places[1]?.map (fun place => (place.start, place.stop)) =
      some (8, 14) := by decide +kernel
  have starts : ¬ StartsShared excerpt.toList := by decide +kernel
  have ends : EndsShared excerpt.toList := by decide +kernel
  have holds : Tokens.HoldsAt [.inverted "a" [.block "b" content excerpt, .content "\n"]] 1
      (.block "b" content excerpt) := .within .here
  obtain ⟨opening, closing, found, _, _, _, _, _, _, again⟩ :=
    compileText_excerpt _ none .fresh plain done holds
  have apart : Alone (text.toList.take opening.start) (text.toList.drop opening.stop) := by
    rw [found, Option.map_some, Option.some.injEq, Prod.mk.injEq] at placed
    rw [placed.1, placed.2]
    decide +kernel
  refine ⟨⟨after, done⟩, starts, ends, again ?_ (.inl apart) (.inr ends) _ _ _⟩
  exact fun tag member => steady tag (List.mem_of_mem_take member)

end Logicless
