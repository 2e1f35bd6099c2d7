import Logicless.Proofs.Compiling
import Logicless.Proofs.Places

namespace Logicless

/-!
Which templates compile, and which tag is to blame where one does not.

`Misplaced` says of a closing tag, by the tags before it alone, that it closes nothing or a block of
another name; `Blames` picks the first tag of a template at fault. A template compiles exactly when
its scan is not cut short and its tags are properly nested, and the walk through the tree (`steps`)
then passes its texts and tags in their order.
-/

/-- What a walk through a token tree meets. -/
inductive WalkStep where
  | enter (shape : BlockShape) (name : String)
  | leave (name : String)
  | leaf (token : Token)

mutual

/-- The walk through a token: a block is entered, walked through and left. -/
def Token.steps : Token → List WalkStep
  | .block name content _ => .enter .block name :: Tokens.steps content ++ [.leave name]
  | .inverted name content => .enter .inverted name :: Tokens.steps content ++ [.leave name]
  | .placeholder name content => .enter .placeholder name :: Tokens.steps content ++ [.leave name]
  | .content text => [.leaf (.content text)]
  | .escaped name => [.leaf (.escaped name)]
  | .unescaped name => [.leaf (.unescaped name)]
  | .partialNamed name => [.leaf (.partialNamed name)]
  | .partialKnown tokens => [.leaf (.partialKnown tokens)]
  | .pragma name options => [.leaf (.pragma name options)]
  | .delimiters opening closing => [.leaf (.delimiters opening closing)]
  | .comment text => [.leaf (.comment text)]

def Tokens.steps : List Token → List WalkStep
  | [] => []
  | token :: rest => Token.steps token ++ Tokens.steps rest

end

/-- The same for a part of the source. -/
def Stretch.step : Stretch → WalkStep
  | .chunk text => .leaf (.content (String.ofList text))
  | .tag found =>
      match found.sigil.shape? with
      | some shape => .enter shape found.body
      | none => if found.sigil = .closing then .leave found.body else .leaf found.leaf

mutual

/-- Texts in a token are not empty, and no two of them are neighbours. -/
def Token.Tidy : Token → Prop
  | .content text => text ≠ ""
  | .block _ content _ | .inverted _ content | .placeholder _ content | .partialKnown content =>
      Tokens.Tidy content
  | _ => True

def Tokens.Tidy : List Token → Prop
  | [] => True
  | token :: rest =>
      Token.Tidy token ∧ (token.kind = .content → ∀ next ∈ rest.head?, next.kind ≠ .content) ∧
        Tokens.Tidy rest

end

/-- A closing tag behind others that closes nothing, or a block of another name. -/
inductive Misplaced (earlier : List Tag) (tag : Tag) : FlawCause → Prop where
  | stray (closes : tag.sigil = .closing) (closed : Nested earlier) :
      Misplaced earlier tag (.strayClosing tag.body)
  | mismatched {outer inner : List Tag} {opening : Tag} (closes : tag.sigil = .closing)
      (split : earlier = outer ++ opening :: inner) (opens : opening.sigil.opens = true)
      (within : Nested inner) (other : opening.body ≠ tag.body) :
      Misplaced earlier tag (.mismatchedClosing tag.body opening.body)

/-- No closing tag is misplaced. Blocks may still be open. -/
def Orderly (tags : List Tag) : Prop :=
  ∀ earlier tag later cause, tags = earlier ++ tag :: later → ¬ Misplaced earlier tag cause

/-- Where the first tag at fault begins, and what is wrong with it. A block that is still open is at
fault only if no other tag is. -/
inductive Blames (scan : Scan) : Nat → FlawCause → Prop where
  | misplaced {earlier later : List TagPlace} {place : TagPlace} {cause : FlawCause}
      (split : scan.places = earlier ++ place :: later)
      (orderly : Orderly (earlier.map TagPlace.tag))
      (misplaced : Misplaced (earlier.map TagPlace.tag) place.tag cause) :
      Blames scan place.start cause
  | unreadable {flaw : Flaw} (stopped : scan.flaw? = some flaw) (orderly : Orderly scan.tags) :
      Blames scan scan.source.length flaw.cause
  | unclosed {outer inner : List TagPlace} {place : TagPlace} (whole : scan.flaw? = none)
      (orderly : Orderly scan.tags) (split : scan.places = outer ++ place :: inner)
      (opens : place.tag.sigil.opens = true) (within : Nested (inner.map TagPlace.tag)) :
      Blames scan place.start (.unclosedBlock place.tag.body)

theorem Tag.steps_leaf (tag : Tag) : tag.leaf.steps = [.leaf tag.leaf] := by
  unfold Tag.leaf
  split <;> try rfl
  cases Text.words tag.body.toList <;> rfl

theorem BlockShape.steps_closed {shape : BlockShape} (known : shape ≠ .parent) (name : String)
    (content : Tokens) (template : List Char) :
    (shape.closed name content template).steps =
      .enter shape name :: Tokens.steps content ++ [.leave name] := by
  cases shape <;> first | rfl | contradiction

/-- The walk through a tree passes the pieces that it stands for. -/
theorem Yields.steps {pieces : List Stretch} {tokens : Tokens} (yields : Yields pieces tokens)
    (plain : ∀ tag ∈ tagsOf pieces, tag.sigil ≠ .parent) :
    Tokens.steps tokens = pieces.map Stretch.step := by
  induction yields with
  | nil => rfl
  | chunk _ ih =>
      have later := ih plain
      simp [Tokens.steps, Token.steps, Stretch.step, later]
  | leaf shape open_ _ ih =>
      have later := ih (fun tag member => plain tag (by simp [member]))
      simp [Tokens.steps, Tag.steps_leaf, Stretch.step, shape, open_, later]
  | block opens closes same _ _ ihInner ihRest =>
      have inner := ihInner (fun tag member => plain tag (by simp [member]))
      have later := ihRest (fun tag member => plain tag (by simp [member]))
      have known := Sigil.shape_ne_parent (plain _ (by simp)) opens
      simp [Tokens.steps, BlockShape.steps_closed known, Stretch.step, opens, closes,
        Sigil.shape_closing, same, inner, later]

/-- Texts are not empty, and tags stand between them. -/
def Spaced : List Stretch → Prop
  | [] => True
  | .tag _ :: rest => Spaced rest
  | .chunk text :: rest =>
      text ≠ [] ∧ (∀ next ∈ rest.head?, ∃ tag, next = .tag tag) ∧ Spaced rest

theorem spaced_ofChunk {rest : List Stretch} (chunk : List Char) (spaced : Spaced rest)
    (next : ∀ piece ∈ rest.head?, ∃ tag, piece = .tag tag) :
    Spaced (Stretch.ofChunk chunk ++ rest) := by
  cases chunk with
  | nil => exact spaced
  | cons c text => exact ⟨by simp, next, spaced⟩

theorem Scan.spaced_pieces (scan : Scan) : Spaced scan.pieces := by
  induction scan with
  | finished chunk =>
      have alone : Spaced (Stretch.ofChunk chunk ++ []) :=
        spaced_ofChunk chunk (by simp [Spaced]) (by simp)
      simpa [pieces] using alone
  | broken chunk flaw =>
      have alone : Spaced (Stretch.ofChunk chunk ++ []) :=
        spaced_ofChunk chunk (by simp [Spaced]) (by simp)
      simpa [pieces] using alone
  | tagged chunk tag rest ih => exact spaced_ofChunk chunk ih (by simp)

theorem Spaced.left {front back : List Stretch} (spaced : Spaced (front ++ back)) :
    Spaced front := by
  induction front with
  | nil => trivial
  | cons piece rest ih =>
      cases piece with
      | tag tag => exact ih spaced
      | chunk text =>
          refine ⟨spaced.1, ?_, ih spaced.2.2⟩
          intro next member
          refine spaced.2.1 next ?_
          cases rest with
          | nil => simp at member
          | cons other more => simpa using member

theorem Spaced.right {front back : List Stretch} (spaced : Spaced (front ++ back)) :
    Spaced back := by
  induction front with
  | nil => exact spaced
  | cons piece rest ih =>
      cases piece with
      | tag tag => exact ih spaced
      | chunk text => exact ih spaced.2.2

theorem Tag.kind_leaf (tag : Tag) : tag.leaf.kind ≠ .content := by
  unfold Tag.leaf
  split <;> try simp [Token.kind]
  cases Text.words tag.body.toList <;> simp [pragmaToken]

theorem Tag.tidy_leaf (tag : Tag) : tag.leaf.Tidy := by
  unfold Tag.leaf
  split <;> try simp [Token.Tidy]
  cases Text.words tag.body.toList <;> simp [pragmaToken, Token.Tidy]

theorem BlockShape.kind_closed (shape : BlockShape) (name : String) (content : Tokens)
    (template : List Char) : (shape.closed name content template).kind ≠ .content := by
  cases shape <;> simp [closed, Token.kind]

theorem BlockShape.tidy_closed {shape : BlockShape} {content : Tokens} (tidy : Tokens.Tidy content)
    (name : String) (template : List Char) : (shape.closed name content template).Tidy := by
  cases shape <;> simp [closed, Token.Tidy, Tokens.Tidy, tidy]

/-- Only a text yields a text. -/
theorem Yields.head_content {pieces : List Stretch} {tokens : Tokens}
    (yields : Yields pieces tokens) :
    ∀ token ∈ tokens.head?, token.kind = .content → ∃ text, pieces.head? = some (.chunk text) := by
  intro token member sort
  cases yields with
  | nil => simp at member
  | chunk => exact ⟨_, rfl⟩
  | leaf =>
      simp only [List.head?_cons, Option.mem_some_iff] at member
      subst member
      exact absurd sort (Tag.kind_leaf _)
  | block =>
      simp only [List.head?_cons, Option.mem_some_iff] at member
      subst member
      exact absurd sort (BlockShape.kind_closed _ _ _ _)

theorem Yields.tidy {pieces : List Stretch} {tokens : Tokens} (yields : Yields pieces tokens)
    (spaced : Spaced pieces) : Tokens.Tidy tokens := by
  induction yields with
  | nil => trivial
  | @chunk text rest tokens later ih =>
      obtain ⟨solid, next, more⟩ := spaced
      refine ⟨by simpa [Token.Tidy] using solid, ?_, ih more⟩
      intro _ token member sort
      obtain ⟨other, first⟩ := later.head_content token member sort
      obtain ⟨tag, same⟩ := next (.chunk other) (by rw [first]; rfl)
      contradiction
  | @leaf tag rest tokens _ _ _ ih =>
      exact ⟨tag.tidy_leaf, fun sort => absurd sort tag.kind_leaf, ih spaced⟩
  | block _ _ _ _ _ ihInner ihRest =>
      have inner := ihInner spaced.left
      have later := ihRest spaced.right
      exact ⟨BlockShape.tidy_closed inner ..,
        fun sort => absurd sort (BlockShape.kind_closed _ _ _ _), later⟩

namespace Nest

/-- A tag that cannot be added is misplaced behind what was fed before. -/
theorem Traced.misplaced {pieces : List Stretch} {nest : Nest} {tag : Tag} {flaw : Flaw}
    (traced : Traced pieces nest) (refused : nest.addTag [] tag = .error flaw) :
    flaw.position = tag.position ∧ Misplaced (tagsOf pieces) tag flaw.cause := by
  by_cases closes : tag.sigil = .closing
  · rw [addTag_closing closes] at refused
    obtain ⟨blocks, outside⟩ := nest
    cases blocks with
    | nil =>
        rw [close_outside] at refused
        cases refused
        exact ⟨rfl, .stray closes (traced.yields rfl).nested⟩
    | cons block outer =>
        by_cases same : tag.body = block.opening.body
        · rw [close_matching same] at refused
          contradiction
        · rw [close_mismatched (Ne.symm same)] at refused
          cases refused
          obtain ⟨before, inner, split, opens, within⟩ := traced.innermost rfl
          have tags : tagsOf pieces = tagsOf before ++ block.opening :: tagsOf inner := by
            rw [split, tagsOf_append, tagsOf_tag]
          exact ⟨rfl, .mismatched closes tags opens within (Ne.symm same)⟩
  · cases sort : tag.sigil.shape? with
    | some shape => simp [addTag_opening sort] at refused
    | none => simp [addTag_leaf sort closes] at refused

/-- A misplaced closing tag cannot be added. -/
theorem feed_misplaced {front : List Stretch} {nest next : Nest} {tag : Tag} {cause : FlawCause}
    (fed : Nest.empty.feed front = .ok nest) (misplaced : Misplaced (tagsOf front) tag cause)
    (added : nest.addTag [] tag = .ok next) : False := by
  cases misplaced with
  | stray closes closed =>
      obtain ⟨tokens, yields⟩ := closed.yields rfl
      obtain ⟨grown, fedAgain, blocks, _⟩ := feed_yields yields .empty
      rw [fed] at fedAgain
      cases fedAgain
      obtain ⟨_, outside⟩ := nest
      simp only at blocks
      subst blocks
      rw [addTag_closing closes, close_outside] at added
      contradiction
  | @mismatched outer inner opening closes split opens within other =>
      obtain ⟨before, after, rfl, _, last⟩ := exists_tag split
      obtain ⟨tokens, yields⟩ := within.yields last
      rw [Sigil.opens_eq] at opens
      obtain ⟨shape, found⟩ := Option.isSome_iff_exists.mp opens
      rw [feed_append] at fed
      cases start : Nest.empty.feed before with
      | error flaw => simp [start] at fed
      | ok reached =>
          simp only [start, feed, addTag_opening found] at fed
          obtain ⟨grown, fedInner, outside, block, blocks, _, tagged, _⟩ := feed_yields yields
            ⟨⟨shape, opening, [], []⟩ :: reached.blocks, reached.outside⟩
          rw [fed] at fedInner
          cases fedInner
          obtain ⟨_, _⟩ := nest
          simp only at blocks
          subst blocks
          rw [addTag_closing closes, close_mismatched (by rw [tagged]; exact other)] at added
          contradiction

/-- In what can be fed no closing tag is misplaced. -/
theorem orderly_of_feed {pieces : List Stretch} {nest : Nest}
    (fed : Nest.empty.feed pieces = .ok nest) : Orderly (tagsOf pieces) := by
  intro earlier tag later cause split misplaced
  obtain ⟨front, back, rfl, first, _⟩ := exists_tag split
  rw [feed_append] at fed
  cases start : Nest.empty.feed front with
  | error flaw => simp [start] at fed
  | ok reached =>
      simp only [start, feed] at fed
      cases added : reached.addTag [] tag with
      | error flaw => simp [added] at fed
      | ok next => exact feed_misplaced start (first ▸ misplaced) added

/-- Feeding stops at the first tag that cannot be added. -/
theorem exists_refused {pieces : List Stretch} {nest : Nest} {flaw : Flaw}
    (stopped : nest.feed pieces = .error flaw) :
    ∃ front tag back reached, pieces = front ++ .tag tag :: back ∧ nest.feed front = .ok reached ∧
      reached.addTag [] tag = .error flaw := by
  induction pieces generalizing nest with
  | nil => simp [feed] at stopped
  | cons piece rest ih =>
      cases piece with
      | chunk text =>
          obtain ⟨front, tag, back, reached, whole, fed, refused⟩ := ih stopped
          exact ⟨.chunk text :: front, tag, back, reached, by simp [whole], fed, refused⟩
      | tag found =>
          cases added : nest.addTag [] found with
          | error cause =>
              simp only [feed, added, Except.error.injEq] at stopped
              exact ⟨[], found, rest, nest, rfl, rfl, by rw [added, stopped]⟩
          | ok next =>
              simp only [feed, added] at stopped
              obtain ⟨front, tag, back, reached, whole, fed, refused⟩ := ih stopped
              exact ⟨.tag found :: front, tag, back, reached, by simp [whole],
                by simp only [feed, added, fed], refused⟩

end Nest

theorem Scan.map_tag_placesFrom (scan : Scan) (index : Nat) :
    (scan.placesFrom index).map TagPlace.tag = scan.tags := by
  induction scan generalizing index with
  | finished chunk => rfl
  | broken chunk flaw => rfl
  | tagged chunk tag rest ih => simp [placesFrom, tags, ih, TagPlace.behind]

theorem Lexes.position_eq {text : List Char} {delimiters : Delimiters} {index : Nat} {scan : Scan}
    (lexes : Lexes text delimiters index scan) :
    ∀ place ∈ scan.placesFrom index, place.tag.position = .ofIndex text place.start := by
  induction lexes with
  | finished => simp [Scan.placesFrom]
  | broken => simp [Scan.placesFrom]
  | tagged _ _ _ _ placed _ ih =>
      intro place member
      simp only [Scan.placesFrom, List.mem_cons] at member
      rcases member with same | later
      · rw [same]
        exact placed
      · exact ih place later

theorem FirstAt.length_le {marker text : List Char} {index start : Nat}
    (first : FirstAt marker text index start) (solid : marker ≠ []) : start ≤ text.length := by
  have size := first.2.1.length_le
  have positive := List.length_pos_iff.mpr solid
  rw [List.length_drop] at size
  omega

/-- A scan that is cut short is so at the tag behind all that it covers. -/
theorem Lexes.flaw_position {text : List Char} {delimiters : Delimiters} {index : Nat} {scan : Scan}
    {flaw : Flaw} (lexes : Lexes text delimiters index scan) (stopped : scan.flaw? = some flaw) :
    flaw.position = .ofIndex text (index + scan.source.length) := by
  induction lexes with
  | finished => simp [Scan.flaw?] at stopped
  | @broken delimiters index start cause first rejects =>
      simp only [Scan.flaw?, Option.some.injEq] at stopped
      subst stopped
      have room := first.length_le delimiters.opening_ne_nil
      have order := first.1
      have size : index + (Text.slice text index start).length = start := by
        rw [Text.slice, List.length_take, List.length_drop]
        omega
      rw [Scan.source, size]
  | tagged _ _ _ _ _ _ ih =>
      have later := ih stopped
      rw [later, TagPlace.after_eq]
      simp [Scan.source, Nat.add_assoc]

theorem Scan.exists_place {scan : Scan} {earlier later : List Tag} {tag : Tag}
    (split : scan.tags = earlier ++ tag :: later) :
    ∃ before place after, scan.places = before ++ place :: after ∧
      before.map TagPlace.tag = earlier ∧ place.tag = tag ∧ after.map TagPlace.tag = later := by
  rw [← scan.map_tag_placesFrom 0] at split
  obtain ⟨before, rest, whole, first, last⟩ := List.map_eq_append_iff.mp split
  obtain ⟨place, after, cut, same, behind⟩ := List.map_eq_cons_iff.mp last
  exact ⟨before, place, after, by rw [places, whole, cut], first, same, behind⟩

/-- What stops the nesting of a scan is the first tag at fault. -/
theorem Nest.blames_of_ofScan {text : List Char} {delimiters : Delimiters} {scan : Scan}
    {flaw : Flaw} (lexes : Lexes text delimiters 0 scan)
    (refused : Nest.empty.ofScan scan = .error flaw) :
    ∃ start, Blames scan start flaw.cause ∧ flaw.position = .ofIndex text start := by
  have positions := lexes.position_eq
  rw [ofScan_eq] at refused
  cases fed : Nest.empty.feed scan.pieces with
  | error cause =>
      simp only [fed, Except.error.injEq] at refused
      subst refused
      obtain ⟨front, tag, back, reached, split, before, stopped⟩ := exists_refused fed
      obtain ⟨position, misplaced⟩ := (traced_empty.feed before).misplaced stopped
      rw [List.nil_append] at misplaced
      have tags : scan.tags = tagsOf front ++ tag :: tagsOf back := by
        rw [← scan.tagsOf_pieces, split, tagsOf_append, tagsOf_tag]
      obtain ⟨earlier, place, later, places, first, same, _⟩ := scan.exists_place tags
      have orderly := orderly_of_feed before
      rw [← first] at orderly misplaced
      rw [← same] at misplaced
      refine ⟨place.start, .misplaced places orderly misplaced, ?_⟩
      rw [position, ← same]
      exact positions place (by rw [← Scan.places, places]; simp)
  | ok next =>
      have orderly := orderly_of_feed fed
      rw [scan.tagsOf_pieces] at orderly
      cases stopped : scan.flaw? with
      | some cause =>
          simp only [fed, stopped, Except.error.injEq] at refused
          subst refused
          have position := lexes.flaw_position stopped
          rw [Nat.zero_add] at position
          exact ⟨_, .unreadable stopped orderly, position⟩
      | none =>
          simp only [fed, stopped, finish] at refused
          split at refused
          · contradiction
          · rename_i block outer blocks
            obtain ⟨outside, inner, split, opens, within⟩ :=
              (traced_empty.feed fed).innermost blocks
            have tags : scan.tags = tagsOf outside ++ block.opening :: tagsOf inner := by
              rw [← scan.tagsOf_pieces]
              exact (congrArg tagsOf split).trans (by rw [tagsOf_append, tagsOf_tag])
            obtain ⟨earlier, place, later, places, _, same, behind⟩ := scan.exists_place tags
            cases refused
            refine ⟨place.start, ?_, ?_⟩
            · rw [← same] at opens ⊢
              rw [← behind] at within
              exact .unclosed stopped orderly places opens within
            · rw [← same]
              exact positions place (by rw [← Scan.places, places]; simp)

/-- Compiling text in which no tag asks for a parent: when it succeeds, what it gives, and where it
lays the blame. -/
theorem compileText_verdict (parent : String → Action Tokens) (template : Option String)
    (text : String) (store : Store)
    (plain : ∀ tag ∈ (Scan.ofText text.toList).tags, tag.sigil ≠ .parent) :
    let scan := Scan.ofText text.toList
    Lexes text.toList .standard 0 scan ∧
      ((∃ tokens after, compileText parent template text store = .ok tokens after) ↔
        scan.flaw? = none ∧ Nested scan.tags) ∧
      (∀ tokens after, compileText parent template text store = .ok tokens after →
        Tokens.steps tokens = scan.pieces.map Stretch.step ∧ Tokens.Tidy tokens) ∧
      (∀ fault after, compileText parent template text store = .error fault after →
        ∃ start cause, Blames scan start cause ∧
          fault = .malformed ⟨cause, .ofIndex text.toList start⟩ template) := by
  intro scan
  have lexes := Scan.lexes_ofText text.toList
  refine ⟨lexes, ⟨?_, ?_⟩, ?_, ?_⟩
  · rintro ⟨tokens, after, done⟩
    obtain ⟨whole, yields⟩ := (compileText_eq_ok_iff parent template store plain).mp ⟨after, done⟩
    exact ⟨whole, scan.tagsOf_pieces ▸ yields.nested⟩
  · rintro ⟨whole, nested⟩
    obtain ⟨tokens, yields⟩ := nested.yields scan.tagsOf_pieces
    exact ⟨tokens, (compileText_eq_ok_iff parent template store plain).mpr ⟨whole, yields⟩⟩
  · intro tokens after done
    obtain ⟨_, yields⟩ := (compileText_eq_ok_iff parent template store plain).mp ⟨after, done⟩
    refine ⟨yields.steps ?_, yields.tidy scan.spaced_pieces⟩
    rw [scan.tagsOf_pieces]
    exact plain
  · intro fault after failed
    rw [compileText_eq parent template store plain] at failed
    split at failed
    · contradiction
    · rename_i flaw refused
      cases failed
      obtain ⟨start, blames, position⟩ := Nest.blames_of_ofScan lexes refused
      exact ⟨start, flaw.cause, blames, by rw [← position]⟩

theorem compileText_verdict_section :
    let text := "a\n\x7b\x7b#b\x7d\x7dc\x7b\x7b/b\x7d\x7d"
    (∀ tag ∈ (Scan.ofText text.toList).tags, tag.sigil ≠ .parent) ∧
      ∃ tokens after, compileAlone none text .fresh = .ok tokens after ∧
        Tokens.steps tokens =
          [.leaf (.content "a\n"), .enter .block "b", .leaf (.content "c"), .leave "b"] := by
  intro text
  have whole : (Scan.ofText text.toList).flaw? = none := by decide +kernel
  have pieces : (Scan.ofText text.toList).pieces =
      [.chunk "a\n".toList, .tag ⟨.block, "b", [], "\x7b\x7b#b\x7d\x7d".toList, [], ⟨2, 1⟩⟩,
        .chunk "c".toList, .tag ⟨.closing, "b", [], "\x7b\x7b/b\x7d\x7d".toList, [], ⟨2, 8⟩⟩] := by
    decide +kernel
  have tags := congrArg tagsOf pieces
  rw [Scan.tagsOf_pieces] at tags
  have plain : ∀ tag ∈ (Scan.ofText text.toList).tags, tag.sigil ≠ .parent := by
    simp [tags]
  have nested : Nested (Scan.ofText text.toList).tags := by
    rw [tags]
    exact @Nested.block _ _ [] [] rfl rfl rfl .nil .nil
  obtain ⟨_, succeeds, walk, _⟩ := compileText_verdict _ none text .fresh plain
  obtain ⟨tokens, after, done⟩ := succeeds.mpr ⟨whole, nested⟩
  refine ⟨plain, tokens, after, done, ?_⟩
  rw [(walk tokens after done).1, pieces]
  rfl

end Logicless
