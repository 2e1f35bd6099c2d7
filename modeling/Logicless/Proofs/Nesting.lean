import Logicless.Template.Nest

namespace Logicless

/-!
Nesting of tags, as a grammar and as a relation to token trees.

`Nested` says that the tags of a list form a properly nested word, and `Yields` which tokens a list
of texts and tags stands for; neither knows of open blocks. The blocks that a `Nest` holds open are
related to them in two ways: pieces that yield tokens only add these tokens to the innermost block
(`Yields.feed`), and what a nest has been fed is cut by its open blocks into parts that each yield
what the block holds (`Traced`).
-/

/-- A part of a scan: text between tags, or a tag. -/
inductive Stretch where
  | chunk (text : List Char)
  | tag (tag : Tag)
  deriving DecidableEq

namespace Stretch

def source : Stretch → List Char
  | .chunk text => text
  | .tag found => found.source

def tag? : Stretch → Option Tag
  | .chunk _ => none
  | .tag found => some found

/-- A text between tags, if there is any. -/
def ofChunk (chunk : List Char) : List Stretch := if chunk.isEmpty then [] else [.chunk chunk]

end Stretch

/-- The text of a list of pieces. -/
def sourceOf (pieces : List Stretch) : List Char := pieces.flatMap Stretch.source

def tagsOf (pieces : List Stretch) : List Tag := pieces.filterMap Stretch.tag?

/-- The tags of a scan and the texts between them that are not empty. -/
def Scan.pieces : Scan → List Stretch
  | .finished chunk | .broken chunk _ => Stretch.ofChunk chunk
  | .tagged chunk tag rest => Stretch.ofChunk chunk ++ .tag tag :: rest.pieces

/-- The token of a closed block that inherits from nothing. -/
def BlockShape.closed (shape : BlockShape) (name : String) (content : Tokens)
    (template : List Char) : Token :=
  match shape with
  | .block => .block name content (String.ofList template)
  | .inverted => .inverted name content
  | .placeholder => .placeholder name content
  | .parent => .partialKnown []

/-- The tags form a properly nested word: every closing tag names the block that it closes. -/
inductive Nested : List Tag → Prop where
  | nil : Nested []
  | leaf {tag : Tag} {rest : List Tag} (plain : tag.sigil.opens = false)
      (open_ : tag.sigil ≠ .closing) (later : Nested rest) : Nested (tag :: rest)
  | block {opening closing : Tag} {inner rest : List Tag} (opens : opening.sigil.opens = true)
      (closes : closing.sigil = .closing) (same : closing.body = opening.body)
      (within : Nested inner) (later : Nested rest) : Nested (opening :: inner ++ closing :: rest)

/-- The token tree that pieces stand for. -/
inductive Yields : List Stretch → Tokens → Prop where
  | nil : Yields [] []
  | chunk {text : List Char} {rest : List Stretch} {tokens : Tokens} (later : Yields rest tokens) :
      Yields (.chunk text :: rest) (.content (String.ofList text) :: tokens)
  | leaf {tag : Tag} {rest : List Stretch} {tokens : Tokens} (plain : tag.sigil.shape? = none)
      (open_ : tag.sigil ≠ .closing) (later : Yields rest tokens) :
      Yields (.tag tag :: rest) (tag.leaf :: tokens)
  | block {shape : BlockShape} {opening closing : Tag} {inner rest : List Stretch}
      {content tokens : Tokens} (opens : opening.sigil.shape? = some shape)
      (closes : closing.sigil = .closing) (same : closing.body = opening.body)
      (within : Yields inner content) (later : Yields rest tokens) :
      Yields (.tag opening :: inner ++ .tag closing :: rest)
        (shape.closed opening.body content (sourceOf inner) :: tokens)

@[simp] theorem sourceOf_nil : sourceOf [] = [] := rfl

@[simp] theorem sourceOf_append (left right : List Stretch) :
    sourceOf (left ++ right) = sourceOf left ++ sourceOf right := List.flatMap_append

@[simp] theorem sourceOf_cons (piece : Stretch) (rest : List Stretch) :
    sourceOf (piece :: rest) = piece.source ++ sourceOf rest := List.flatMap_cons

@[simp] theorem sourceOf_ofChunk (chunk : List Char) :
    sourceOf (Stretch.ofChunk chunk) = chunk := by
  cases chunk <;> simp [Stretch.ofChunk, Stretch.source]

@[simp] theorem tagsOf_nil : tagsOf [] = [] := rfl

@[simp] theorem tagsOf_append (left right : List Stretch) :
    tagsOf (left ++ right) = tagsOf left ++ tagsOf right := List.filterMap_append

@[simp] theorem tagsOf_chunk (text : List Char) (rest : List Stretch) :
    tagsOf (.chunk text :: rest) = tagsOf rest := rfl

@[simp] theorem tagsOf_tag (tag : Tag) (rest : List Stretch) :
    tagsOf (.tag tag :: rest) = tag :: tagsOf rest := rfl

@[simp] theorem tagsOf_ofChunk (chunk : List Char) : tagsOf (Stretch.ofChunk chunk) = [] := by
  cases chunk <;> rfl

/-- A tag that follows a text and a tag is that tag or one behind it. -/
theorem Stretch.ofChunk_append_eq {chunk : List Char} {tag closing : Tag}
    {rest inner back : List Stretch}
    (same : Stretch.ofChunk chunk ++ .tag tag :: rest = inner ++ .tag closing :: back) :
    (inner = Stretch.ofChunk chunk ∧ closing = tag ∧ back = rest) ∨
      ∃ within, inner = Stretch.ofChunk chunk ++ .tag tag :: within ∧
        rest = within ++ .tag closing :: back := by
  rcases List.append_eq_append_iff.mp same with ⟨more, left, right⟩ | ⟨more, left, right⟩
  · cases more with
    | nil =>
        cases right
        exact .inl ⟨by simpa using left, rfl, rfl⟩
    | cons piece within =>
        cases right
        exact .inr ⟨within, left, rfl⟩
  · -- A text before the first tag holds no tag.
    cases more with
    | nil =>
        cases right
        exact .inl ⟨by simpa using left.symm, rfl, rfl⟩
    | cons piece within =>
        cases right
        have none := tagsOf_ofChunk chunk
        simp [left] at none

theorem Stretch.ofChunk_ne {chunk : List Char} {before back : List Stretch} {tag : Tag} :
    Stretch.ofChunk chunk ≠ before ++ .tag tag :: back := by
  intro same
  have none := tagsOf_ofChunk chunk
  simp [same] at none

theorem Scan.pieces_tagged (chunk : List Char) (tag : Tag) (rest : Scan) :
    (Scan.tagged chunk tag rest).pieces = Stretch.ofChunk chunk ++ .tag tag :: rest.pieces := rfl

theorem Scan.tagsOf_pieces (scan : Scan) : tagsOf scan.pieces = scan.tags := by
  induction scan with
  | finished chunk => simp [pieces, tags]
  | broken chunk flaw => simp [pieces, tags]
  | tagged chunk tag rest ih => simp [pieces, tags, ih]

theorem Scan.sourceOf_pieces (scan : Scan) : sourceOf scan.pieces = scan.source := by
  induction scan with
  | finished chunk => simp [pieces, source]
  | broken chunk flaw => simp [pieces, source]
  | tagged chunk tag rest ih => simp [pieces, source, ih, Stretch.source]

theorem Sigil.opens_eq (sigil : Sigil) : sigil.opens = sigil.shape?.isSome := by
  cases sigil <;> rfl

theorem Sigil.opens_of_shape {sigil : Sigil} {shape : BlockShape}
    (found : sigil.shape? = some shape) : sigil.opens = true := by
  rw [opens_eq, found]
  rfl

theorem Sigil.shape_closing : Sigil.shape? .closing = none := rfl

theorem Sigil.shape_ne_parent {sigil : Sigil} {shape : BlockShape} (known : sigil ≠ .parent)
    (found : sigil.shape? = some shape) : shape ≠ .parent := by
  intro same
  subst same
  cases sigil <;> simp [Sigil.shape?] at found known

theorem OpenBlock.close_eq (block : OpenBlock) :
    block.close [] = block.shape.closed block.opening.body block.content.reverse block.text := by
  cases kind : block.shape <;>
    simp [OpenBlock.close, BlockShape.closed, kind, Tokens.substitute]

namespace Yields

theorem append {left right : List Stretch} {first second : Tokens} (front : Yields left first)
    (back : Yields right second) : Yields (left ++ right) (first ++ second) := by
  induction front with
  | nil => exact back
  | chunk _ ih => exact .chunk ih
  | leaf plain open_ _ ih => exact .leaf plain open_ ih
  | block opens closes same within _ _ ih =>
      have whole := Yields.block opens closes same within ih
      simpa only [List.cons_append, List.append_assoc] using whole

theorem nested {pieces : List Stretch} {tokens : Tokens} (yields : Yields pieces tokens) :
    Nested (tagsOf pieces) := by
  induction yields with
  | nil => exact .nil
  | chunk _ ih => exact ih
  | leaf plain open_ _ ih =>
      exact .leaf (by rw [Sigil.opens_eq, plain]; rfl) open_ ih
  | block opens closes same _ _ inner later =>
      have whole := Nested.block (Sigil.opens_of_shape opens) closes same inner later
      simpa using whole

end Yields

theorem exists_tag {pieces : List Stretch} {before after : List Tag} {tag : Tag}
    (split : tagsOf pieces = before ++ tag :: after) :
    ∃ front back, pieces = front ++ .tag tag :: back ∧ tagsOf front = before ∧
      tagsOf back = after := by
  induction pieces generalizing before with
  | nil => simp at split
  | cons piece rest ih =>
      cases piece with
      | chunk text =>
          obtain ⟨front, back, whole, first, last⟩ := ih split
          exact ⟨.chunk text :: front, back, by simp [whole], first, last⟩
      | tag found =>
          cases before with
          | nil =>
              simp only [tagsOf_tag, List.nil_append, List.cons.injEq] at split
              exact ⟨[], rest, by simp [split.1], rfl, split.2⟩
          | cons earlier before =>
              simp only [tagsOf_tag, List.cons_append, List.cons.injEq] at split
              obtain ⟨front, back, whole, first, last⟩ := ih split.2
              exact ⟨.tag found :: front, back, by simp [whole], by simp [first, split.1], last⟩

theorem yields_of_tagsOf_nil {pieces : List Stretch} (none : tagsOf pieces = []) :
    ∃ tokens, Yields pieces tokens := by
  induction pieces with
  | nil => exact ⟨[], .nil⟩
  | cons piece rest ih =>
      cases piece with
      | chunk text =>
          obtain ⟨tokens, later⟩ := ih none
          exact ⟨_, .chunk later⟩
      | tag found => simp at none

/-- Texts between the tags do not matter for the nesting. -/
theorem Nested.yields {tags : List Tag} (nested : Nested tags) {pieces : List Stretch}
    (same : tagsOf pieces = tags) : ∃ tokens, Yields pieces tokens := by
  induction nested generalizing pieces with
  | nil => exact yields_of_tagsOf_nil same
  | @leaf tag rest plain open_ _ ih =>
      have split : tagsOf pieces = [] ++ tag :: rest := same
      obtain ⟨front, back, rfl, first, last⟩ := exists_tag split
      obtain ⟨texts, start⟩ := yields_of_tagsOf_nil first
      obtain ⟨tokens, later⟩ := ih last
      have none : tag.sigil.shape? = none := by
        rw [Sigil.opens_eq] at plain
        simpa using plain
      exact ⟨_, start.append (.leaf none open_ later)⟩
  | @block opening closing inner rest opens closes named _ _ ihInner ihRest =>
      have split : tagsOf pieces = [] ++ opening :: (inner ++ closing :: rest) := same
      obtain ⟨front, back, rfl, first, last⟩ := exists_tag split
      obtain ⟨within, behind, rfl, middle, final⟩ := exists_tag last
      obtain ⟨texts, start⟩ := yields_of_tagsOf_nil first
      obtain ⟨content, yieldsInner⟩ := ihInner middle
      obtain ⟨tokens, yieldsRest⟩ := ihRest final
      rw [Sigil.opens_eq] at opens
      obtain ⟨shape, found⟩ := Option.isSome_iff_exists.mp opens
      exact ⟨_, start.append (.block found closes named yieldsInner yieldsRest)⟩

/-- A tag without the place it came from. -/
def Tag.unplaced (tag : Tag) : Tag := { tag with position := .start }

def Stretch.unplaced : Stretch → Stretch
  | .chunk text => .chunk text
  | .tag found => .tag found.unplaced

theorem Tag.alike_of_unplaced {tag other : Tag} (same : tag.unplaced = other.unplaced) :
    tag.sigil = other.sigil ∧ tag.body = other.body ∧ tag.leaf = other.leaf := by
  have leaf := congrArg Tag.leaf same
  rw [Tag.unplaced, Tag.unplaced, Tag.mk.injEq] at same
  exact ⟨same.1, same.2.1, leaf⟩

theorem Stretch.unplaced_ofChunk (chunk : List Char) :
    (Stretch.ofChunk chunk).map Stretch.unplaced = Stretch.ofChunk chunk := by
  cases chunk <;> rfl

theorem Stretch.unplaced_unplaced (pieces : List Stretch) :
    (pieces.map Stretch.unplaced).map Stretch.unplaced = pieces.map Stretch.unplaced := by
  rw [List.map_map]
  refine List.map_congr_left ?_
  intro piece _
  cases piece <;> rfl

theorem Stretch.eq_chunk_of_unplaced {piece : Stretch} {text : List Char}
    (same : piece.unplaced = .chunk text) : piece = .chunk text := by
  cases piece with
  | chunk other => exact same
  | tag found => contradiction

theorem Stretch.eq_tag_of_unplaced {piece : Stretch} {tag : Tag}
    (same : piece.unplaced = .tag tag) :
    ∃ found : Tag, piece = .tag found ∧ found.unplaced = tag := by
  cases piece with
  | chunk other => contradiction
  | tag found =>
      cases same
      exact ⟨found, rfl, rfl⟩

theorem sourceOf_unplaced (pieces : List Stretch) :
    sourceOf (pieces.map Stretch.unplaced) = sourceOf pieces := by
  induction pieces with
  | nil => rfl
  | cons piece rest ih =>
      have same : piece.unplaced.source = piece.source := by cases piece <;> rfl
      simp [same, ih]

theorem tagsOf_unplaced (pieces : List Stretch) :
    tagsOf (pieces.map Stretch.unplaced) = (tagsOf pieces).map Tag.unplaced := by
  induction pieces with
  | nil => rfl
  | cons piece rest ih => cases piece <;> simp [Stretch.unplaced, ih]

theorem Yields.of_unplaced {pieces others : List Stretch} {tokens : Tokens}
    (yields : Yields pieces tokens)
    (same : others.map Stretch.unplaced = pieces.map Stretch.unplaced) : Yields others tokens := by
  induction yields generalizing others with
  | nil =>
      rw [List.map_nil, List.map_eq_nil_iff] at same
      subst same
      exact .nil
  | chunk _ ih =>
      obtain ⟨piece, rest, rfl, first, later⟩ := List.map_eq_cons_iff.mp same
      rw [Stretch.eq_chunk_of_unplaced first]
      exact .chunk (ih later)
  | @leaf tag rest tokens plain open_ _ ih =>
      obtain ⟨piece, rest, rfl, first, later⟩ := List.map_eq_cons_iff.mp same
      obtain ⟨found, rfl, alike⟩ := Stretch.eq_tag_of_unplaced first
      obtain ⟨sort, _, leaf⟩ := Tag.alike_of_unplaced alike
      rw [← leaf]
      exact .leaf (sort ▸ plain) (sort ▸ open_) (ih later)
  | @block shape opening closing inner rest content tokens opens closes named _ _ ihInner ihRest =>
      rw [List.cons_append] at same
      obtain ⟨first, others, rfl, start, more⟩ := List.map_eq_cons_iff.mp same
      rw [List.map_append] at more
      obtain ⟨within, behind, rfl, middle, final⟩ := List.map_eq_append_iff.mp more
      obtain ⟨last, others, rfl, stop, later⟩ := List.map_eq_cons_iff.mp final
      obtain ⟨opened, rfl, likeOpening⟩ := Stretch.eq_tag_of_unplaced start
      obtain ⟨closed, rfl, likeClosing⟩ := Stretch.eq_tag_of_unplaced stop
      obtain ⟨sort, body, _⟩ := Tag.alike_of_unplaced likeOpening
      obtain ⟨sortClosed, bodyClosed, _⟩ := Tag.alike_of_unplaced likeClosing
      have text : sourceOf within = sourceOf inner := by
        rw [← sourceOf_unplaced, middle, sourceOf_unplaced]
      rw [← text, ← body]
      exact .block (sort ▸ opens) (sortClosed ▸ closes) (by rw [body, bodyClosed, named])
        (ihInner middle) (ihRest later)

theorem plain_of_unplaced {pieces others : List Stretch}
    (same : others.map Stretch.unplaced = pieces.map Stretch.unplaced)
    (plain : ∀ tag ∈ tagsOf pieces, tag.sigil ≠ .parent) :
    ∀ tag ∈ tagsOf others, tag.sigil ≠ .parent := by
  intro tag member
  have present : tag.unplaced ∈ (tagsOf others).map Tag.unplaced := List.mem_map_of_mem member
  rw [← tagsOf_unplaced, same, tagsOf_unplaced] at present
  obtain ⟨found, among, alike⟩ := List.mem_map.mp present
  rw [← (Tag.alike_of_unplaced alike).1]
  exact plain found among

namespace Nest

/-- Adds pieces one by one, where no tag asks for a parent. -/
def feed : Nest → List Stretch → Except Flaw Nest
  | nest, [] => .ok nest
  | nest, .chunk text :: rest => (nest.add (.content (String.ofList text)) text).feed rest
  | nest, .tag tag :: rest =>
      match nest.addTag [] tag with
      | .ok next => next.feed rest
      | .error flaw => .error flaw

theorem feed_append (nest : Nest) (left right : List Stretch) :
    nest.feed (left ++ right) =
      match nest.feed left with
      | .ok next => next.feed right
      | .error flaw => .error flaw := by
  induction left generalizing nest with
  | nil => rfl
  | cons piece rest ih =>
      cases piece with
      | chunk text => exact ih _
      | tag tag =>
          simp only [List.cons_append, feed]
          cases nest.addTag [] tag with
          | ok next => exact ih next
          | error flaw => rfl

theorem feed_ofChunk (nest : Nest) (chunk : List Char) (rest : List Stretch) :
    nest.feed (Stretch.ofChunk chunk ++ rest) = (nest.addChunk chunk).feed rest := by
  cases chunk <;> rfl

/-- Nesting a scan is feeding its pieces, and then finishing where nothing has stopped the scan. -/
theorem ofScan_eq (nest : Nest) (scan : Scan) :
    nest.ofScan scan =
      match nest.feed scan.pieces with
      | .error flaw => .error flaw
      | .ok next =>
          match scan.flaw? with
          | some flaw => .error flaw
          | none => next.finish := by
  induction scan generalizing nest with
  | finished chunk =>
      have fed := feed_ofChunk nest chunk []
      rw [List.append_nil] at fed
      simp only [ofScan, Scan.pieces, Scan.flaw?, fed, feed]
  | broken chunk flaw =>
      have fed := feed_ofChunk nest chunk []
      rw [List.append_nil] at fed
      simp only [ofScan, Scan.pieces, Scan.flaw?, fed, feed]
  | tagged chunk tag rest ih =>
      simp only [ofScan, Scan.pieces, Scan.flaw?, feed_ofChunk, feed]
      cases (nest.addChunk chunk).addTag [] tag with
      | ok next => exact ih next
      | error flaw => rfl

theorem addTag_opening {tag : Tag} {shape : BlockShape} (opens : tag.sigil.shape? = some shape)
    (nest : Nest) (parent : Tokens) :
    nest.addTag parent tag = .ok { nest with blocks := ⟨shape, tag, [], []⟩ :: nest.blocks } := by
  simp only [addTag, opens]

theorem addTag_closing {tag : Tag} (closes : tag.sigil = .closing) (nest : Nest)
    (parent : Tokens) : nest.addTag parent tag = nest.close parent tag := by
  simp only [addTag, closes, Sigil.shape_closing, if_true]

theorem addTag_leaf {tag : Tag} (plain : tag.sigil.shape? = none) (open_ : tag.sigil ≠ .closing)
    (nest : Nest) (parent : Tokens) :
    nest.addTag parent tag = .ok (nest.add tag.leaf tag.source) := by
  simp only [addTag, plain, if_neg open_]

/-- The token of a closed block goes to the block around it. -/
theorem close_matching {block : OpenBlock} {tag : Tag} (same : tag.body = block.opening.body)
    (outer : List OpenBlock) (outside : Tokens) :
    close ⟨block :: outer, outside⟩ [] tag =
      .ok (add ⟨outer, outside⟩
        (block.shape.closed block.opening.body block.content.reverse block.text)
        (block.opening.source ++ block.text ++ tag.source)) := by
  simp only [close, same, if_true, OpenBlock.close_eq]

theorem close_outside (tag : Tag) (outside : Tokens) :
    close ⟨[], outside⟩ [] tag = .error ⟨.strayClosing tag.body, tag.position⟩ := rfl

theorem close_mismatched {block : OpenBlock} {tag : Tag} (other : block.opening.body ≠ tag.body)
    (outer : List OpenBlock) (outside : Tokens) :
    close ⟨block :: outer, outside⟩ [] tag =
      .error ⟨.mismatchedClosing tag.body block.opening.body, tag.position⟩ := by
  simp only [close, if_neg other]

/-- The innermost block has grown by tokens and their text; nothing else has changed. -/
def Grown (nest : Nest) (tokens : Tokens) (text : List Char) (next : Nest) : Prop :=
  match nest.blocks with
  | [] => next.blocks = [] ∧ next.outside = tokens.reverse ++ nest.outside
  | block :: outer => next.outside = nest.outside ∧ ∃ grown : OpenBlock,
      next.blocks = grown :: outer ∧ grown.shape = block.shape ∧ grown.opening = block.opening ∧
        grown.content = tokens.reverse ++ block.content ∧ grown.text = block.text ++ text

theorem grown_refl (nest : Nest) : nest.Grown [] [] nest := by
  unfold Grown
  split
  · rename_i none
    exact ⟨none, rfl⟩
  · rename_i block outer blocks
    exact ⟨rfl, block, blocks, rfl, rfl, rfl, (List.append_nil _).symm⟩

theorem grown_add (nest : Nest) (token : Token) (text : List Char) :
    nest.Grown [token] text (nest.add token text) := by
  unfold Grown add
  cases nest.blocks with
  | nil => exact ⟨rfl, rfl⟩
  | cons block outer => exact ⟨rfl, _, rfl, rfl, rfl, rfl, by simp [OpenBlock.text]⟩

theorem Grown.trans {nest middle next : Nest} {first second : Tokens} {left right : List Char}
    (start : nest.Grown first left middle) (later : middle.Grown second right next) :
    nest.Grown (first ++ second) (left ++ right) next := by
  unfold Grown at start ⊢
  cases blocks : nest.blocks with
  | nil =>
      simp only [blocks] at start
      simp only [Grown, start.1] at later
      exact ⟨later.1, by simp [later.2, start.2]⟩
  | cons block outer =>
      simp only [blocks] at start
      obtain ⟨outside, grown, whole, shape, opening, content, text⟩ := start
      simp only [Grown, whole] at later
      obtain ⟨outside', grown', whole', shape', opening', content', text'⟩ := later
      exact ⟨outside'.trans outside, grown', whole', shape'.trans shape, opening'.trans opening,
        by simp [content', content], by simp [text', text]⟩

/-- Pieces that yield tokens can be fed to any nest, and only add these tokens. -/
theorem feed_yields {pieces : List Stretch} {tokens : Tokens} (yields : Yields pieces tokens)
    (nest : Nest) : ∃ next, nest.feed pieces = .ok next ∧
      nest.Grown tokens (sourceOf pieces) next := by
  induction yields generalizing nest with
  | nil => exact ⟨nest, rfl, nest.grown_refl⟩
  | @chunk text rest tokens _ ih =>
      obtain ⟨next, fed, grown⟩ := ih (nest.add (.content (String.ofList text)) text)
      exact ⟨next, fed, (nest.grown_add _ text).trans grown⟩
  | @leaf tag rest tokens plain open_ _ ih =>
      obtain ⟨next, fed, grown⟩ := ih (nest.add tag.leaf tag.source)
      refine ⟨next, ?_, (nest.grown_add _ tag.source).trans grown⟩
      simp only [feed, addTag, plain, if_neg open_]
      exact fed
  | @block shape opening closing inner rest content tokens opens closes same _ _ ihInner ihRest =>
      let opened : Nest := { nest with blocks := ⟨shape, opening, [], []⟩ :: nest.blocks }
      obtain ⟨filled, fedInner, grown⟩ := ihInner opened
      simp only [Grown, opened] at grown
      obtain ⟨outside, block, blocks, kind, tag, children, text⟩ := grown
      have closed : filled.addTag [] closing =
          .ok (nest.add (shape.closed opening.body content (sourceOf inner))
            (opening.source ++ sourceOf inner ++ closing.source)) := by
        obtain ⟨_, outside⟩ := filled
        have read : block.text = sourceOf inner := by simpa [OpenBlock.text] using text
        simp only at blocks outside
        subst blocks outside
        rw [addTag_closing closes, close_matching (same.trans (by rw [tag]))]
        simp [kind, tag, children, read]
      obtain ⟨next, fedRest, grownRest⟩ := ihRest
        (nest.add (shape.closed opening.body content (sourceOf inner))
          (opening.source ++ sourceOf inner ++ closing.source))
      refine ⟨next, ?_, ?_⟩
      · simp only [List.cons_append, feed, addTag, opens]
        rw [feed_append, fedInner]
        simp only [feed, closed]
        exact fedRest
      · have whole := (nest.grown_add _ _).trans grownRest
        simpa only [List.cons_append, sourceOf_cons, sourceOf_append, Stretch.source,
          List.append_assoc, List.nil_append] using whole

/-- What a nest has been fed, cut by its open blocks: each part yields what its block holds. -/
inductive Traced : List Stretch → Nest → Prop where
  | outside {pieces : List Stretch} {tokens : Tokens} (yields : Yields pieces tokens.reverse) :
      Traced pieces ⟨[], tokens⟩
  | inside {before inner : List Stretch} {block : OpenBlock} {outer : List OpenBlock}
      {tokens : Tokens} (around : Traced before ⟨outer, tokens⟩)
      (opens : block.opening.sigil.shape? = some block.shape)
      (yields : Yields inner block.content.reverse) (text : block.text = sourceOf inner) :
      Traced (before ++ .tag block.opening :: inner) ⟨block :: outer, tokens⟩

theorem traced_empty : Traced [] .empty := .outside .nil

/-- Where no block is open, everything fed so far yields the tokens outside. -/
theorem Traced.yields {pieces : List Stretch} {nest : Nest} (traced : Traced pieces nest)
    (closed : nest.blocks = []) : Yields pieces nest.outside.reverse := by
  cases traced with
  | outside yields => exact yields
  | inside => contradiction

/-- What follows the tag of the innermost block is properly nested. -/
theorem Traced.innermost {pieces : List Stretch} {nest : Nest} {block : OpenBlock}
    {outer : List OpenBlock} (traced : Traced pieces nest) (blocks : nest.blocks = block :: outer) :
    ∃ before inner, pieces = before ++ .tag block.opening :: inner ∧
      block.opening.sigil.opens = true ∧ Nested (tagsOf inner) := by
  cases traced with
  | outside => contradiction
  | inside _ opens yields _ =>
      cases blocks
      exact ⟨_, _, rfl, Sigil.opens_of_shape opens, yields.nested⟩

theorem Traced.add {pieces more : List Stretch} {nest : Nest} {token : Token}
    (traced : Traced pieces nest) (yields : Yields more [token]) :
    Traced (pieces ++ more) (nest.add token (sourceOf more)) := by
  cases traced with
  | outside before => exact .outside (by simpa using before.append yields)
  | @inside before inner block outer tokens around opens within text =>
      let longer : OpenBlock :=
        ⟨block.shape, block.opening, token :: block.content, sourceOf more :: block.pieces⟩
      have content : Yields (inner ++ more) longer.content.reverse := by
        simpa [longer] using within.append yields
      have read : longer.text = sourceOf (inner ++ more) := by
        simp only [OpenBlock.text] at text
        simp [OpenBlock.text, longer, text]
      have whole : Traced (before ++ .tag longer.opening :: (inner ++ more))
          ⟨longer :: outer, tokens⟩ := .inside around opens content read
      rw [List.append_assoc, List.cons_append]
      exact whole

/-- The text of a closed block is that of its pieces, its tags included. -/
theorem sourceOf_block {opening closing : Tag} (inner : List Stretch) :
    opening.source ++ sourceOf inner ++ closing.source =
      sourceOf (.tag opening :: inner ++ [.tag closing]) := by
  simp [Stretch.source]

theorem Traced.addTag {pieces : List Stretch} {nest next : Nest} {tag : Tag}
    (traced : Traced pieces nest) (added : nest.addTag [] tag = .ok next) :
    Traced (pieces ++ [.tag tag]) next := by
  by_cases closes : tag.sigil = .closing
  · rw [addTag_closing closes] at added
    cases traced with
    | outside => simp [close_outside] at added
    | @inside before inner block outer tokens around opens within text =>
        by_cases same : tag.body = block.opening.body
        · rw [close_matching same, text, sourceOf_block] at added
          cases added
          have whole := around.add (.block opens closes same within .nil)
          simpa using whole
        · rw [close_mismatched (Ne.symm same)] at added
          contradiction
  · cases sort : tag.sigil.shape? with
    | some shape =>
        rw [addTag_opening sort] at added
        cases added
        have opened : Traced (pieces ++ .tag (OpenBlock.mk shape tag [] []).opening :: []) _ :=
          .inside traced sort .nil rfl
        exact opened
    | none =>
        rw [addTag_leaf sort closes] at added
        cases added
        have longer := traced.add (.leaf sort closes .nil)
        simpa [Stretch.source] using longer

theorem Traced.addChunk {pieces : List Stretch} {nest : Nest} (traced : Traced pieces nest)
    (chunk : List Char) : Traced (pieces ++ Stretch.ofChunk chunk) (nest.addChunk chunk) := by
  cases chunk with
  | nil => simpa [Stretch.ofChunk, Nest.addChunk] using traced
  | cons c rest =>
      have yields : Yields [.chunk (c :: rest)] [.content (String.ofList (c :: rest))] :=
        .chunk .nil
      have step := traced.add yields
      simpa [Stretch.ofChunk, Nest.addChunk, Stretch.source] using step

theorem Traced.feed {pieces more : List Stretch} {nest next : Nest} (traced : Traced pieces nest)
    (fed : nest.feed more = .ok next) : Traced (pieces ++ more) next := by
  induction more generalizing pieces nest with
  | nil =>
      simp only [Nest.feed, Except.ok.injEq] at fed
      subst fed
      simpa using traced
  | cons piece rest ih =>
      cases piece with
      | chunk text =>
          have yields : Yields [.chunk text] [.content (String.ofList text)] := .chunk .nil
          have step := traced.add yields
          rw [sourceOf_cons, sourceOf_nil, List.append_nil, Stretch.source] at step
          have whole := ih step fed
          simpa using whole
      | tag tag =>
          simp only [Nest.feed] at fed
          cases added : nest.addTag [] tag with
          | error flaw => simp [added] at fed
          | ok middle =>
              rw [added] at fed
              have whole := ih (traced.addTag added) fed
              simpa using whole

end Nest

end Logicless
