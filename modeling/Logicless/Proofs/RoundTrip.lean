import Logicless.Proofs.Writing

namespace Logicless

open Text

/-- A block as parts of a scan. -/
def Delimiters.blockOf (delimiters : Delimiters) (sigil : Sigil) (name : String)
    (inner : List Stretch) : List Stretch :=
  .tag (delimiters.written sigil name.toList) :: inner ++
    [.tag (delimiters.written .closing name.toList)]

mutual

def Token.strokes (delimiters : Delimiters) : Token → List Stretch
  | .content text => [.chunk text.toList]
  | .escaped name => [.tag (delimiters.written .escaped name.toList)]
  | .unescaped name => [.tag (delimiters.written .braced name.toList)]
  | .block name content _ => delimiters.blockOf .block name (Tokens.strokes delimiters content)
  | .inverted name content => delimiters.blockOf .inverted name (Tokens.strokes delimiters content)
  | .placeholder name content =>
      delimiters.blockOf .placeholder name (Tokens.strokes delimiters content)
  | .partialNamed name => [.tag (delimiters.written .partials name.toList)]
  | .pragma name options => [.tag (delimiters.written .pragma (pragmaBody name options))]
  | .comment text => [.tag (delimiters.written .comment text.toList)]
  | .partialKnown _ | .delimiters .. => []

def Tokens.strokes (delimiters : Delimiters) : List Token → List Stretch
  | [] => []
  | token :: rest => Token.strokes delimiters token ++ Tokens.strokes delimiters rest

end

mutual

theorem Token.sourceOf_strokes (delimiters : Delimiters) :
    (token : Token) → sourceOf (token.strokes delimiters) = token.written delimiters
  | .content text => by
      simp [Token.strokes, Token.written, Stretch.source]
  | .escaped name | .unescaped name | .partialNamed name | .comment name => by
      simp [Token.strokes, Token.written]
  | .pragma name options => by simp [Token.strokes, Token.written]
  | .block name content _ | .inverted name content | .placeholder name content => by
      simp [Token.strokes, Token.written, Delimiters.blockOf, Delimiters.block,
        Tokens.sourceOf_strokes delimiters content]
  | .partialKnown _ | .delimiters .. => rfl

theorem Tokens.sourceOf_strokes (delimiters : Delimiters) :
    (tokens : List Token) → sourceOf (Tokens.strokes delimiters tokens) =
      Tokens.written delimiters tokens
  | [] => rfl
  | token :: rest => by
      simp [Tokens.strokes, Tokens.written, Token.sourceOf_strokes delimiters token,
        Tokens.sourceOf_strokes delimiters rest]

end

theorem Delimiters.Plain.equals_not_mem {delimiters : Delimiters} (plain : delimiters.Plain) :
    '=' ∉ delimiters.closing := by
  have equals : Sigil.char? .delimiters = some '=' := rfl
  exact plain.marker_not_mem equals

theorem Delimiters.IsName.writes {delimiters : Delimiters} {name : String} {sigil : Sigil}
    (isName : delimiters.IsName name) (steady : sigil ≠ .delimiters)
    (unmarked : sigil = .escaped → Sigil.ofText name.toList = .escaped) :
    delimiters.Writes sigil name.toList where
  spared := by
    intro c member
    obtain ⟨_, _, closing, _, brace⟩ := isName.spared c member
    cases sigil <;> simp [Sigil.ending, closing, brace] at steady ⊢
  stripped := isName.stripped
  solid := .inl isName.ne_nil
  unmarked := unmarked

theorem Delimiters.writes_comment {delimiters : Delimiters} {text : List Char}
    (spared : delimiters.Spares text) (stripped : strip text = text) :
    delimiters.Writes .comment text where
  spared := fun c member => (spared c member).2.2.1
  stripped := stripped
  solid := .inr rfl
  unmarked := by simp

theorem Delimiters.IsOption.isWord {delimiters : Delimiters} {option : String × String}
    (isOption : delimiters.IsOption option) : IsWord (pragmaWord option) where
  ne_nil := by simp [pragmaWord]
  solid := by
    intro c member
    simp only [pragmaWord, List.mem_append, List.mem_cons] at member
    rcases member with inKey | same | inValue
    · exact isOption.key.solid c inKey
    · rw [same]
      decide
    · exact isOption.value c inValue

theorem isWord_of_pragma {delimiters : Delimiters} {name : String} {options : Options}
    (isWord : IsWord name.toList)
    (isOption : ∀ option ∈ options.entries, delimiters.IsOption option) :
    ∀ part ∈ name.toList :: options.entries.map pragmaWord, IsWord part := by
  intro part member
  rcases List.mem_cons.mp member with same | later
  · exact same ▸ isWord
  · obtain ⟨option, present, same⟩ := List.mem_map.mp later
    exact same ▸ (isOption option present).isWord

theorem Delimiters.writes_pragma {delimiters : Delimiters} {name : String} {options : Options}
    (plain : delimiters.Plain) (isWord : IsWord name.toList)
    (spared : delimiters.Spares name.toList)
    (isOption : ∀ option ∈ options.entries, delimiters.IsOption option) :
    delimiters.Writes .pragma (pragmaBody name options) where
  spared := by
    intro c member
    have none : Sigil.ending .pragma = [] := rfl
    rw [none, List.nil_append]
    rcases mem_unwords member with same | ⟨word, among, inside⟩
    · intro present
      have solid := plain.solid.2 c present
      rw [same] at solid
      exact absurd solid (by decide)
    · rcases List.mem_cons.mp among with same | later
      · exact (spared c (same ▸ inside)).2.2.1
      · obtain ⟨option, present, same⟩ := List.mem_map.mp later
        have optionSpared := (isOption option present).spared
        rw [← same, pragmaWord, List.mem_append, List.mem_cons] at inside
        rcases inside with inKey | equals | inValue
        · exact (optionSpared c (List.mem_append_left _ inKey)).2.2.1
        · rw [equals]
          exact plain.equals_not_mem
        · exact (optionSpared c (List.mem_append_right _ inValue)).2.2.1
  stripped := strip_unwords (isWord_of_pragma isWord isOption)
  solid := .inl (unwords_ne_nil isWord _)
  unmarked := by simp

theorem Delimiters.legible_blockOf {delimiters : Delimiters} {sigil : Sigil} {name : String}
    {inner : List Stretch} (isName : delimiters.IsName name) (opens : sigil.opens = true)
    (rootless : sigil ≠ .parent) (legible : ∀ piece ∈ inner, piece.Legible delimiters) :
    ∀ piece ∈ delimiters.blockOf sigil name inner, piece.Legible delimiters := by
  have steady : sigil ≠ .delimiters := by
    intro same
    rw [same] at opens
    contradiction
  have marked : sigil ≠ .escaped := by
    intro same
    rw [same] at opens
    contradiction
  intro piece member
  simp only [blockOf, List.cons_append, List.mem_cons, List.mem_append,
    List.not_mem_nil, or_false] at member
  rcases member with same | inside | same
  · rw [same]
    exact .tag (isName.writes steady (fun plain => absurd plain marked)) steady rootless
  · exact legible piece inside
  · rw [same]
    exact .tag (isName.writes (by simp) (by simp)) (by simp) (by simp)

mutual

theorem Token.legible_strokes {delimiters : Delimiters} (plain : delimiters.Plain) :
    (token : Token) → token.Legible delimiters →
      ∀ piece ∈ token.strokes delimiters, piece.Legible delimiters
  | .content text, legible => by
      simp only [Token.strokes, List.mem_singleton, forall_eq]
      exact .chunk legible.1 legible.2
  | .escaped name, legible => by
      simp only [Token.strokes, List.mem_singleton, forall_eq]
      exact .tag (legible.1.writes (by simp) (fun _ => legible.2)) (by simp) (by simp)
  | .unescaped name, legible | .partialNamed name, legible => by
      simp only [Token.strokes, List.mem_singleton, forall_eq]
      exact .tag (Delimiters.IsName.writes legible (by simp) (by simp)) (by simp) (by simp)
  | .comment text, legible => by
      simp only [Token.strokes, List.mem_singleton, forall_eq]
      exact .tag (Delimiters.writes_comment legible.1 legible.2) (by simp) (by simp)
  | .pragma name options, legible => by
      simp only [Token.strokes, List.mem_singleton, forall_eq]
      exact .tag (Delimiters.writes_pragma plain legible.1 legible.2.1 legible.2.2.1) (by simp)
        (by simp)
  | .block name content _, legible | .inverted name content, legible
  | .placeholder name content, legible =>
      Delimiters.legible_blockOf legible.1 rfl (by simp)
        (Tokens.legible_strokes plain content legible.2)
  | .partialKnown _, legible | .delimiters .., legible => legible.elim

theorem Tokens.legible_strokes {delimiters : Delimiters} (plain : delimiters.Plain) :
    (tokens : List Token) → Tokens.Legible delimiters tokens →
      ∀ piece ∈ Tokens.strokes delimiters tokens, piece.Legible delimiters
  | [], _ => by simp [Tokens.strokes]
  | token :: rest, legible => by
      intro piece member
      rcases List.mem_append.mp member with first | later
      · exact Token.legible_strokes plain token legible.1 piece first
      · exact Tokens.legible_strokes plain rest legible.2 piece later

end

/-- A tag comes next, or nothing. -/
def TagNext (pieces : List Stretch) : Prop := ∀ piece ∈ pieces.head?, ∃ tag, piece = .tag tag

theorem Token.tagNext_strokes {delimiters : Delimiters} {token : Token}
    (legible : token.Legible delimiters) (sort : token.kind ≠ .content) (rest : List Stretch) :
    TagNext (token.strokes delimiters ++ rest) := by
  cases token with
  | content text => contradiction
  | partialKnown _ => exact legible.elim
  | delimiters _ _ => exact legible.elim
  | _ => simp [TagNext, Token.strokes, Delimiters.blockOf]

/-- Texts that are no neighbours in a tree are none where it is written. -/
theorem Tokens.tagNext_strokes {delimiters : Delimiters} {token : Token} {others : Tokens}
    {rest : List Stretch} (tidy : Tokens.Tidy (token :: others))
    (legible : Tokens.Legible delimiters others) (next : TagNext rest)
    (sort : token.kind = .content) : TagNext (Tokens.strokes delimiters others ++ rest) := by
  cases others with
  | nil => exact next
  | cons other more =>
      have different := tidy.2.1 sort other (by simp)
      rw [Tokens.strokes, List.append_assoc]
      exact Token.tagNext_strokes legible.1 different _

mutual

theorem Token.spaced_strokes {delimiters : Delimiters} :
    (token : Token) → token.Tidy → token.Legible delimiters → {rest : List Stretch} →
      Spaced rest → (token.kind = .content → TagNext rest) →
        Spaced (token.strokes delimiters ++ rest)
  | .content text, tidy, _, rest, spaced, next => by
      refine ⟨?_, next rfl, spaced⟩
      intro empty
      exact tidy (String.toList_eq_nil_iff.mp empty)
  | .escaped _, _, _, _, spaced, _ | .unescaped _, _, _, _, spaced, _
  | .partialNamed _, _, _, _, spaced, _ | .comment _, _, _, _, spaced, _
  | .pragma .., _, _, _, spaced, _ => spaced
  | .block name content _, tidy, legible, rest, spaced, _
  | .inverted name content, tidy, legible, rest, spaced, _
  | .placeholder name content, tidy, legible, rest, spaced, _ => by
      have closed : Spaced (.tag (delimiters.written .closing name.toList) :: rest) := spaced
      have inner := Tokens.spaced_strokes content tidy legible.2 closed (by simp [TagNext])
      simpa [Token.strokes, Delimiters.blockOf, Spaced] using inner
  | .partialKnown _, _, legible, _, _, _ | .delimiters .., _, legible, _, _, _ => legible.elim

theorem Tokens.spaced_strokes {delimiters : Delimiters} :
    (tokens : List Token) → Tokens.Tidy tokens → Tokens.Legible delimiters tokens →
      {rest : List Stretch} → Spaced rest → TagNext rest →
        Spaced (Tokens.strokes delimiters tokens ++ rest)
  | [], _, _, _, spaced, _ => spaced
  | token :: others, tidy, legible, rest, spaced, next => by
      have later := Tokens.spaced_strokes others tidy.2.2 legible.2 spaced next
      have first := Token.spaced_strokes token tidy.1 legible.1 later
        (Tokens.tagNext_strokes tidy legible.2 next)
      rwa [Tokens.strokes, List.append_assoc]

end

theorem Delimiters.leaf_written_pragma {delimiters : Delimiters} {name : String} {options : Options}
    (isWord : IsWord name.toList)
    (isOption : ∀ option ∈ options.entries, delimiters.IsOption option)
    (apart : options.names.Nodup) :
    (delimiters.written .pragma (pragmaBody name options)).leaf = .pragma name options := by
  have options_eq : (options.entries.map pragmaWord).map pragmaOption = options.entries := by
    rw [List.map_map]
    refine (List.map_congr_left ?_).trans (List.map_id _)
    intro option member
    obtain ⟨key, value⟩ := option
    have unequal := (isOption (key, value) member).unequal
    have cut := breakOn_clean (List.cons_ne_nil '=' [])
      (fun c inKey => by simp only [List.mem_singleton]; exact fun same => unequal (same ▸ inKey))
      value.toList
    simp only [List.append_assoc, List.cons_append, List.nil_append] at cut
    simp [pragmaWord, pragmaOption, cut]
  have words_eq := words_unwords (isWord_of_pragma isWord isOption)
  simp only [Tag.leaf, written, String.toList_ofList, pragmaBody, words_eq, pragmaToken, options_eq,
    String.ofList_toList]
  rw [Table.ofList_of_nodup apart]

theorem Delimiters.yields_written {delimiters : Delimiters} {sigil : Sigil} {body : List Char}
    {token : Token} (leaf : (delimiters.written sigil body).leaf = token)
    (plain : sigil.shape? = none) (open_ : sigil ≠ .closing) :
    Yields [.tag (delimiters.written sigil body)] [token] := by
  have yields : Yields [.tag (delimiters.written sigil body)]
      [(delimiters.written sigil body).leaf] := .leaf plain open_ .nil
  rwa [leaf] at yields

theorem Delimiters.yields_blockOf {delimiters : Delimiters} {sigil : Sigil} {shape : BlockShape}
    {name : String} {inner : List Stretch} {content : Tokens} (opens : sigil.shape? = some shape)
    (yields : Yields inner content) :
    Yields (delimiters.blockOf sigil name inner) [shape.closed name content (sourceOf inner)] := by
  have whole : Yields (delimiters.blockOf sigil name inner)
      [shape.closed (delimiters.written sigil name.toList).body content (sourceOf inner)] :=
    .block opens rfl rfl yields .nil
  rwa [written, String.ofList_toList] at whole

mutual

theorem Token.yields_strokes {delimiters : Delimiters} :
    (token : Token) → token.Legible delimiters →
      Yields (token.strokes delimiters) [token.filled delimiters]
  | .content text, _ => by
      have yields : Yields [.chunk text.toList] [.content (String.ofList text.toList)] :=
        .chunk .nil
      rwa [String.ofList_toList] at yields
  | .escaped name, _ | .unescaped name, _ | .partialNamed name, _ | .comment name, _ =>
      Delimiters.yields_written (by simp [Tag.leaf, Delimiters.written, Token.filled]) rfl (by simp)
  | .pragma name options, legible =>
      Delimiters.yields_written
        (Delimiters.leaf_written_pragma legible.1 legible.2.2.1 legible.2.2.2) rfl (by simp)
  | .block name content _, legible => by
      have yields := @Delimiters.yields_blockOf delimiters .block .block name _ _ rfl
        (Tokens.yields_strokes content legible.2)
      rwa [Tokens.sourceOf_strokes] at yields
  | .inverted name content, legible =>
      @Delimiters.yields_blockOf delimiters .inverted .inverted name _ _ rfl
        (Tokens.yields_strokes content legible.2)
  | .placeholder name content, legible =>
      @Delimiters.yields_blockOf delimiters .placeholder .placeholder name _ _ rfl
        (Tokens.yields_strokes content legible.2)
  | .partialKnown _, legible | .delimiters .., legible => legible.elim

theorem Tokens.yields_strokes {delimiters : Delimiters} :
    (tokens : List Token) → Tokens.Legible delimiters tokens →
      Yields (Tokens.strokes delimiters tokens) (Tokens.filled delimiters tokens)
  | [], _ => .nil
  | token :: rest, legible =>
      (Token.yields_strokes token legible.1).append (Tokens.yields_strokes rest legible.2)

end

namespace Delimiters

variable {delimiters : Delimiters}

theorem isWord_of_free (free : delimiters.Free) :
    ∀ word ∈ [delimiters.opening, delimiters.closing], IsWord word := by
  intro word member
  simp only [List.mem_cons, List.not_mem_nil, or_false] at member
  rcases member with same | same
  · subst same
    exact ⟨delimiters.opening_ne_nil, fun c inside => (free c (by simp [inside])).1⟩
  · subst same
    exact ⟨delimiters.closing_ne_nil, fun c inside => (free c (by simp [inside])).1⟩

theorem writes_preamble (free : delimiters.Free) :
    standard.Writes .delimiters (unwords [delimiters.opening, delimiters.closing]) where
  spared := by
    intro c member marker
    have among : c = '=' ∨ c = '\x7d' := by
      simpa [Sigil.ending, standard] using marker
    rcases mem_unwords member with same | ⟨word, part, inside⟩
    · rcases among with equals | brace <;> simp [same] at *
    · have unreserved : c ∉ reserved := by
        simp only [List.mem_cons, List.not_mem_nil, or_false] at part
        rcases part with same | same
        · exact (free c (by simp [← same, inside])).2
        · exact (free c (by simp [← same, inside])).2
      rcases among with equals | brace
      · simp [equals, reserved] at unreserved
      · simp [brace, reserved] at unreserved
  stripped := strip_unwords (isWord_of_free free)
  solid := .inl (unwords_ne_nil (isWord_of_free free _ (by simp)) _)
  unmarked := by simp

theorem named_preamble (free : delimiters.Free) :
    Named (unwords [delimiters.opening, delimiters.closing]) delimiters := by
  refine ⟨words_unwords (isWord_of_free free), ?_, ?_⟩
  · intro member
    exact absurd (free '=' (by simp [member])).2 (by simp [reserved])
  · intro member
    exact absurd (free '=' (by simp [member])).2 (by simp [reserved])

/-- The preamble as a part of a scan. -/
def introduced (delimiters : Delimiters) : List Stretch :=
  if delimiters = .standard then []
  else [.tag (standard.written .delimiters (unwords [delimiters.opening, delimiters.closing]))]

theorem yields_introduced (plain : delimiters.Plain) :
    Yields delimiters.introduced delimiters.announced := by
  rcases plain with same | free
  · simp only [introduced, announced, same, if_true]
    exact .nil
  · by_cases same : delimiters = .standard
    · simp only [introduced, announced, same, if_true]
      exact .nil
    · simp only [introduced, announced, same, if_false]
      refine yields_written ?_ rfl (by simp)
      have cut := words_unwords (isWord_of_free free)
      simp [Tag.leaf, written, cut]

end Delimiters

/-- What a scan finds where parts have been written behind the preamble. -/
theorem Scan.pieces_preamble {delimiters : Delimiters} {pieces : List Stretch}
    (plain : delimiters.Plain) (spaced : Spaced pieces)
    (legible : ∀ piece ∈ pieces, piece.Legible delimiters) :
    (ofText (delimiters.preamble ++ sourceOf pieces)).flaw? = none ∧
      (ofText (delimiters.preamble ++ sourceOf pieces)).pieces.map Stretch.unplaced =
        delimiters.introduced ++ pieces := by
  have scanned := fun fresh position =>
    @Scan.pieces_written delimiters [] pieces plain fresh position spaced legible
  simp only [List.nil_append] at scanned
  by_cases same : delimiters = .standard
  · simp only [Delimiters.preamble, Delimiters.introduced, same, if_true, List.nil_append]
    rw [same] at scanned
    exact scanned true .start
  · have free := plain.resolve_left same
    have writes := Delimiters.writes_preamble free
    have standard : Delimiters.standard.Plain := .inl rfl
    have reads := writes.reads standard (List.forall_mem_nil _) (sourceOf pieces)
      (fun _ => Delimiters.named_preamble free) (fun other => absurd rfl other)
    obtain ⟨begins, settled⟩ := @settle_inline []
      ⟨.delimiters, unwords [delimiters.opening, delimiters.closing],
        Delimiters.standard.tag .delimiters (unwords [delimiters.opening, delimiters.closing]),
        sourceOf pieces⟩ true
      (Position.start.past []) (.inl rfl) (Delimiters.exists_solid_source plain.solid legible)
    simp only [Delimiters.preamble, Delimiters.introduced, same, if_false]
    rw [List.nil_append] at reads
    rw [ofText, reads.ofTextFrom_eq, settled]
    refine ⟨(scanned _ _).1, ?_⟩
    rw [pieces_tagged, List.map_append, List.map_cons, (scanned _ _).2]
    rfl

theorem plain_of_legible {delimiters : Delimiters} {pieces : List Stretch}
    (legible : ∀ piece ∈ pieces, piece.Legible delimiters) :
    ∀ tag ∈ tagsOf (delimiters.introduced ++ pieces), tag.sigil ≠ .parent := by
  intro tag member
  rw [tagsOf_append, List.mem_append] at member
  rcases member with first | later
  · by_cases same : delimiters = .standard
    · simp [Delimiters.introduced, same] at first
    · simp only [Delimiters.introduced, same, if_false, tagsOf_tag, tagsOf_nil,
        List.mem_singleton] at first
      simp [first, Delimiters.written]
  · obtain ⟨piece, among, found⟩ := List.mem_filterMap.mp later
    cases legible piece among with
    | chunk => contradiction
    | tag _ _ rootless =>
        cases found
        exact rootless

/-- Compiling undoes writing. Sections come back with the text that their content is written as. -/
theorem compileText_written {delimiters : Delimiters} {tokens : Tokens} (plain : delimiters.Plain)
    (tidy : Tokens.Tidy tokens) (legible : Tokens.Legible delimiters tokens)
    (parent : String → Action Tokens) (template : Option String) (store : Store) :
    let text := String.ofList (delimiters.preamble ++ Tokens.written delimiters tokens)
    let result := delimiters.announced ++ Tokens.filled delimiters tokens
    compileText parent template text store =
      .ok result
        { store with reports := .compiled template result.length :: store.reports } := by
  intro text result
  have strokesLegible := Tokens.legible_strokes plain tokens legible
  have spaced : Spaced (Tokens.strokes delimiters tokens) := by
    have alone := @Tokens.spaced_strokes delimiters tokens tidy legible [] trivial
      (by simp [TagNext])
    simpa using alone
  obtain ⟨whole, pieces⟩ := Scan.pieces_preamble plain spaced strokesLegible
  rw [Tokens.sourceOf_strokes] at whole pieces
  have same : (Scan.ofText text.toList).pieces.map Stretch.unplaced =
      (delimiters.introduced ++ Tokens.strokes delimiters tokens).map Stretch.unplaced := by
    rw [← pieces, Stretch.unplaced_unplaced, String.toList_ofList]
  have yields : Yields (Scan.ofText text.toList).pieces result :=
    ((Delimiters.yields_introduced plain).append (Tokens.yields_strokes tokens legible)).of_unplaced
      same
  have rootless : ∀ tag ∈ (Scan.ofText text.toList).tags, tag.sigil ≠ .parent := by
    rw [← Scan.tagsOf_pieces]
    exact plain_of_unplaced same (plain_of_legible strokesLegible)
  have nested : Nest.empty.ofScan (Scan.ofText text.toList) = .ok result := by
    refine (Nest.ofScan_eq_ok_iff _ _).mpr ⟨?_, yields⟩
    rw [String.toList_ofList]
    exact whole
  rw [compileText_eq parent template store rootless, nested]

theorem compileText_written_brackets :
    let delimiters : Delimiters := ⟨['[', '['], [']', ']'], by decide, by decide⟩
    let tokens : Tokens := [.content "a ", .block "b" [.escaped "c", .pragma "p" ⟨[("k", "v")]⟩] "",
      .comment ""]
    (delimiters.Plain ∧ Tokens.Tidy tokens ∧ Tokens.Legible delimiters tokens) ∧
      ∃ after, compileAlone none
          "\x7b\x7b=[[ ]]=\x7d\x7da [[#b]][[c]][[%p k=v]][[/b]][[!]]" .fresh =
        .ok [.delimiters "[[" "]]", .content "a ",
          .block "b" [.escaped "c", .pragma "p" ⟨[("k", "v")]⟩] "[[c]][[%p k=v]]", .comment ""]
          after := by
  intro delimiters tokens
  have plain : delimiters.Plain := .inr (by decide)
  have tidy : Tokens.Tidy tokens := by
    simp [tokens, Tokens.Tidy, Token.Tidy, Token.kind]
  have isOption : delimiters.IsOption ("k", "v") :=
    ⟨⟨by decide, by decide⟩, by decide, by decide, by decide⟩
  have legible : Tokens.Legible delimiters tokens :=
    ⟨⟨by decide, 'a', by decide, by decide⟩,
      ⟨⟨by decide, by decide, by decide⟩, ⟨⟨by decide, by decide, by decide⟩, rfl⟩,
      ⟨⟨by decide, by decide⟩, by decide, by simpa using isOption, by decide⟩, trivial⟩,
      ⟨by decide, by decide⟩, trivial⟩
  have text : String.ofList (delimiters.preamble ++ Tokens.written delimiters tokens) =
      "\x7b\x7b=[[ ]]=\x7d\x7da [[#b]][[c]][[%p k=v]][[/b]][[!]]" := by decide
  have result : delimiters.announced ++ Tokens.filled delimiters tokens =
      [.delimiters "[[" "]]", .content "a ",
        .block "b" [.escaped "c", .pragma "p" ⟨[("k", "v")]⟩] "[[c]][[%p k=v]]", .comment ""] := rfl
  have done := compileText_written plain tidy legible
    (fun name => throw (.inheritanceUnmanaged name)) none .fresh
  rw [text, result] at done
  exact ⟨⟨plain, tidy, legible⟩, _, done⟩

end Logicless
