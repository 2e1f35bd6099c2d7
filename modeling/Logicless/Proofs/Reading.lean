import Logicless.Proofs.Occurrence
import Logicless.Template.Scan

namespace Logicless

/-- The sort of the tag whose text begins here. -/
def Sigil.ofText : List Char → Sigil
  | [] => .escaped
  | c :: _ => .ofChar c

/-- What a tag says, out of what is written between its delimiters. -/
def Sigil.bodyOf (sigil : Sigil) (written : List Char) : List Char :=
  Text.strip (if sigil = .escaped then written else written.drop 1)

/-- The text behind an opening delimiter begins with a closed tag. `written` stands before the end
marker; a character that opens a marked tag is not itself part of a marker. -/
structure Closes (delimiters : Delimiters) (inner : List Char) (sigil : Sigil)
    (written rest : List Char) : Prop where
  sort : sigil = .ofText inner
  whole : inner = written ++ (sigil.ending ++ delimiters.closing) ++ rest
  opened : sigil.ending.length ≤ written.length
  first : ∀ n, sigil.ending.length ≤ n → n < written.length →
    ¬ (sigil.ending ++ delimiters.closing) <+: inner.drop n

/-- The body of a delimiter tag names two delimiters, none of them with an equals sign. -/
def Delimiters.Named (body : List Char) (next : Delimiters) : Prop :=
  Text.words body = [next.opening, next.closing] ∧ '=' ∉ next.opening ∧ '=' ∉ next.closing

namespace Delimiters

/-- A tag behind an opening delimiter that can be read. `next` holds the delimiters behind it. -/
structure Accepts (delimiters : Delimiters) (inner : List Char) (sigil : Sigil)
    (body literal : List Char) (next : Delimiters) : Prop where
  closed : ∃ written rest, Closes delimiters inner sigil written rest ∧
    body = sigil.bodyOf written ∧
    literal = delimiters.opening ++ written ++ (sigil.ending ++ delimiters.closing)
  solid : body ≠ [] ∨ sigil = .comment
  switched : sigil = .delimiters → Named body next
  kept : sigil ≠ .delimiters → next = delimiters

/-- A tag behind an opening delimiter that cannot be read, and why. -/
inductive Rejects (delimiters : Delimiters) (inner : List Char) : FlawCause → Prop where
  | unclosed (never : ∀ sigil written rest, ¬ Closes delimiters inner sigil written rest) :
      Rejects delimiters inner (.unclosedTag (String.ofList delimiters.opening))
  | empty {sigil : Sigil} {written rest : List Char}
      (closed : Closes delimiters inner sigil written rest) (hollow : sigil.bodyOf written = [])
      (notComment : sigil ≠ .comment) : Rejects delimiters inner .emptyTag
  | invalid {written rest : List Char}
      (closed : Closes delimiters inner .delimiters written rest)
      (solid : Sigil.delimiters.bodyOf written ≠ [])
      (unnamed : ∀ next, ¬ Named (Sigil.delimiters.bodyOf written) next) :
      Rejects delimiters inner
        (.badDelimiters (String.ofList (Sigil.delimiters.bodyOf written)))

end Delimiters

theorem Sigil.length_take_ending (inner : List Char) :
    (inner.take (Sigil.ofText inner).ending.length).length =
      (Sigil.ofText inner).ending.length := by
  cases inner with
  | nil => rfl
  | cons c rest => cases Sigil.ofText (c :: rest) <;> rfl

theorem Sigil.skipped_eq (sigil : Sigil) (inner : List Char) :
    (if sigil.ending.isEmpty then [] else inner.take 1) = inner.take sigil.ending.length := by
  cases sigil <;> rfl

theorem closes_iff (delimiters : Delimiters) (inner : List Char) (sigil : Sigil)
    (written rest : List Char) :
    Closes delimiters inner sigil written rest ↔ sigil = .ofText inner ∧
      ∃ before, written = inner.take sigil.ending.length ++ before ∧
        Text.breakOn (sigil.ending ++ delimiters.closing) (inner.drop sigil.ending.length) =
          some (before, rest) := by
  constructor
  · rintro ⟨sort, whole, opened, first⟩
    have start : inner.take sigil.ending.length = written.take sigil.ending.length := by
      rw [whole, List.append_assoc, List.take_append_of_le_length opened]
    refine ⟨sort, written.drop sigil.ending.length, ?_, ?_⟩
    · rw [start, List.take_append_drop]
    · refine (Text.breakOn_eq_some_iff ..).mpr ⟨?_, ?_⟩
      · conv => lhs; rw [whole, List.append_assoc, List.drop_append_of_le_length opened]
        simp only [List.append_assoc]
      · intro n small
        rw [List.drop_drop]
        rw [List.length_drop] at small
        exact first (sigil.ending.length + n) (by omega) (by omega)
  · rintro ⟨sort, before, split, cut⟩
    obtain ⟨whole, first⟩ := (Text.breakOn_eq_some_iff ..).mp cut
    have skip : (inner.take sigil.ending.length).length = sigil.ending.length := by
      rw [sort]
      exact Sigil.length_take_ending inner
    have width : written.length = sigil.ending.length + before.length := by
      rw [split, List.length_append, skip]
    refine ⟨sort, ?_, by omega, ?_⟩
    · rw [split, List.append_assoc, List.append_assoc, ← List.append_assoc before, ← whole,
        List.take_append_drop]
    · intro n large small
      have nowhere := first (n - sigil.ending.length) (by omega)
      rw [List.drop_drop] at nowhere
      rwa [show sigil.ending.length + (n - sigil.ending.length) = n by omega] at nowhere

namespace RawTag

variable {delimiters : Delimiters} {inner : List Char}

theorem read_eq_readAs : read delimiters inner = readAs delimiters (.ofText inner) inner := by
  cases inner with
  | nil =>
      simp [read, readAs, Sigil.ofText, Sigil.ending, Text.breakOn, delimiters.closing_ne_nil]
  | cons c rest => rfl

theorem read_eq_some_iff (raw : RawTag) :
    read delimiters inner = some raw ↔ ∃ written,
      Closes delimiters inner raw.sigil written raw.rest ∧ raw.body = raw.sigil.bodyOf written ∧
        raw.literal = delimiters.opening ++ written ++ (raw.sigil.ending ++ delimiters.closing) := by
  rw [read_eq_readAs, readAs, Sigil.skipped_eq, Sigil.length_take_ending]
  constructor
  · intro found
    split at found
    · contradiction
    · rename_i before rest cut
      cases found
      exact ⟨_, (closes_iff ..).mpr ⟨rfl, before, rfl, cut⟩, rfl, rfl⟩
  · rintro ⟨written, closes, body, literal⟩
    obtain ⟨sort, before, split, cut⟩ := (closes_iff ..).mp closes
    obtain ⟨sigil, rawBody, rawLiteral, rest⟩ := raw
    simp only at sort body literal cut split
    subst sort body literal split
    simp only [cut, Sigil.bodyOf]

theorem read_eq_none_iff : read delimiters inner = none ↔
    ∀ sigil written rest, ¬ Closes delimiters inner sigil written rest := by
  constructor
  · intro missing sigil written rest closes
    let raw : RawTag := ⟨sigil, sigil.bodyOf written,
      delimiters.opening ++ written ++ (sigil.ending ++ delimiters.closing), rest⟩
    have found := (read_eq_some_iff raw).mpr ⟨written, closes, rfl, rfl⟩
    rw [missing] at found
    contradiction
  · intro never
    cases found : read delimiters inner with
    | none => rfl
    | some raw =>
        obtain ⟨written, closes, _⟩ := (read_eq_some_iff raw).mp found
        exact absurd closes (never raw.sigil written raw.rest)

theorem read_of_append {more rest : List Char} {raw : RawTag}
    (found : read delimiters (inner ++ more) = some { raw with rest := rest ++ more }) :
    read delimiters inner = some { raw with rest } := by
  obtain ⟨written, ⟨sort, whole, opened, first⟩, body, literal⟩ := (read_eq_some_iff _).mp found
  refine (read_eq_some_iff _).mpr ⟨written, ⟨?_, ?_, opened, ?_⟩, body, literal⟩
  · simp only at sort
    cases inner with
    | nil =>
        have size := congrArg List.length whole
        have positive := List.length_pos_iff.mpr delimiters.closing_ne_nil
        simp only [List.nil_append, List.length_append] at size
        omega
    | cons c others => exact sort
  · rw [← List.append_assoc] at whole
    exact List.append_cancel_right whole
  · intro n large small starts
    have short : n ≤ inner.length := by
      rw [← List.append_assoc] at whole
      have size := congrArg List.length (List.append_cancel_right whole)
      simp only [List.length_append] at size
      omega
    apply first n large small
    rw [List.drop_append_of_le_length short]
    exact starts.trans (List.prefix_append ..)

end RawTag

namespace Scan

theorem delimitersOf_eq_some_iff (body : List Char) (next : Delimiters) :
    delimitersOf body = some next ↔ Delimiters.Named body next := by
  rw [delimitersOf, Delimiters.Named]
  split
  · rename_i opening closing cut
    split
    · rename_i equals
      simp only [reduceCtorEq, false_iff]
      rintro ⟨same, plainOpening, plainClosing⟩
      rw [cut] at same
      simp only [List.cons.injEq, and_true] at same
      rw [same.1, same.2] at equals
      simp [plainOpening, plainClosing] at equals
    · rename_i plain
      simp only [Bool.or_eq_true, List.contains_iff_mem, not_or] at plain
      constructor
      · intro same
        cases same
        exact ⟨cut, plain⟩
      · rintro ⟨same, _⟩
        rw [cut] at same
        simp only [List.cons.injEq, and_true] at same
        cases next
        simp only at same
        simp [same.1, same.2]
  · rename_i other
    simp only [reduceCtorEq, false_iff]
    rintro ⟨cut, _⟩
    exact other _ _ cut

theorem delimitersAfter_eq_ok_iff (delimiters : Delimiters) (raw : RawTag) (next : Delimiters) :
    delimitersAfter delimiters raw = .ok next ↔ (raw.body ≠ [] ∨ raw.sigil = .comment) ∧
      (raw.sigil = .delimiters → Delimiters.Named raw.body next) ∧
      (raw.sigil ≠ .delimiters → next = delimiters) := by
  simp only [← delimitersOf_eq_some_iff, delimitersAfter]
  by_cases hollow : raw.body = []
  · by_cases comment : raw.sigil = .comment
    · simp [hollow, comment, @eq_comm _ next]
    · simp [hollow, comment]
  · by_cases switch : raw.sigil = .delimiters
    · cases delimitersOf raw.body <;> simp [hollow, switch]
    · simp [hollow, switch, @eq_comm _ next]

/-- The tag that a scan goes on behind is one that can be read. -/
theorem read_accepts {delimiters next : Delimiters} {inner : List Char} {raw : RawTag}
    (found : RawTag.read delimiters inner = some raw)
    (changed : delimitersAfter delimiters raw = .ok next) :
    delimiters.Accepts inner raw.sigil raw.body raw.literal next := by
  obtain ⟨written, closes, body, literal⟩ := (RawTag.read_eq_some_iff raw).mp found
  obtain ⟨solid, switched, kept⟩ := (delimitersAfter_eq_ok_iff delimiters raw next).mp changed
  exact ⟨⟨written, raw.rest, closes, body, literal⟩, solid, switched, kept⟩

theorem read_rejects {delimiters : Delimiters} {inner : List Char} {raw : RawTag}
    {cause : FlawCause} (found : RawTag.read delimiters inner = some raw)
    (flawed : delimitersAfter delimiters raw = .error cause) :
    delimiters.Rejects inner cause := by
  obtain ⟨written, closes, body, _⟩ := (RawTag.read_eq_some_iff raw).mp found
  simp only [delimitersAfter, Bool.and_eq_true, List.isEmpty_iff, bne_iff_ne] at flawed
  split at flawed
  · rename_i hollow
    cases flawed
    exact .empty closes (body ▸ hollow.1) hollow.2
  · rename_i solid
    split at flawed
    · rename_i switch
      rw [switch] at closes body solid
      split at flawed
      · contradiction
      · rename_i missing
        cases flawed
        rw [body] at missing solid ⊢
        refine .invalid closes (by simpa using solid) ?_
        intro next named
        rw [(delimitersOf_eq_some_iff _ next).mpr named] at missing
        contradiction
    · contradiction

/-- A scan finds a tag that can be read, behind text without a tag. -/
structure Reads (delimiters : Delimiters) (text chunk : List Char) (raw : RawTag)
    (next : Delimiters) : Prop where
  found : ∃ inner, Text.breakOn delimiters.opening text = some (chunk, inner) ∧
    RawTag.read delimiters inner = some raw
  changed : delimitersAfter delimiters raw = .ok next

theorem Reads.ofTextFrom_eq {delimiters next : Delimiters} {text chunk : List Char} {raw : RawTag}
    (reads : Reads delimiters text chunk raw next) (fresh : Bool) (position : Position) :
    ofTextFrom delimiters fresh position text =
      let settled := settle fresh chunk raw (position.past chunk)
      .tagged settled.before settled.tag
        (ofTextFrom next settled.fresh ((position.past settled.before).past settled.tag.source)
          settled.after) := by
  obtain ⟨⟨inner, cut, found⟩, changed⟩ := reads
  rw [ofTextFrom]
  split
  · simp_all
  · rename_i found'
    rw [cut] at found'
    cases found'
    split
    · simp_all
    · rename_i raw' read
      rw [found] at read
      cases read
      simp only [changed]

theorem ofTextFrom_eq_finished {delimiters : Delimiters} {text : List Char}
    (none : Text.breakOn delimiters.opening text = none) (fresh : Bool) (position : Position) :
    ofTextFrom delimiters fresh position text = .finished text := by
  rw [ofTextFrom]
  split
  · rfl
  · simp_all

theorem exists_reads {delimiters : Delimiters} {fresh : Bool} {position : Position}
    {text before : List Char} {tag : Tag} {rest : Scan}
    (scanned : ofTextFrom delimiters fresh position text = .tagged before tag rest) :
    ∃ chunk raw next, Reads delimiters text chunk raw next ∧
      before = (settle fresh chunk raw (position.past chunk)).before ∧
      tag = (settle fresh chunk raw (position.past chunk)).tag ∧
      ofTextFrom next (settle fresh chunk raw (position.past chunk)).fresh
        ((position.past before).past tag.source)
        (settle fresh chunk raw (position.past chunk)).after = rest := by
  rw [ofTextFrom] at scanned
  split at scanned
  · contradiction
  · rename_i chunk inner cut
    split at scanned
    · contradiction
    · rename_i raw found
      split at scanned
      · contradiction
      · rename_i next changed
        cases scanned
        exact ⟨chunk, raw, next, ⟨⟨inner, cut, found⟩, changed⟩, rfl, rfl, rfl⟩

theorem Reads.whole {delimiters next : Delimiters} {text chunk : List Char} {raw : RawTag}
    (reads : Reads delimiters text chunk raw next) : text = chunk ++ raw.literal ++ raw.rest := by
  obtain ⟨⟨inner, cut, found⟩, _⟩ := reads
  rw [Text.breakOn_eq_some cut, List.append_assoc, List.append_assoc, RawTag.literal_read found]

theorem Reads.accepts {delimiters next : Delimiters} {text chunk : List Char} {raw : RawTag}
    (reads : Reads delimiters text chunk raw next) :
    ∃ inner, delimiters.Accepts inner raw.sigil raw.body raw.literal next := by
  obtain ⟨⟨inner, _, found⟩, changed⟩ := reads
  exact ⟨inner, read_accepts found changed⟩

/-- A tag is found in the text up to any place behind it. -/
theorem Reads.of_append {delimiters next : Delimiters} {text more chunk rest : List Char}
    {raw : RawTag} (reads : Reads delimiters (text ++ more) chunk { raw with rest := rest ++ more }
      next) : Reads delimiters text chunk { raw with rest } next := by
  obtain ⟨⟨inner, cut, found⟩, changed⟩ := reads
  obtain ⟨written, _, closes, _, literal⟩ := (read_accepts found changed).closed
  have inside : inner = written ++ (raw.sigil.ending ++ delimiters.closing) ++ rest ++ more := by
    have whole := RawTag.literal_read found
    simp only at literal
    simp only [literal, List.append_assoc] at whole
    simpa only [List.append_assoc] using (List.append_cancel_left whole).symm
  rw [inside] at cut found
  exact ⟨⟨_, Text.breakOn_of_append cut, RawTag.read_of_append found⟩, changed⟩

end Scan

end Logicless
