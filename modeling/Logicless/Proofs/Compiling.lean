import Logicless.Engine.Compile
import Logicless.Proofs.Nesting

namespace Logicless

namespace Nest

/-- Only a tag that asks for a parent opens a block that inherits. -/
theorem Traced.shapes {pieces : List Stretch} {nest : Nest} (traced : Traced pieces nest)
    (plain : ∀ tag ∈ tagsOf pieces, tag.sigil ≠ .parent) :
    ∀ block ∈ nest.blocks, block.shape ≠ .parent := by
  induction traced with
  | outside => simp
  | @inside before inner block outer tokens _ opens _ _ ih =>
      intro other member
      rcases List.mem_cons.mp member with same | further
      · subst same
        intro inherits
        have notParent := plain other.opening (by simp)
        rw [inherits] at opens
        cases sort : other.opening.sigil <;> simp [sort, Sigil.shape?] at opens notParent
      · exact ih (fun tag within => plain tag (by simp [within])) other further

theorem parent?_eq_none {nest : Nest} (shapes : ∀ block ∈ nest.blocks, block.shape ≠ .parent)
    (tag : Tag) : nest.parent? tag = none := by
  unfold parent?
  split
  · rename_i block outer _ blocks
    have shape := shapes block (by simp [blocks])
    simp [shape]
  · rfl

theorem ofScan_eq_ok_iff (scan : Scan) (tokens : Tokens) :
    Nest.empty.ofScan scan = .ok tokens ↔ scan.flaw? = none ∧ Yields scan.pieces tokens := by
  rw [ofScan_eq]
  constructor
  · intro done
    cases fed : Nest.empty.feed scan.pieces with
    | error flaw => simp [fed] at done
    | ok next =>
        have traced := traced_empty.feed fed
        cases stopped : scan.flaw? with
        | some flaw => simp [fed, stopped] at done
        | none =>
            simp only [fed, stopped, finish] at done
            split at done
            · rename_i closed
              cases done
              exact ⟨rfl, traced.yields closed⟩
            · contradiction
  · rintro ⟨whole, yields⟩
    obtain ⟨next, fed, closed, outside⟩ := feed_yields yields .empty
    have tokensOut : next.outside.reverse = tokens := by
      rw [outside, empty, List.append_nil, List.reverse_reverse]
    simp only [fed, whole, finish, closed, tokensOut]

end Nest

/-- What nesting a scan gives, as the end of a computation that leaves the state alone. -/
def compiled (template : Option String) (store : Store) :
    Except Flaw Tokens → EStateM.Result Fault Store Tokens
  | .ok tokens => .ok tokens store
  | .error flaw => .error (.malformed flaw template) store

theorem compileScan_eq {pieces : List Stretch} {nest : Nest} {scan : Scan}
    (parent : String → Action Tokens) (template : Option String) (store : Store)
    (traced : Nest.Traced pieces nest) (before : ∀ tag ∈ tagsOf pieces, tag.sigil ≠ .parent)
    (plain : ∀ tag ∈ scan.tags, tag.sigil ≠ .parent) :
    compileScan parent template nest scan store = compiled template store (nest.ofScan scan) := by
  induction scan generalizing pieces nest with
  | finished chunk =>
      simp only [compileScan, Nest.ofScan]
      cases (nest.addChunk chunk).finish <;> rfl
  | broken chunk flaw => rfl
  | tagged chunk tag rest ih =>
      have here := traced.addChunk chunk
      have beforeHere : ∀ tag ∈ tagsOf (pieces ++ Stretch.ofChunk chunk), tag.sigil ≠ .parent := by
        simpa using before
      have alone := Nest.parent?_eq_none (here.shapes beforeHere) tag
      simp only [compileScan, alone, Nest.ofScan]
      cases added : (nest.addChunk chunk).addTag [] tag with
      | error flaw => simp [EStateM.bind, bind, pure, EStateM.pure, added]; rfl
      | ok next =>
          have later := ih (here.addTag added)
            (by
              intro other member
              rw [tagsOf_append, List.mem_append] at member
              rcases member with earlier | last
              · exact beforeHere other earlier
              · exact plain other (by simp_all [Scan.tags]))
            (fun other member => plain other (by simp [Scan.tags, member]))
          simp [EStateM.bind, bind, pure, EStateM.pure, added]
          exact later

/-- The state after compiling text: one report more, if it compiles. -/
theorem compileText_eq {text : String} (parent : String → Action Tokens)
    (template : Option String) (store : Store)
    (plain : ∀ tag ∈ (Scan.ofText text.toList).tags, tag.sigil ≠ .parent) :
    compileText parent template text store =
      match Nest.empty.ofScan (Scan.ofText text.toList) with
      | .ok tokens =>
          .ok tokens { store with reports := .compiled template tokens.length :: store.reports }
      | .error flaw => .error (.malformed flaw template) store := by
  have scanned := compileScan_eq parent template store Nest.traced_empty (by simp) plain
  simp only [compileText, bind, EStateM.bind, scanned]
  cases Nest.empty.ofScan (Scan.ofText text.toList) <;> rfl

theorem compileText_eq_ok_iff {text : String} {tokens : Tokens} (parent : String → Action Tokens)
    (template : Option String) (store : Store)
    (plain : ∀ tag ∈ (Scan.ofText text.toList).tags, tag.sigil ≠ .parent) :
    (∃ after, compileText parent template text store = .ok tokens after) ↔
      (Scan.ofText text.toList).flaw? = none ∧ Yields (Scan.ofText text.toList).pieces tokens := by
  rw [← Nest.ofScan_eq_ok_iff, compileText_eq parent template store plain]
  cases Nest.empty.ofScan (Scan.ofText text.toList) with
  | ok found =>
      constructor
      · rintro ⟨after, same⟩
        cases same
        rfl
      · intro same
        cases same
        exact ⟨_, rfl⟩
  | error flaw => simp

end Logicless
