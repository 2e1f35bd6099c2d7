import Logicless.Pragma.ImplicitIterator
import Logicless.Pragma.Probe
import Logicless.Proofs.Congruence
import Logicless.Proofs.Withholding

namespace Logicless

/-!
Rendering does not tell views apart that differ in members with private names only.

The renderer itself reads no such member (`Value.lookup_overt`), but it hands views and values on:
to pragmas the view, to the escaper the value of a variable, and to a pragma the escaper, too. Where
these are discreet (`Setting.Discreet`), so is rendering as a whole: `render_private` is about
everything that a call ends in. The escapers and pragmas that are defined here are discreet, and so
is whatever a view gives in the place of an escaper.

The walk over the renderer compares its run on a scope with that on `Scope.overt`. Texts, and with
them whole blocks, come out the same. What stands for a token before the texts are joined may be any
value and only looks the same (`LooksAlike`), which is enough: joining looks at texts and at truth.
-/

/-- An escaper that pays no heed to members with private names. -/
def Escaper.Discreet (escape : Escaper) : Prop :=
  ∀ value, (escape value.overt).map Value.overt = (escape value).map Value.overt

/-- A handling whose piece is without members that have private names. -/
def Handling.overt : Handling → Handling
  | .gives piece => .gives piece.overt
  | .raises trouble => .raises trouble
  | .tokenizes template keep next => .tokenizes template keep fun tokens => (next tokens).overt

theorem Handling.overt_ofView (result : Except Trouble Value) :
    (ofView result).overt = ofView (result.map Value.overt) := by
  cases result <;> rfl

/-- A pragma that pays no heed to members with private names, unless through the escaper that it is
given: it gives pieces that look the same, and asks for the tokens of the same templates. -/
def Pragma.Discreet (pragma : Pragma) : Prop :=
  ∀ offer, (∀ escape ∈ offer.escape, escape.Discreet) →
    (pragma.render { offer with view := offer.view.overt }).overt = (pragma.render offer).overt

def Registry.Discreet (registry : Registry) : Prop :=
  ∀ name pragma, registry.get? name = some pragma → pragma.Discreet

/-- A setting in which nothing that is not the renderer's own reads members with private names. The
escaper of the setting itself only ever gets scalars. -/
def Setting.Discreet (setting : Setting) : Prop :=
  ∀ home ∈ setting.home, home.escape.Discreet ∧ home.pragmas.Discreet

namespace Escaper

theorem discreet_of_eq {escape : Escaper} (same : ∀ value, escape value.overt = escape value) :
    escape.Discreet :=
  fun value => congrArg (Except.map Value.overt) (same value)

theorem discreet_html : html.Discreet :=
  discreet_of_eq fun value => by simp only [html, escapedHtml, Value.decodedChars_overt]

theorem discreet_none : none.Discreet :=
  discreet_of_eq fun value => by simp only [none, Value.decoded_overt]

theorem discreet_brackets : brackets.Discreet :=
  discreet_of_eq fun value => by simp only [brackets, Value.printed_overt]

theorem discreet_empty : empty.Discreet := discreet_of_eq fun _ => rfl

/-- Whatever is called as an escaper, since calling pays no heed either. -/
theorem discreet_calling (callee : Value) : (calling callee).Discreet := by
  intro value
  have called (shown : Value) : (callee.callReply [.value shown]).overt =
      callee.overt.callReply [.value shown.overt] :=
    (callee.callReply_overt [.value shown]).symm
  have same : (callee.callReply [.value value.overt]).overt =
      (callee.callReply [.value value]).overt := by
    rw [called, called, Value.overt_overt]
  simp only [calling]
  generalize callee.callReply [.value value.overt] = reply at same
  generalize callee.callReply [.value value] = other at same
  cases reply <;> cases other <;> simp only [Reply.overt, reduceCtorEq] at same
  · simpa [Except.map] using same
  · simpa [Except.map] using same
  · rfl

end Escaper

namespace ImplicitIterator

theorem current_overt (marker : String) (view : Value) :
    current marker view.overt = (current marker view).map (Option.map Value.overt) := by
  unfold current
  rw [Value.isScalar_overt, Value.plain_overt]
  split
  · rfl
  · cases view.plain with
    | mapping entries =>
        simp only [Value.overt, entriesOvert_eq_map, Value.findName_overt]
        cases Value.findKey (.text marker) entries with
        | none => rfl
        | some value =>
            simp only [Option.map_some, Value.kind_overt]
            cases value.kind with
            | error trouble => rfl
            | ok kind => cases kind <;> rfl
    | _ => rfl

theorem render_overt (offer : Offer) (discreet : ∀ escape ∈ offer.escape, escape.Discreet) :
    (render { offer with view := offer.view.overt }).map Value.overt =
      (render offer).map Value.overt := by
  have escapes : (offer.escape.getD Escaper.html).Discreet := by
    cases given : offer.escape with
    | none => exact Escaper.discreet_html
    | some escape => exact discreet escape given
  simp only [render]
  cases offer.payload with
  | token => rfl
  | text name =>
      simp only
      split
      · rw [current_overt]
        cases current (marker offer.options) offer.view with
        | error trouble => rfl
        | ok item =>
            cases item with
            | none => rfl
            | some value =>
                have escaped := escapes value
                cases value with
                | null => rfl
                | bool b => cases b <;> rfl
                | _ => exact escaped
      · rfl

theorem discreet_pragma : pragma.Discreet := by
  intro offer discreet
  simp only [pragma, Handling.overt_ofView]
  exact congrArg Handling.ofView (render_overt offer discreet)

end ImplicitIterator

namespace Probe

theorem discreet_pragma (probe : Probe) (name : String) (kinds : List Token.Kind) :
    (probe.pragma name kinds).Discreet := by
  intro offer _
  refine congrArg (fun result => (Handling.ofView result).overt) ?_
  cases probe with
  | echo | options | escape | empty | decline => rfl
  | view => exact congrArg (Except.map fun kind => Value.text kind.label) (Value.kind_overt _)
  | upper =>
      simp only [render, upperOf, Value.plain_overt]
      cases offer.payload with
      | token token => cases offer.view.plain <;> rfl
      | text name =>
          cases offer.view.plain with
          | mapping entries =>
              simp only [Value.overt, entriesOvert_eq_map, Value.findName_overt]
              cases Value.findKey (.text name) entries with
              | none => rfl
              | some value => simp
          | _ => rfl

end Probe

namespace Registry

theorem discreet_empty : Discreet .empty := nofun

theorem Discreet.register {registry : Registry} {pragma : Pragma} (discreet : registry.Discreet)
    (added : pragma.Discreet) : (registry.register pragma).1.Discreet := by
  intro name found known
  rcases Table.get?_insert_elim known with rfl | before
  · exact added
  · exact discreet name found before

theorem discreet_standard : standard.Discreet :=
  discreet_empty.register ImplicitIterator.discreet_pragma

end Registry

/-- Rendering with the pragma that there is from the start. -/
theorem Setting.discreet_standard {escape : Escaper} (discreet : escape.Discreet)
    (library : Library) (maxDepth : Option Int) :
    Setting.Discreet { home := some ⟨.standard, library, escape⟩, escape, maxDepth } := by
  intro home managed
  cases managed
  exact ⟨discreet, Registry.discreet_standard⟩

theorem look_overt (view : Value) : look view.overt = Value.overt <$> look view := by
  funext store
  exact congrArg (fun now => EStateM.Result.ok now store) (store.memory.current_overt view)

theorem find_overt (view : Value) (name : String) :
    find view.overt name = Value.overt <$> find view name := by
  simp only [find, look_overt, bind_map_left, map_bind, Value.lookup_overt]
  refine bind_congr fun now => ?_
  cases now.lookup name with
  | error trouble => rfl
  | ok found =>
      obtain ⟨value, fresh, changes⟩ := found
      cases fresh with
      | false => rfl
      | true =>
          funext store
          have built := value.builtBy_overt (store.memory.calls + 1)
          exact congrArg (fun value => EStateM.Result.ok value { store with memory :=
            { store.memory.note changes with calls := store.memory.calls + 1 } }) built

theorem takeItems_overt (value : Value) :
    takeItems value.overt = List.map Value.overt <$> takeItems value := by
  funext store
  have taken := store.memory.take_overt value
  cases items : store.memory.take value with
  | error trouble =>
      rw [items] at taken
      rw [map_of_error (takeItems_of_error items), takeItems_of_error taken]
  | ok result =>
      rw [items] at taken
      rw [map_of_ok (takeItems_of_ok items), takeItems_of_ok taken]
      rfl

@[simp] theorem isSilent_overt (value : Value) : isSilent value.overt = isSilent value := by
  cases value <;> rfl

@[simp] theorem pieceText_overt (piece : Piece) : pieceText piece.overt = pieceText piece := by
  cases piece <;> rfl

@[simp] theorem isJoinable_overt (piece : Piece) :
    Value.isJoinable piece.overt = Value.isJoinable piece := by
  have truth := piece.truthy_overt
  cases piece with
  | text => rfl
  | _ => exact congrArg not truth

theorem joinPieces_overt (pieces : List Piece) :
    joinPieces (pieces.map Value.overt) = joinPieces pieces := by
  simp [joinPieces, Function.comp_def]

def Written.overt (written : Written) : Written := { written with piece := written.piece.overt }

namespace Scope

/-- A scope whose view is without members that have private names. -/
def overt (scope : Scope) : Scope := { scope with view := scope.view.overt }

@[simp] theorem view_overt (scope : Scope) : scope.overt.view = scope.view.overt := rfl

@[simp] theorem inLoop_overt (scope : Scope) : scope.overt.inLoop = scope.inLoop :=
  scope.view.isScalar_overt

end Scope

theorem run_overt (library : Library) :
    (handling : Handling) → handling.overt.run library = Value.overt <$> handling.run library
  | .gives piece => rfl
  | .raises trouble => rfl
  | .tokenizes template keep next => by
      have continued := fun tokens => run_overt library (next tokens)
      simp only [Handling.overt, Handling.run, map_bind, continued]

theorem run_looksAlike {handling other : Handling} (same : handling.overt = other.overt)
    (library : Library) :
    LooksAlike Value.overt (handling.run library) (other.run library) := by
  unfold LooksAlike
  rw [← run_overt, same, run_overt]

theorem offerTo_overt {home : Home} (discreet : home.escape.Discreet)
    (pragmas : home.pragmas.Discreet)
    (kind : Token.Kind) (payload : Payload) (view : Value) (active : List (String × Options)) :
    LooksAlike (Option.map Value.overt) (offerTo home kind payload view.overt active)
      (offerTo home kind payload view active) := by
  induction active with
  | nil => rfl
  | cons entry rest ih =>
      obtain ⟨name, options⟩ := entry
      simp only [offerTo]
      cases known : home.pragmas.get? name with
      | none => rfl
      | some pragma =>
          simp only
          split
          · rw [look_overt, bind_map_left]
            refine LooksAlike.after (look view) fun now => ?_
            have offered := pragmas name pragma known
              ⟨kind, payload, now, options, some home.escape⟩ (by simpa using discreet)
            refine (run_looksAlike offered home.library).andThen fun piece given same => ?_
            have truth : piece.truthy = given.truthy := by
              rw [← piece.truthy_overt, same, given.truthy_overt]
            rw [truth]
            split
            · exact LooksAlike.pure (congrArg some same)
            · exact ih
          · exact ih

theorem Setting.offer_overt {setting : Setting} (discreet : setting.Discreet)
    (active : ActivePragmas) (kind : Token.Kind) (payload : Payload) (view : Value) :
    LooksAlike (Option.map Value.overt) (setting.offer active kind payload view.overt)
      (setting.offer active kind payload view) := by
  unfold offer
  cases managed : setting.home with
  | none => rfl
  | some home =>
      obtain ⟨escape, pragmas⟩ := discreet home managed
      exact offerTo_overt escape pragmas kind payload view active.entries

theorem runReply_overt (render : String → Action String) :
    (reply : Reply) → runReply render reply.overt = Value.overt <$> runReply render reply
  | .gives value => rfl
  | .raises trouble => rfl
  | .renders text next => by
      have continued := fun rendered => runReply_overt render (next rendered)
      simp only [Reply.overt, runReply, map_bind, continued]

theorem renderUnescaped_overt (scope : Scope) (name : String) :
    renderUnescaped scope.overt name = renderUnescaped scope name := by
  simp only [renderUnescaped, Scope.overt, find_overt, bind_map_left, isSilent_overt,
    Value.decoded_overt]

section

variable {setting : Setting} {block : BlockRenderer}
  (blind : ∀ scope tokens, block scope.overt tokens = block scope tokens)

include blind

theorem renderNested_overt (scope : Scope) (view : Value) (content : Tokens) :
    renderNested block scope.overt view.overt content =
      renderNested block scope view content :=
  congrArg (fun rendered : Action Rendered => do return (← rendered).text)
    (blind (scope.descend view) content)

theorem renderItems_overt (scope : Scope) (content : Tokens) (items : List Value) :
    renderItems block scope.overt content (items.map Value.overt) =
      renderItems block scope content items := by
  induction items with
  | nil => rfl
  | cons item rest ih =>
      have first : block (scope.overt.descend item.overt) content =
          block (scope.descend item) content := blind (scope.descend item) content
      simp only [List.map_cons, renderItems, first, ih]

theorem renderCallback_overt (scope : Scope) (name template : String) (callback : Value) :
    renderCallback setting block scope.overt name template callback.overt =
      renderCallback setting block scope name template callback := by
  have called : callback.overt.invoke [.value (.text template), .renderer] =
      (callback.invoke [.value (.text template), .renderer]).overt :=
    callback.invoke_overt [.value (.text template), .renderer]
  have inner (tokens : Tokens) : block (scope.overt.descend scope.overt.view) tokens =
      block (scope.descend scope.view) tokens := blind (scope.descend scope.view) tokens
  simp only [renderCallback, called, inner, runReply_overt, bind_map_left, Value.changes_overt]
  refine bind_congr fun _ => bind_congr fun _ => bind_congr fun result => congrArg pure ?_
  cases result with
  | null => rfl
  | _ => exact Value.printed_overt _

theorem renderBlock_overt (scope : Scope) (name : String) (content : Tokens) (template : String) :
    renderBlock setting block scope.overt name content template =
      renderBlock setting block scope name content template := by
  simp only [renderBlock, Scope.inLoop_overt, Scope.view_overt, find_overt, bind_map_left,
    Value.truthy_overt, Value.kind_overt, renderNested_overt blind, renderCallback_overt blind,
    takeItems_overt, renderItems_overt blind]
  split
  · rfl
  · refine bind_congr fun value => ?_
    split
    · rfl
    · cases value with
      | bool b => cases b <;> rfl
      | _ => rfl

theorem renderInverted_overt (scope : Scope) (name : String) (content : Tokens) :
    renderInverted block scope.overt name content = renderInverted block scope name content := by
  simp only [renderInverted, Scope.inLoop_overt, Scope.view_overt, find_overt, bind_map_left,
    Value.truthy_overt, renderNested_overt blind]

theorem renderPartial_overt (scope : Scope) (tokens : Action Tokens) :
    renderPartial block scope.overt tokens = renderPartial block scope tokens := by
  have same (tokens : Tokens) : block scope.overt.enterPartial tokens =
      block scope.enterPartial tokens := blind scope.enterPartial tokens
  simp only [renderPartial, Scope.inLoop_overt, same]

variable (discreet : setting.Discreet)

include discreet

omit blind in
theorem renderEscaped_overt (scope : Scope) (name : String) :
    LooksAlike Value.overt (renderEscaped setting scope.overt name)
      (renderEscaped setting scope name) := by
  simp only [renderEscaped, Scope.overt, find_overt, bind_map_left]
  refine LooksAlike.after (find scope.view name) fun value => ?_
  rw [Value.isScalar_overt]
  split
  · rename_i scalar
    rw [Value.overt_of_isScalar scalar]
    rfl
  · have offered := Setting.offer_overt discreet scope.active .escaped (.text name)
      (.mapping [(.text name, value)])
    refine offered.andThen fun piece given same => LooksAlike.pure ?_
    rw [Value.printed_overt, ← Option.getD_map Value.overt, ← Option.getD_map Value.overt, same]

theorem renderPlain_overt (scope : Scope) (token : Token) :
    LooksAlike Written.overt (renderPlain setting block scope.overt token)
      (renderPlain setting block scope token) := by
  have keeps {text shown : Action String} (same : text = shown) :
      LooksAlike Written.overt (renderPlain.keep scope.overt text)
        (renderPlain.keep scope shown) := by
    subst same
    rfl
  cases token with
  | escaped name =>
      refine (renderEscaped_overt discreet scope name).andThen fun piece given same => ?_
      exact LooksAlike.pure (congrArg (Written.mk · scope.active) same)
  | unescaped name => exact keeps (renderUnescaped_overt scope name)
  | block name content template => exact keeps (renderBlock_overt blind scope name content template)
  | inverted name content => exact keeps (renderInverted_overt blind scope name content)
  | placeholder name content =>
      have inner : block (scope.overt.descend scope.overt.view) content =
          block (scope.descend scope.view) content := blind (scope.descend scope.view) content
      simp only [renderPlain, Scope.inLoop_overt, inner]
      rfl
  | partialNamed name => exact keeps (renderPartial_overt blind scope _)
  | partialKnown tokens => exact keeps (renderPartial_overt blind scope _)
  | content | pragma | delimiters | comment => rfl

theorem renderToken_overt (scope : Scope) (token : Token) :
    LooksAlike Written.overt (renderToken setting block scope.overt token)
      (renderToken setting block scope token) := by
  refine (Setting.offer_overt discreet scope.active token.kind token.payload scope.view).andThen ?_
  intro offered given same
  cases offered with
  | none =>
      cases given with
      | none => exact renderPlain_overt blind discreet scope token
      | some piece => cases same
  | some piece =>
      cases given with
      | none => cases same
      | some given =>
          exact LooksAlike.pure (congrArg (Written.mk · scope.active) (Option.some.inj same))

theorem renderPieces_overt (scope : Scope) (tokens : Tokens) :
    LooksAlike (Prod.map (List.map Value.overt) id) (renderPieces setting block scope.overt tokens)
      (renderPieces setting block scope tokens) := by
  induction tokens generalizing scope with
  | nil => rfl
  | cons token rest ih =>
      refine (renderToken_overt blind discreet scope token).andThen fun first given same => ?_
      obtain ⟨piece, active⟩ := Written.mk.inj same
      rw [active]
      refine (ih { scope with active := given.active }).andThen fun others shown alike => ?_
      obtain ⟨pieces, last⟩ := Prod.ext_iff.mp alike
      refine LooksAlike.pure (Prod.ext ?_ last)
      exact List.cons_eq_cons.mpr ⟨piece, pieces⟩

theorem renderTokens_overt (scope : Scope) (tokens : Tokens) :
    renderTokens setting block scope.overt tokens = renderTokens setting block scope tokens := by
  refine (renderPieces_overt blind discreet scope tokens).bind_eq fun result given same => ?_
  obtain ⟨pieces, active⟩ := Prod.mk.inj same
  have joined : joinPieces result.1 = joinPieces given.1 := by
    rw [← joinPieces_overt, pieces, joinPieces_overt]
  have active : result.2 = given.2 := active
  simp only [joined, active]

end

/-- Whatever blocks are nested in it, a block looks the same without members that have private
names. -/
theorem renderWithin_overt {setting : Setting} (discreet : setting.Discreet) (fuel : Nat)
    (scope : Scope) (tokens : Tokens) :
    renderWithin setting fuel scope.overt tokens = renderWithin setting fuel scope tokens := by
  induction fuel generalizing scope tokens with
  | zero => rfl
  | succ fuel ih =>
      have same : setting.exceeds scope.overt.depth = setting.exceeds scope.depth := rfl
      cases allowed : setting.exceeds scope.depth with
      | some limit =>
          rw [renderWithin_refused allowed, renderWithin_refused (same.trans allowed)]
      | none =>
          rw [renderWithin_entered allowed, renderWithin_entered (same.trans allowed)]
          exact bind_congr fun _ => renderTokens_overt ih discreet scope tokens

theorem render_overt {setting : Setting} (discreet : setting.Discreet) (tokens : Tokens)
    (view : Value) (aliases : Table Tokens) :
    render setting tokens view.overt aliases = render setting tokens view aliases := by
  have same := renderWithin_overt discreet setting.levels ⟨view, aliases, .empty, 0⟩ tokens
  exact congrArg (fun rendered : Action Rendered => do return (← rendered).text) same

end Logicless
