import Logicless.Engine.Compile
import Logicless.Pragma
import Logicless.Value.Lookup

namespace Logicless

/-!
Rendering tokens against a view.

Rendering goes from block to block: the content of a section, a placeholder, a partial or a text
that a callback has rendered is a block of its own, one level deeper than the block around it. Each
block first checks the depth limit. `renderTokens` renders the tokens of one block and leaves nested
blocks to the function that it is given; `renderWithin` closes that circle for a bounded number of
levels.

Pragmas that a block activates are active in it from there on, and in the blocks that it opens
later. They end with the block, except that a placeholder passes them on to the block around it; a
partial begins without any.

Escapers and pragmas may give anything in the place of a text. What is empty or null is left out; a
block with anything else that is no text has no text itself, which shows only at its end, when all
its tokens have been rendered.
-/

structure Home where
  pragmas : Registry
  library : Library
  escape : Escaper

/-- What stays the same throughout a call of the renderer. -/
structure Setting where
  home : Option Home
  escape : Escaper
  maxDepth : Option Int
  /-- Without a depth limit, blocks nested deeper than this count as nested without end. -/
  nestingLimit : Nat := 2000

abbrev ActivePragmas := Table Options

structure Scope where
  view : Value
  aliases : Table Tokens
  /-- In the order of activation. -/
  active : ActivePragmas
  depth : Nat

namespace Scope

def inLoop (scope : Scope) : Bool := scope.view.isScalar

def descend (scope : Scope) (view : Value) : Scope := { scope with view, depth := scope.depth + 1 }

def enterPartial (scope : Scope) : Scope := { scope.descend scope.view with active := .empty }

end Scope

/-- A rendered text, and the pragmas that are active behind it. -/
structure Rendered where
  text : String
  active : ActivePragmas

abbrev BlockRenderer := Scope → Tokens → Action Rendered

abbrev Piece := Value

/-- A view as it is by now. -/
def look (view : Value) : Action Value := do return (← get).memory.current view

def note (changes : List Change) : Action Unit :=
  modify fun store => { store with memory := store.memory.note changes }

def build (value : Value) : Action Value := do
  let store ← get
  let (built, memory) := store.memory.build value
  set { store with memory }
  return built

/-- Offers a token to pragmas, in order; the first result that counts as true is taken. -/
def offerTo (home : Home) (kind : Token.Kind) (payload : Payload) (view : Value) :
    List (String × Options) → Action (Option Piece)
  | [] => pure none
  | (name, options) :: rest =>
      match home.pragmas.get? name with
      | none => throw (.unknownPragma name)
      | some pragma =>
          if pragma.kinds.contains kind then do
            let now ← look view
            let offer : Offer := ⟨kind, payload, now, options, some home.escape⟩
            let piece ← (pragma.render offer).run home.library
            if piece.truthy then pure (some piece) else offerTo home kind payload view rest
          else offerTo home kind payload view rest

namespace Setting

def offer (setting : Setting) (active : ActivePragmas) (kind : Token.Kind) (payload : Payload)
    (view : Value) : Action (Option Piece) :=
  match setting.home with
  | none => pure none
  | some home => offerTo home kind payload view active.entries

end Setting

def find (view : Value) (name : String) : Action Value := do
  let now ← look view
  let found ← Action.ofView (now.lookup name)
  note found.changes
  if found.fresh then build found.value else return found.value

def takeItems (value : Value) : Action (List Value) := do
  let store ← get
  let (items, memory) ← Action.ofView (store.memory.take value)
  set { store with memory }
  return items

def isSilent : Value → Bool
  | .null | .bool false => true
  | _ => false

def renderEscaped (setting : Setting) (scope : Scope) (name : String) : Action Piece := do
  let value ← find scope.view name
  if value.isScalar then
    if isSilent value then return .null
    if let .text "" := value then return .null
    Action.ofView (setting.escape value)
  else
    let handled ← setting.offer scope.active .escaped (.text name) (.mapping [(.text name, value)])
    return handled.getD (.text value.printed)

def renderUnescaped (scope : Scope) (name : String) : Action String := do
  let value ← find scope.view name
  return if isSilent value then "" else value.decoded

def runReply (render : String → Action String) : Reply → Action Value
  | .gives value => pure value
  | .raises trouble => throw (.trouble trouble)
  | .renders text next => do
      let rendered ← render text
      runReply render (next rendered)

/-- Hands the text of a section to a callback, together with the means to render texts. -/
def renderCallback (setting : Setting) (block : BlockRenderer) (scope : Scope) (name : String)
    (template : String) (callback : Value) : Action String := do
  let renderText (text : String) : Action String :=
    match setting.home with
    | none => pure text
    | some home => do
        let tokens ← compile home.library none text
        let rendered ← block (scope.descend scope.view) tokens
        return rendered.text
  Action.report (.handedOver name)
  note (callback.changes (some template))
  let result ← runReply renderText (callback.invoke [.value (.text template), .renderer])
  return match result with
    | .null => ""
    | value => value.printed

def renderItems (block : BlockRenderer) (scope : Scope) (content : Tokens) :
    List Value → Action (List String)
  | [] => pure []
  | item :: rest => do
      let rendered ← block (scope.descend item) content
      let others ← renderItems block scope content rest
      return rendered.text :: others

def renderNested (block : BlockRenderer) (scope : Scope) (view : Value) (content : Tokens) :
    Action String := do
  let rendered ← block (scope.descend view) content
  return rendered.text

def renderBlock (setting : Setting) (block : BlockRenderer) (scope : Scope) (name : String)
    (content : Tokens) (template : String) : Action String := do
  if scope.inLoop then return ""
  let value ← find scope.view name
  if !value.truthy then return ""
  if let .bool true := value then return ← renderNested block scope scope.view content
  match ← Action.ofView value.kind with
  | .list => return String.join (← renderItems block scope content (← takeItems value))
  | .map | .object => renderNested block scope value content
  | .callable => renderCallback setting block scope name template value
  | .scalar | .sealed => renderNested block scope scope.view content

def renderInverted (block : BlockRenderer) (scope : Scope) (name : String) (content : Tokens) :
    Action String := do
  if scope.inLoop then return ""
  let value ← find scope.view name
  if value.truthy then return ""
  renderNested block scope scope.view content

def partialTokens (setting : Setting) (scope : Scope) (name : String) : Action Tokens :=
  match scope.aliases.get? name with
  | some tokens => do
      Action.report (.aliased name)
      return tokens
  | none =>
      match setting.home with
      | none => throw (.partialUnmanaged name)
      | some home => do
          Action.report (.included name)
          tokenize home.library true name

def renderPartial (block : BlockRenderer) (scope : Scope) (tokens : Action Tokens) :
    Action String := do
  if scope.inLoop then return ""
  let rendered ← block scope.enterPartial (← tokens)
  return rendered.text

def activate (setting : Setting) (scope : Scope) (name : String) (options : Options) :
    Action ActivePragmas := do
  let known :=
    match setting.home with
    | none => false
    | some home => home.pragmas.contains name
  if !known then throw (.unknownPragma name)
  Action.report (.activated name options)
  return scope.active.insert name options

structure Written where
  piece : Piece
  active : ActivePragmas

namespace Written

def ofRendered (rendered : Rendered) : Written := ⟨.text rendered.text, rendered.active⟩

end Written

def renderPlain (setting : Setting) (block : BlockRenderer) (scope : Scope) :
    Token → Action Written
  | .content text => pure ⟨.text text, scope.active⟩
  | .escaped name => do
      let piece ← renderEscaped setting scope name
      return ⟨piece, scope.active⟩
  | .unescaped name => keep (renderUnescaped scope name)
  | .block name content template => keep (renderBlock setting block scope name content template)
  | .inverted name content => keep (renderInverted block scope name content)
  | .placeholder _ content => do
      if scope.inLoop then return ⟨.null, scope.active⟩
      return .ofRendered (← block (scope.descend scope.view) content)
  | .partialNamed name => keep (renderPartial block scope (partialTokens setting scope name))
  | .partialKnown tokens => keep (renderPartial block scope (pure tokens))
  | .pragma name options => do
      let active ← activate setting scope name options
      return ⟨.null, active⟩
  | .delimiters .. | .comment _ => pure ⟨.null, scope.active⟩
where
  keep (text : Action String) : Action Written := do
    return ⟨.text (← text), scope.active⟩

def renderToken (setting : Setting) (block : BlockRenderer) (scope : Scope) (token : Token) :
    Action Written := do
  match ← setting.offer scope.active token.kind token.payload scope.view with
  | some piece => return ⟨piece, scope.active⟩
  | none => renderPlain setting block scope token

def renderPieces (setting : Setting) (block : BlockRenderer) :
    Scope → Tokens → Action (List Piece × ActivePragmas)
  | scope, [] => pure ([], scope.active)
  | scope, token :: rest => do
      let first ← renderToken setting block scope token
      let (others, active) ← renderPieces setting block { scope with active := first.active } rest
      return (first.piece :: others, active)

/-- The text of a piece; one that does not count as true has none. -/
def pieceText : Piece → String
  | .text text => text
  | _ => ""

def Value.isJoinable : Piece → Bool
  | .text _ => true
  | other => !other.truthy

def joinPieces (pieces : List Piece) : Except Trouble String :=
  if pieces.all Value.isJoinable then .ok (String.join (pieces.map pieceText)) else .error .misuse

def renderTokens (setting : Setting) (block : BlockRenderer) : BlockRenderer :=
  fun scope tokens => do
    let (pieces, active) ← renderPieces setting block scope tokens
    let text ← Action.ofView (joinPieces pieces)
    return ⟨text, active⟩

def Setting.exceeds (setting : Setting) (depth : Nat) : Option Int :=
  match setting.maxDepth with
  | some limit => if Int.ofNat depth > limit then some limit else none
  | none => none

/-- Renders a block, nested blocks being rendered to a bounded number of levels. -/
def renderWithin (setting : Setting) : Nat → BlockRenderer
  | 0, _, _ => throw .endless
  | fuel + 1, scope, tokens =>
      match setting.exceeds scope.depth with
      | some limit => throw (.tooDeep limit)
      | none => do
          Action.enter scope.depth
          renderTokens setting (renderWithin setting fuel) scope tokens

/-- How many levels a call of the renderer needs at most: with a depth limit, one more than it
allows. -/
def Setting.levels (setting : Setting) : Nat :=
  match setting.maxDepth with
  | some limit => (limit + 1).toNat + 1
  | none => setting.nestingLimit

def render (setting : Setting) (tokens : Tokens) (view : Value) (aliases : Table Tokens) :
    Action String := do
  let rendered ← renderWithin setting setting.levels ⟨view, aliases, .empty, 0⟩ tokens
  return rendered.text

/-- Renders tokens against a view that earlier calls may have rendered, too. -/
def renderAgain (setting : Setting) (tokens : Tokens) (view : Value) (aliases : Table Tokens) :
    Action String := do
  modify fun store => { store with memory := store.memory.again }
  render setting tokens view aliases

end Logicless
