import Logicless.Engine.Action
import Logicless.Engine.Source
import Logicless.Template.Nest

namespace Logicless

/-!
Compiling template text, and finding the tokens of templates by name.

Text that holds the standard opening delimiter is compiled as it stands; any other text is a name,
whose tokens come from the cache or from a source. Compiling an inheriting template asks for the
tokens of its parent, which is found by name in turn; `tokenizeWithin` bounds the length of such a
chain.
-/

/-- Nests a scan. `parent` gives the tokens of a template that another inherits from. -/
def compileScan (parent : String → Action Tokens) (template : Option String) :
    Nest → Scan → Action Tokens
  | nest, .finished chunk =>
      match (nest.addChunk chunk).finish with
      | .ok tokens => pure tokens
      | .error flaw => throw (.malformed flaw template)
  | _, .broken _ flaw => throw (.malformed flaw template)
  | nest, .tagged chunk tag rest => do
      let reached := nest.addChunk chunk
      let tokens ←
        match reached.parent? tag with
        | some name => parent name
        | none => pure []
      match reached.addTag tokens tag with
      | .ok next => compileScan parent template next rest
      | .error flaw => throw (.malformed flaw template)

def compileText (parent : String → Action Tokens) (template : Option String) (text : String) :
    Action Tokens := do
  let tokens ← compileScan parent template .empty (.ofText text.toList)
  Action.report (.compiled template tokens.length)
  return tokens

def compileAlone (template : Option String) (text : String) : Action Tokens :=
  compileText (fun name => throw (.inheritanceUnmanaged name)) template text

/-- The tokens that a source knows a template by. `parent` gives the tokens of a template that
another inherits from. -/
def fetch (source : Source) (parent : String → Action Tokens) (template : String) :
    Action Tokens := do
  let retrieval := source template
  Action.reportAll retrieval.reports
  match retrieval.needed template with
  | .ok (.text text) => compileText parent (some template) text
  | .ok (.tokens tokens) => pure tokens
  | .ok _ => throw (.templateUnusable template)
  | .error fault => throw fault

/-- Whether text is to be compiled as it stands rather than looked up. -/
def isTemplateText (text : String) : Bool :=
  Text.occursIn Delimiters.standard.opening text.toList

/-- The tokens of a template given as text or by name. Tokens found by name are looked up in the
cache and kept there if `keep` holds. -/
def tokenizeWithin (source : Source) : Nat → Bool → String → Action Tokens
  | 0, _, _ => throw .endless
  | fuel + 1, keep, template => do
      let parent := tokenizeWithin source fuel true
      if isTemplateText template then compileText parent none template
      else
        let known ← if keep then Action.cached? template else pure none
        match known with
        | some tokens =>
            Action.report (.cacheHit template)
            return tokens
        | none =>
            Action.report (.cacheMiss template)
            let tokens ← fetch source parent template
            if keep then Action.remember (.text template) tokens
            return tokens

/-- A parent may be given as a text that is compiled as it stands. Such a text is shorter than the one
that asks for it, so a line of them is no longer than the text it begins with. -/
def tokenize (library : Library) (keep : Bool) (template : String) : Action Tokens :=
  tokenizeWithin library.source (library.chainLimit + template.length) keep template

def compile (library : Library) (template : Option String) (text : String) : Action Tokens :=
  compileText (tokenize library true) template text

end Logicless
