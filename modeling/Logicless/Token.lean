import Logicless.Table

namespace Logicless

abbrev Options := Table String

inductive Token where
  | content (text : String)
  | escaped (name : String)
  | unescaped (name : String)
  | block (name : String) (content : List Token) (template : String)
  /-- A section that is rendered only where its name stands for nothing. -/
  | inverted (name : String) (content : List Token)
  | placeholder (name : String) (content : List Token)
  | partialNamed (name : String)
  | partialKnown (tokens : List Token)
  | pragma (name : String) (options : Options)
  | delimiters (opening closing : String)
  | comment (text : String)

abbrev Tokens := List Token

namespace Token

inductive Kind where
  | content
  | escaped
  | unescaped
  | block
  | inverted
  | placeholder
  | partials
  | pragma
  | delimiters
  | comment
  deriving Repr, DecidableEq

def Kind.label : Kind → String
  | .content => "content"
  | .escaped => "variable"
  | .unescaped => "variable_raw"
  | .block => "section"
  | .inverted => "inverted_section"
  | .placeholder => "placeholder"
  | .partials => "partial"
  | .pragma => "pragma"
  | .delimiters => "delimiter_set"
  | .comment => "comment"

def Kind.all : List Kind :=
  [.content, .escaped, .unescaped, .block, .inverted, .placeholder, .partials, .pragma, .delimiters,
    .comment]

def Kind.ofLabel? (label : String) : Option Kind :=
  Kind.all.find? fun kind => kind.label == label

def kind : Token → Kind
  | .content _ => .content
  | .escaped _ => .escaped
  | .unescaped _ => .unescaped
  | .block .. => .block
  | .inverted .. => .inverted
  | .placeholder .. => .placeholder
  | .partialNamed _ | .partialKnown _ => .partials
  | .pragma .. => .pragma
  | .delimiters .. => .delimiters
  | .comment _ => .comment

def name? : Token → Option String
  | .escaped name | .unescaped name | .block name .. | .inverted name _ | .placeholder name _
  | .partialNamed name | .pragma name _ => some name
  | .content _ | .partialKnown _ | .delimiters .. | .comment _ => none

end Token

end Logicless
