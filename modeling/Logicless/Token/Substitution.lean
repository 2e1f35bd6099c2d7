import Logicless.Token

namespace Logicless

abbrev Overrides := Table Tokens

mutual

def Token.substitute (overrides : Overrides) : Token → Token
  | .placeholder name content =>
      match overrides.get? name with
      | some replacement => .placeholder name replacement
      | none => .placeholder name (Tokens.substitute overrides content)
  | .block name content template => .block name (Tokens.substitute overrides content) template
  | .inverted name content => .inverted name (Tokens.substitute overrides content)
  | .partialKnown tokens => .partialKnown (Tokens.substitute overrides tokens)
  | .content text => .content text
  | .escaped name => .escaped name
  | .unescaped name => .unescaped name
  | .partialNamed name => .partialNamed name
  | .pragma name options => .pragma name options
  | .delimiters opening closing => .delimiters opening closing
  | .comment text => .comment text

def Tokens.substitute (overrides : Overrides) : List Token → List Token
  | [] => []
  | token :: rest => Token.substitute overrides token :: Tokens.substitute overrides rest

end

/-- The placeholders at the top of a token list as overrides; the last one of a name counts. -/
def Tokens.overrides (tokens : Tokens) : Overrides :=
  Table.ofList <| tokens.filterMap fun token =>
    match token with
    | .placeholder name content => some (name, content)
    | _ => none

mutual

theorem Token.substitute_empty : (token : Token) → Token.substitute Table.empty token = token
  | .placeholder name content => by simp [Token.substitute, Tokens.substitute_empty content]
  | .block name content template => by simp [Token.substitute, Tokens.substitute_empty content]
  | .inverted name content => by simp [Token.substitute, Tokens.substitute_empty content]
  | .partialKnown tokens => by simp [Token.substitute, Tokens.substitute_empty tokens]
  | .content _ | .escaped _ | .unescaped _ | .partialNamed _ | .pragma .. | .delimiters ..
  | .comment _ => by simp [Token.substitute]

theorem Tokens.substitute_empty : (tokens : List Token) →
    Tokens.substitute Table.empty tokens = tokens
  | [] => rfl
  | token :: rest => by
      simp [Tokens.substitute, Token.substitute_empty token, Tokens.substitute_empty rest]

end

end Logicless
