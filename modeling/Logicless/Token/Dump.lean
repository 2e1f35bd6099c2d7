import Logicless.Json
import Logicless.Token

namespace Logicless

mutual

def Token.fields : Token → List (String × Json)
  | .content text | .comment text => [("text", .text text)]
  | .escaped name | .unescaped name => [("name", .text name)]
  | .block name content template =>
      [("name", .text name), ("content", .array (Tokens.dumpAll content)),
        ("template", .text template)]
  | .inverted name content | .placeholder name content =>
      [("name", .text name), ("content", .array (Tokens.dumpAll content))]
  | .partialNamed name => [("name", .text name), ("tokens", .null)]
  | .partialKnown tokens => [("name", .null), ("tokens", .array (Tokens.dumpAll tokens))]
  | .pragma name options =>
      [("name", .text name),
        ("options", .object (options.entries.map fun entry => (entry.1, .text entry.2)))]
  | .delimiters opening closing => [("open", .text opening), ("close", .text closing)]

def Tokens.dumpAll : List Token → List Json
  | [] => []
  | token :: rest =>
      .object (("kind", .text token.kind.label) :: token.fields) :: Tokens.dumpAll rest

end

def Token.dump (token : Token) : Json := .object (("kind", .text token.kind.label) :: token.fields)

def Tokens.dump (tokens : Tokens) : Json := .array (Tokens.dumpAll tokens)

end Logicless
