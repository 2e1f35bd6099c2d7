import Logicless.Engine.Event
import Logicless.Engine.Fault

namespace Logicless

/-!
What is known under the names of templates.

A `Source` answers a name. Its answer may be text, compiled tokens, or anything else that somebody
gave under that name; `Answer.absent` says that nobody knows the name.
-/

inductive Answer where
  | absent
  | text (text : String)
  | tokens (tokens : Tokens)
  | value (value : Value)

namespace Answer

def isEmpty : Answer → Bool
  | .absent => true
  | .text words => words.isEmpty
  | .tokens compiled => compiled.isEmpty
  | .value other => !other.truthy

def isAbsent : Answer → Bool
  | .absent => true
  | _ => false

def ofValue : Value → Answer
  | .null => .absent
  | .text words => .text words
  | other => .value other

end Answer

structure Retrieval where
  reports : List Event
  answer : Except Fault Answer

namespace Retrieval

def found (answer : Answer) : Retrieval := ⟨[], .ok answer⟩

def absent : Retrieval := found .absent

def after (reports : List Event) (retrieval : Retrieval) : Retrieval :=
  { retrieval with reports := reports ++ retrieval.reports }

def orElse (first : Retrieval) (second : Retrieval) : Retrieval :=
  match first.answer with
  | .ok .absent => second.after first.reports
  | _ => first

/-- The answer where one is needed; an empty one is none. -/
def needed (retrieval : Retrieval) (name : String) : Except Fault Answer :=
  match retrieval.answer with
  | .ok answer => if answer.isEmpty then .error (.templateNotFound name) else .ok answer
  | .error fault => .error fault

end Retrieval

abbrev Source := String → Retrieval

structure Library where
  source : Source
  /-- A line of templates that inherit from one another counts as endless from this length on, the
  length of the text it begins with not being counted. -/
  chainLimit : Nat := 1000

end Logicless
