import Logicless.Yaml.Cursor

namespace Logicless.Yaml

def folded (first : Char) (more : List Char) : List Char :=
  if first != '\n' then first :: more else if more.isEmpty then [' '] else more

/-- What stands between the text so far and the next character that is no blank. -/
inductive Between where
  /-- Blanks on the same line, last first. -/
  | blanks (codes : List Nat)
  /-- A line end, and further ones, last first. -/
  | lines (first : Char) (more : List Char)
  /-- The line ends behind an escaped one, last first. -/
  | escaped (more : List Char)
  deriving Repr, DecidableEq

structure Folding where
  /-- Last first. -/
  codes : List Nat
  between : Between
  deriving Repr, DecidableEq

namespace Folding

def start : Folding := ⟨[], .blanks []⟩

/-- The text up to here, with what stands behind it, last first. -/
def flush (folding : Folding) : List Nat :=
  match folding.between with
  | .blanks codes => codes ++ folding.codes
  | .lines first more => ((folded first more.reverse).map Char.toNat).reverse ++ folding.codes
  | .escaped more => more.map Char.toNat ++ folding.codes

def solid (folding : Folding) (code : Nat) : Folding := ⟨code :: folding.flush, .blanks []⟩

/-- Adds a space or a tab; at the start of a line it is dropped. -/
def blank (folding : Folding) (code : Nat) : Folding :=
  match folding.between with
  | .blanks codes => { folding with between := .blanks (code :: codes) }
  | _ => folding

def lineEnd (folding : Folding) (c : Char) : Folding :=
  match folding.between with
  | .blanks _ => { folding with between := .lines c [] }
  | .lines first more => { folding with between := .lines first (c :: more) }
  | .escaped more => { folding with between := .escaped (c :: more) }

def escapedLineEnd (folding : Folding) : Folding := ⟨folding.flush, .escaped []⟩

def charsOf : List Nat → List Char
  | [] => []
  | [code] => [Char.ofNat code]
  | high :: low :: rest =>
      if 0xD800 ≤ high && high ≤ 0xDBFF && 0xDC00 ≤ low && low ≤ 0xDFFF then
        Char.ofNat (0x10000 + (high - 0xD800) * 0x400 + (low - 0xDC00)) :: charsOf rest
      else Char.ofNat high :: charsOf (low :: rest)

def text (folding : Folding) : List Char := charsOf folding.flush.reverse

end Folding

end Logicless.Yaml
