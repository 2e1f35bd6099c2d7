import Logicless.Pragma
import Logicless.Text.Uppercase
import Logicless.Value.Kind

namespace Logicless

inductive Probe where
  | echo
  | upper
  | options
  | escape
  | view
  | empty
  | decline

namespace Probe

/-- The text of a token: its text or name, or a dash if it has neither. -/
def shownPayload : Payload → String
  | .text text => text
  | .token token =>
      match token.name? with
      | some name => if name.isEmpty then "-" else name
      | none => "-"

/-- Whether a token has options in it. Options can change, so that such a token is no key. -/
def hasOptions : Token → Bool
  | .pragma .. => true
  | .block _ content _ | .inverted _ content | .placeholder _ content | .partialKnown content =>
      anyOptions content
  | .content _ | .escaped _ | .unescaped _ | .partialNamed _ | .delimiters .. | .comment _ => false
where
  anyOptions : List Token → Bool
    | [] => false
    | token :: rest => hasOptions token || anyOptions rest

def upperOf (payload : Payload) (view : Value) : Except Trouble Value :=
  match payload, view.plain with
  | .text name, .mapping entries =>
      match Value.findKey (.text name) entries with
      | some value => .ok (.text (String.ofList (Text.upper value.printedChars)))
      | none => .ok (.text "")
  | .token token, .mapping _ => if hasOptions token then .error .misuse else .ok (.text "")
  | _, _ => .ok .null

def render (probe : Probe) (name : String) (offer : Offer) : Except Trouble Value :=
  match probe with
  | .echo =>
      .ok (.text
        ("<" ++ name ++ " " ++ offer.kind.label ++ " " ++ shownPayload offer.payload ++ ">"))
  | .upper => upperOf offer.payload offer.view
  | .options =>
      .ok (.text
        (";".intercalate (offer.options.entries.map fun entry => entry.1 ++ "=" ++ entry.2)))
  | .escape =>
      match offer.escape with
      | some escaper => escaper (.text (shownPayload offer.payload))
      | none => .ok .null
  | .view => offer.view.kind.map fun kind => .text kind.label
  | .empty => .ok (.text "")
  | .decline => .ok .null

def pragma (probe : Probe) (name : String) (kinds : List Token.Kind) : Pragma :=
  ⟨name, kinds, fun offer => .ofView (probe.render name offer)⟩

end Probe

end Logicless
