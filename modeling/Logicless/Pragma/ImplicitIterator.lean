import Logicless.Pragma
import Logicless.Value.Kind

namespace Logicless

namespace ImplicitIterator

def name : String := "IMPLICIT-ITERATOR"

def marker (options : Options) : String :=
  match options.get? "iterator" with
  | some marker => if marker.isEmpty then "." else marker
  | none => "."

def current (marker : String) (view : Value) : Except Trouble (Option Value) :=
  if view.isScalar then .ok (some view)
  else
    match view.plain with
    | .mapping entries =>
        match Value.findKey (.text marker) entries with
        | none => .ok none
        | some value =>
            match value.kind with
            | .error trouble => .error trouble
            | .ok .object | .ok .map => .ok none
            | .ok _ => .ok (some value)
    | _ => .ok none

def render (offer : Offer) : Except Trouble Value :=
  let marker := marker offer.options
  match offer.payload with
  | .token _ => .ok .null
  | .text name =>
      if name = marker then
        match current marker offer.view with
        | .error trouble => .error trouble
        | .ok none | .ok (some .null) | .ok (some (.bool false)) => .ok .null
        | .ok (some value) => (offer.escape.getD Escaper.html) value
      else .ok .null

def pragma : Pragma := ⟨name, [.escaped], fun offer => .ofView (render offer)⟩

end ImplicitIterator

def Registry.standard : Registry := (Registry.register .empty ImplicitIterator.pragma).1

end Logicless
