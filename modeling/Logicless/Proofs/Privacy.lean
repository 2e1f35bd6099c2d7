import Logicless.Value.Kind
import Logicless.Value.Print


namespace Logicless

mutual

/-- A value without the members of objects that have private names, wherever the objects are: in
collections, in the keys of mappings, in what functions and callbacks give. What an object does by
itself, its text, its items, its size, its truth, its being called and its answering for members
that it does not have, is no member and stays as it is. -/
def Value.overt : Value → Value
  | .list items => .list (allOvert items)
  | .tuple items => .tuple (allOvert items)
  | .set items => .set (allOvert items)
  | .mapping entries => .mapping (entriesOvert entries)
  | .ordered entries => .ordered (entriesOvert entries)
  | .portion part items => .portion part (allOvert items)
  | .iterator id items => .iterator id (allOvert items)
  | .object data => .object data.overt
  | .function bound function => .function bound function.overt
  | .knot label body => .knot label body.overt
  | .cell id content => .cell id content.overt
  | value => value
termination_by structural value => value

def allOvert : List Value → List Value
  | [] => []
  | value :: rest => value.overt :: allOvert rest
termination_by structural values => values

def entriesOvert : List (Value × Value) → List (Value × Value)
  | [] => []
  | (key, value) :: rest => (key.overt, value.overt) :: entriesOvert rest
termination_by structural entries => entries

def ObjectData.overt : ObjectData → ObjectData
  | .mk shown members items size truth call fallback =>
      .mk shown (membersOvert members) (optionOvert items) size truth (calleeOvert call)
        (calleeOvert fallback)
termination_by structural data => data

def membersOvert : List (String × Member) → List (String × Member)
  | [] => []
  | (name, member) :: rest =>
      if isPrivateName name then membersOvert rest else (name, member.overt) :: membersOvert rest
termination_by structural members => members

def optionOvert : Option (List Value) → Option (List Value)
  | none => none
  | some values => some (allOvert values)
termination_by structural values => values

def calleeOvert : Option Function → Option Function
  | none => none
  | some function => some function.overt
termination_by structural function => function

def Member.overt : Member → Member
  | .attribute value => .attribute value.overt
  | .property function => .property function.overt
termination_by structural member => member

def Function.overt : Function → Function
  | .mk arity body => .mk arity body.overt
termination_by structural function => function

def Body.overt : Body → Body
  | .gives value => .gives value.overt
  | .answers callback => .answers fun text => (callback text).overt
  | .forwards text => .forwards text
  | .raises trouble => .raises trouble
termination_by structural body => body

def Reply.overt : Reply → Reply
  | .gives value => .gives value.overt
  | .raises trouble => .raises trouble
  | .renders text next => .renders text fun rendered => (next rendered).overt
termination_by structural reply => reply

end

mutual

theorem Value.overt_overt : (value : Value) → value.overt.overt = value.overt
  | .list items => congrArg Value.list (allOvert_allOvert items)
  | .tuple items => congrArg Value.tuple (allOvert_allOvert items)
  | .set items => congrArg Value.set (allOvert_allOvert items)
  | .mapping entries => congrArg Value.mapping (entriesOvert_entriesOvert entries)
  | .ordered entries => congrArg Value.ordered (entriesOvert_entriesOvert entries)
  | .portion part items => congrArg (Value.portion part) (allOvert_allOvert items)
  | .iterator id items => congrArg (Value.iterator id) (allOvert_allOvert items)
  | .object data => congrArg Value.object (ObjectData.overt_overt data)
  | .function bound function => congrArg (Value.function bound) (Function.overt_overt function)
  | .knot label body => congrArg (Value.knot label) (Value.overt_overt body)
  | .cell id content => congrArg (Value.cell id) (Value.overt_overt content)
  | .null | .bool _ | .int _ | .float _ | .text _ | .bytes _ | .range .. | .builtin _ | .type _
  | .calendar _ | .again _ => rfl

theorem allOvert_allOvert : (values : List Value) → allOvert (allOvert values) = allOvert values
  | [] => rfl
  | value :: rest => by
      simp only [allOvert, Value.overt_overt value, allOvert_allOvert rest]

theorem entriesOvert_entriesOvert : (entries : List (Value × Value)) →
    entriesOvert (entriesOvert entries) = entriesOvert entries
  | [] => rfl
  | (key, value) :: rest => by
      simp only [entriesOvert, Value.overt_overt key, Value.overt_overt value,
        entriesOvert_entriesOvert rest]

theorem ObjectData.overt_overt : (data : ObjectData) → data.overt.overt = data.overt
  | .mk shown members items size truth call fallback => by
      simp only [ObjectData.overt, membersOvert_membersOvert members, optionOvert_optionOvert items,
        calleeOvert_calleeOvert call, calleeOvert_calleeOvert fallback]

theorem membersOvert_membersOvert : (members : List (String × Member)) →
    membersOvert (membersOvert members) = membersOvert members
  | [] => rfl
  | (name, member) :: rest => by
      simp only [membersOvert]
      split
      · exact membersOvert_membersOvert rest
      · rename_i reachable
        simp only [membersOvert, if_neg reachable, Member.overt_overt member,
          membersOvert_membersOvert rest]

theorem optionOvert_optionOvert : (values : Option (List Value)) →
    optionOvert (optionOvert values) = optionOvert values
  | none => rfl
  | some values => congrArg some (allOvert_allOvert values)

theorem calleeOvert_calleeOvert : (call : Option Function) →
    calleeOvert (calleeOvert call) = calleeOvert call
  | none => rfl
  | some function => congrArg some (Function.overt_overt function)

theorem Member.overt_overt : (member : Member) → member.overt.overt = member.overt
  | .attribute value => congrArg Member.attribute (Value.overt_overt value)
  | .property function => congrArg Member.property (Function.overt_overt function)

theorem Function.overt_overt : (function : Function) → function.overt.overt = function.overt
  | .mk arity body => congrArg (Function.mk arity) (Body.overt_overt body)

theorem Body.overt_overt : (body : Body) → body.overt.overt = body.overt
  | .gives value => congrArg Body.gives (Value.overt_overt value)
  | .answers callback =>
      congrArg Body.answers (funext fun text => Reply.overt_overt (callback text))
  | .forwards _ | .raises _ => rfl

theorem Reply.overt_overt (reply : Reply) : reply.overt.overt = reply.overt := by
  cases reply with
  | gives value => exact congrArg Reply.gives (Value.overt_overt value)
  | raises trouble => rfl
  | renders text next =>
      exact congrArg (Reply.renders text) (funext fun rendered => Reply.overt_overt (next rendered))

end

variable {value : Value} {name : String} {data : ObjectData}

@[simp] theorem allOvert_eq_map (items : List Value) : allOvert items = items.map Value.overt := by
  induction items with
  | nil => rfl
  | cons item rest ih => rw [allOvert, ih, List.map_cons]

@[simp] theorem entriesOvert_eq_map (entries : List (Value × Value)) :
    entriesOvert entries = entries.map (Prod.map Value.overt Value.overt) := by
  induction entries with
  | nil => rfl
  | cons entry rest ih => rw [entriesOvert, ih, List.map_cons, Prod.map]

@[simp] theorem optionOvert_eq_map (items : Option (List Value)) :
    optionOvert items = items.map (List.map Value.overt) := by
  cases items <;> simp [optionOvert]

@[simp] theorem calleeOvert_eq_map (call : Option Function) :
    calleeOvert call = call.map Function.overt := by
  cases call <;> rfl

theorem findMember_overt (reachable : isPrivateName name = false)
    (members : List (String × Member)) :
    findMember name (membersOvert members) = (findMember name members).map Member.overt := by
  induction members with
  | nil => rfl
  | cons entry rest ih =>
      obtain ⟨other, member⟩ := entry
      by_cases same : other = name
      · subst same
        simp [membersOvert, findMember, reachable]
      · simp only [membersOvert, findMember, if_neg same]
        split
        · exact ih
        · rw [findMember, if_neg same, ih]

namespace ObjectData

@[simp] theorem members_overt : data.overt.members = membersOvert data.members := by
  cases data; rfl

@[simp] theorem items_overt : data.overt.items = data.items.map (List.map Value.overt) := by
  cases data; simp [overt, items]

@[simp] theorem size_overt : data.overt.size = data.size := by
  cases data; rfl

@[simp] theorem truth_overt : data.overt.truth = data.truth := by
  cases data; rfl

@[simp] theorem call_overt : data.overt.call = data.call.map Function.overt := by
  cases data; simp [overt, call]

@[simp] theorem fallback_overt : data.overt.fallback = data.fallback.map Function.overt := by
  cases data; simp [overt, fallback]

end ObjectData

namespace Function

@[simp] theorem arity_overt (function : Function) : function.overt.arity = function.arity := by
  cases function; rfl

theorem answer_overt (function : Function) :
    function.overt.answer = function.answer.map Value.overt := by
  cases function with
  | mk arity body =>
      cases body <;> simp only [Function.overt, Body.overt, answer] <;> split <;> rfl

theorem about_overt (name : String) (function : Function) :
    function.overt.about name = (function.about name).map Value.overt := by
  cases function with
  | mk arity body =>
      simp only [Function.overt, about]
      split
      · cases body with
        | gives | raises | forwards => rfl
        | answers callback =>
            simp only [Body.overt]
            cases callback name <;> rfl
      · rfl

end Function

theorem ObjectData.missing_overt (name : String) (data : ObjectData) :
    data.overt.missing name =
      (data.missing name).map (Option.map (Prod.map Value.overt id)) := by
  simp only [missing, fallback_overt]
  cases data.fallback with
  | none => rfl
  | some function =>
      simp only [Option.map_some, Function.about_overt]
      cases function.about name with
      | ok value => rfl
      | error trouble => cases trouble <;> rfl

/-- What a member with a name that is not private gives. -/
theorem ObjectData.member_overt (reachable : isPrivateName name = false) (data : ObjectData) :
    data.overt.member name =
      (data.member name).map (Option.map (Prod.map Value.overt id)) := by
  simp only [member, members_overt, findMember_overt reachable]
  cases findMember name data.members with
  | none => exact data.missing_overt name
  | some member =>
      cases member with
      | «attribute» value => rfl
      | property function =>
          simp only [Option.map_some, Member.overt, Function.answer_overt]
          cases function.answer with
          | ok value => rfl
          | error trouble =>
              cases trouble with
              | missingMember => exact data.missing_overt name
              | _ => rfl

namespace Value

@[simp] theorem isScalar_overt (value : Value) : value.overt.isScalar = value.isScalar := by
  cases value <;> rfl

@[simp] theorem isType_overt (value : Value) : value.overt.isType = value.isType := by
  cases value <;> rfl

@[simp] theorem isCallable_overt (value : Value) : value.overt.isCallable = value.isCallable := by
  cases value <;> simp [overt, isCallable]

theorem overt_of_isScalar (scalar : value.isScalar = true) : value.overt = value := by
  cases value <;> first | rfl | simp [isScalar] at scalar

theorem truthy_overt : (value : Value) → value.overt.truthy = value.truthy
  | .knot label body => truthy_overt body
  | .cell id content => truthy_overt content
  | .list _ | .tuple _ | .set _ | .mapping _ | .ordered _ | .portion .. | .object _ => by
      simp [overt, truthy]
  | .null | .bool _ | .int _ | .float _ | .text _ | .bytes _ | .range .. | .iterator ..
  | .function .. | .builtin _ | .type _ | .calendar _ | .again _ => rfl

mutual

theorem tie_overt (label : Nat) (whole : Value) :
    (value : Value) →
    (tie label whole value).overt = tie label whole.overt value.overt
  | .again other => by
      simp only [tie, overt]
      split <;> simp [overt]
  | .knot other body => by
      simp only [tie, overt]
      split
      · rfl
      · simp only [overt, tie_overt label whole body]
  | .cell id content => by simp only [tie, overt, tie_overt label whole content]
  | .list items | .tuple items => by simp only [tie, overt, tieAll_overt label whole items]
  | .mapping entries | .ordered entries => by
      simp only [tie, overt, tieEntries_overt label whole entries]
  | .null | .bool _ | .int _ | .float _ | .text _ | .bytes _ | .set _ | .range .. | .portion ..
  | .iterator .. | .object _ | .function .. | .builtin _ | .type _ | .calendar _ => by
      simp only [tie, overt]

theorem tieAll_overt (label : Nat) (whole : Value) : (values : List Value) →
    allOvert (tieAll label whole values) = tieAll label whole.overt (allOvert values)
  | [] => rfl
  | value :: rest => by
      simp only [tieAll, allOvert, tie_overt label whole value, tieAll_overt label whole rest]

theorem tieEntries_overt (label : Nat) (whole : Value) : (entries : List (Value × Value)) →
    entriesOvert (tieEntries label whole entries) =
      tieEntries label whole.overt (entriesOvert entries)
  | [] => rfl
  | (key, value) :: rest => by
      simp only [tieEntries, entriesOvert, tie_overt label whole value,
        tieEntries_overt label whole rest]

end

theorem opened_overt (value : Value) : value.overt.opened = value.opened.overt := by
  cases value with
  | knot label body => simp only [overt, opened, tie_overt]
  | _ => rfl

theorem plain_overt (value : Value) : value.overt.plain = value.plain.overt := by
  simp only [plain, opened_overt]
  cases value.opened <;> rfl

mutual

theorem isHashable_overt : (value : Value) → value.overt.isHashable = value.isHashable
  | .tuple items => allHashable_overt items
  | .portion part _ => by cases part <;> rfl
  | .null | .bool _ | .int _ | .float _ | .text _ | .bytes _ | .list _ | .set _ | .mapping _
  | .ordered _ | .range .. | .iterator .. | .object _ | .function .. | .builtin _ | .type _
  | .calendar _ | .knot .. | .again _ | .cell .. => rfl

theorem allHashable_overt :
    (values : List Value) → allHashable (allOvert values) = allHashable values
  | [] => rfl
  | value :: rest => by
      simp only [allOvert, allHashable, isHashable_overt value, allHashable_overt rest]

end

mutual

theorem sameKey_overt : (value other : Value) →
    sameKey value.overt other.overt = sameKey value other
  | .tuple items, other => by
      cases other with
      | tuple others => exact sameKeys_overt items others
      | _ => rfl
  | .null, other | .bool _, other | .int _, other | .float _, other | .text _, other
  | .bytes _, other | .list _, other | .set _, other | .mapping _, other | .ordered _, other
  | .range .., other | .portion .., other | .iterator .., other | .object _, other
  | .function .., other | .builtin _, other | .type _, other | .calendar _, other
  | .knot .., other | .again _, other | .cell .., other => by cases other <;> rfl

theorem sameKeys_overt : (values others : List Value) →
    sameKeys (allOvert values) (allOvert others) = sameKeys values others
  | [], [] | [], _ :: _ | _ :: _, [] => rfl
  | value :: rest, other :: others => by
      simp only [allOvert, sameKeys, sameKey_overt value other, sameKeys_overt rest others]

end

theorem findKey_overt {α β : Type} (given : α → β) (key : Value) (entries : List (Value × α)) :
    findKey key.overt (entries.map (Prod.map overt given)) = (findKey key entries).map given := by
  induction entries with
  | nil => rfl
  | cons entry rest ih =>
      simp only [List.map_cons, Prod.map, findKey, sameKey_overt]
      split
      · rfl
      · exact ih

theorem findName_overt (name : String) (entries : List (Value × Value)) :
    findKey (.text name) (entries.map (Prod.map overt overt)) =
      (findKey (.text name) entries).map overt :=
  findKey_overt overt (.text name) entries

theorem findIndex_overt (index : Nat) (entries : List (Value × Value)) :
    findKey (.int (Int.ofNat index)) (entries.map (Prod.map overt overt)) =
      (findKey (.int (Int.ofNat index)) entries).map overt :=
  findKey_overt overt (.int (Int.ofNat index)) entries

theorem isIndexed_overt (entries : List (Value × Value)) :
    isIndexed (entries.map (Prod.map overt overt)) = isIndexed entries := by
  have whole (index : Int) (value : Value) : sameKey value.overt (.int index) =
      sameKey value (.int index) := sameKey_overt value (.int index)
  simp only [isIndexed, List.isEmpty_map, List.length_map, List.all_map, List.any_map,
    Function.comp_def, Prod.map, whole]
  congr 3
  funext entry
  cases entry.1 <;> rfl

@[simp] theorem methodNames_overt (value : Value) :
    value.overt.methodNames = value.methodNames := by
  simp only [methodNames, opened_overt]
  cases value.opened with
  | portion part => cases part <;> rfl
  | _ => rfl

@[simp] theorem hasCalendarMethod_overt (value : Value) (name : String) :
    value.overt.hasCalendarMethod name = value.hasCalendarMethod name := by
  cases value <;> rfl

/-- A pair of a value and a name. -/
def named? : Value → Option (Value × String)
  | .tuple [target, .text name] => some (target, name)
  | _ => none

theorem named?_overt (value : Value) :
    value.overt.named? = value.named?.map (Prod.map overt id) := by
  cases value with
  | tuple items =>
      match items with
      | [] | [_] => rfl
      | [_, second] | _ :: second :: _ :: _ => cases second <;> rfl
  | _ => rfl

/-- Whether a value has a method of a name. -/
def hasMethod (target : Value) (name : String) : Except Trouble Bool :=
  if isPrivateName name || target.isScalar || target.isType then .ok false
  else if target.methodNames.contains name || target.hasCalendarMethod name then .ok true
  else
    match target with
    | .object data =>
        match data.member name with
        | .ok (some (member, _)) => .ok member.isCallable
        | .ok none => .ok false
        | .error trouble => .error trouble
    | _ => .ok false

theorem eq_of_named {target : Value} {name : String} (named : value.named? = some (target, name)) :
    value = .tuple [target, .text name] := by
  unfold named? at named
  split at named
  · simpa using named
  · cases named

theorem isMethodPair_of_named {target : Value} {name : String}
    (named : value.opened.named? = some (target, name)) :
    value.isMethodPair = target.hasMethod name := by
  simp only [isMethodPair, eq_of_named named]
  rfl

theorem isMethodPair_of_unnamed (unnamed : value.opened.named? = none) :
    value.isMethodPair = .ok false := by
  unfold isMethodPair
  split
  · rename_i opened
    rw [opened] at unnamed
    cases unnamed
  · rfl

theorem reachable_of_hasMethod {target : Value} {name : String}
    (has : target.hasMethod name = .ok true) : isPrivateName name = false := by
  unfold hasMethod at has
  cases hidden : isPrivateName name with
  | false => rfl
  | true => simp [hidden] at has

theorem hasMethod_overt (target : Value) (name : String) :
    target.overt.hasMethod name = target.hasMethod name := by
  unfold hasMethod
  simp only [isScalar_overt, isType_overt, methodNames_overt, hasCalendarMethod_overt]
  split
  · rfl
  · rename_i reached
    have reachable : isPrivateName name = false := by
      cases hidden : isPrivateName name <;> simp [hidden] at reached ⊢
    split
    · rfl
    · cases target with
      | object data =>
          simp only [overt, data.member_overt reachable]
          cases data.member name with
          | error trouble => rfl
          | ok found =>
              cases found with
              | none => rfl
              | some found => simp [Except.map]
      | _ => rfl

theorem opened_overt_named (value : Value) :
    value.overt.opened.named? = value.opened.named?.map (Prod.map overt id) := by
  rw [opened_overt, named?_overt]

@[simp] theorem isMethodPair_overt (value : Value) :
    value.overt.isMethodPair = value.isMethodPair := by
  have same := value.opened_overt_named
  cases named : value.opened.named? with
  | none =>
      rw [named] at same
      rw [isMethodPair_of_unnamed named, isMethodPair_of_unnamed same]
  | some pair =>
      rw [named] at same
      rw [isMethodPair_of_named named, isMethodPair_of_named same]
      exact hasMethod_overt pair.1 pair.2

@[simp] theorem kind_overt (value : Value) : value.overt.kind = value.kind := by
  simp only [kind, plain_overt, isMethodPair_overt]
  cases value.plain with
  | mapping entries | ordered entries => simp [overt, isIndexed_overt]
  | object data => simp [overt]
  | _ => rfl

theorem dots_overt (value : Value) : dots value.overt = dots value := by
  cases value <;> rfl

mutual

-- Each kind of collection only wraps the texts of its parts, so the texts of the parts suffice.
theorem innerWithin_overt (active : List (Nat × List Char)) :
    (value : Value) → innerWithin active value.overt = innerWithin active value
  | .list items =>
      congrArg (fun shown => '[' :: commaSeparated shown ++ [']']) (innerItems_overt active items)
  | .tuple items =>
      congrArg (fun shown : List (List Char) =>
        match shown with
        | [only] => '(' :: only ++ [',', ')']
        | shown => '(' :: commaSeparated shown ++ [')']) (innerItems_overt active items)
  | .set items =>
      congrArg (fun shown : List (List Char) =>
        match shown with
        | [] => "set()".toList
        | shown => '\x7b' :: commaSeparated shown ++ ['\x7d']) (innerItems_overt active items)
  | .mapping entries =>
      congrArg (fun shown => '\x7b' :: commaSeparated shown ++ ['\x7d'])
        (innerEntries_overt active entries)
  | .ordered [] => rfl
  | .ordered (entry :: rest) =>
      congrArg (fun shown => "ordereddict([".toList ++ commaSeparated shown ++ [']', ')'])
        (innerPairs_overt active (entry :: rest))
  | .portion part items =>
      congrArg (fun shown =>
        (portionWord part).toList ++ '(' :: '[' :: commaSeparated shown ++ [']', ')'])
        (innerItems_overt active items)
  | .knot label body => by
      have unfolded (body : Value) : innerWithin active (.knot label body) =
          match active.lookup label with
          | some dots => dots
          | none => innerWithin ((label, dots body) :: active) body := rfl
      rw [overt, unfolded, unfolded, dots_overt]
      split
      · rfl
      · exact innerWithin_overt _ body
  | .cell id content => innerWithin_overt active content
  | .object (.mk ..) => rfl
  | .null | .bool _ | .int _ | .float _ | .text _ | .bytes _ | .range .. | .iterator ..
  | .function .. | .builtin _ | .type _ | .calendar _ | .again _ => rfl

theorem innerItems_overt (active : List (Nat × List Char)) : (items : List Value) →
    innerItems active (allOvert items) = innerItems active items
  | [] => rfl
  | item :: rest =>
      List.cons_eq_cons.mpr ⟨innerWithin_overt active item, innerItems_overt active rest⟩

theorem innerEntries_overt (active : List (Nat × List Char)) : (entries : List (Value × Value)) →
    innerEntries active (entriesOvert entries) = innerEntries active entries
  | [] => rfl
  | (key, value) :: rest =>
      have first := congr
        (congrArg (fun name shown => name ++ ':' :: ' ' :: shown) (innerWithin_overt active key))
        (innerWithin_overt active value)
      List.cons_eq_cons.mpr ⟨first, innerEntries_overt active rest⟩

theorem innerPairs_overt (active : List (Nat × List Char)) : (entries : List (Value × Value)) →
    innerPairs active (entriesOvert entries) = innerPairs active entries
  | [] => rfl
  | (key, value) :: rest =>
      have first := congr
        (congrArg (fun name shown => '(' :: name ++ ',' :: ' ' :: shown ++ [')'])
          (innerWithin_overt active key))
        (innerWithin_overt active value)
      List.cons_eq_cons.mpr ⟨first, innerPairs_overt active rest⟩

end

@[simp] theorem printedChars_overt (value : Value) :
    value.overt.printedChars = value.printedChars := by
  have shown := innerWithin_overt [] value
  cases value with
  | text | calendar => rfl
  | _ => exact shown

@[simp] theorem printed_overt (value : Value) : value.overt.printed = value.printed := by
  simp only [printed, printedChars_overt]

@[simp] theorem decodedChars_overt (value : Value) :
    value.overt.decodedChars = value.decodedChars := by
  have shown := printedChars_overt value
  cases value with
  | bytes => rfl
  | _ => exact shown

@[simp] theorem decoded_overt (value : Value) : value.overt.decoded = value.decoded := by
  simp only [decoded, decodedChars_overt]

end Value

end Logicless
