import Logicless.Proofs.Privacy
import Logicless.Value.Iteration
import Logicless.Value.Lookup

namespace Logicless

variable {value : Value} {name : String} {data : ObjectData}

def Argument.overt : Argument → Argument
  | .value value => .value value.overt
  | .renderer => .renderer

@[simp] theorem Argument.overt_value (value : Value) :
    (Argument.value value).overt = .value value.overt := rfl

@[simp] theorem Argument.overt_renderer : Argument.renderer.overt = .renderer := rfl

@[simp] theorem Argument.asValue_overt (argument : Argument) :
    argument.overt.asValue = argument.asValue.overt := by
  cases argument <;> rfl

theorem Reply.withoutRendering_overt (reply : Reply) :
    reply.overt.withoutRendering = reply.withoutRendering.overt := by
  cases reply <;> rfl

namespace Value

@[simp] theorem asInt?_overt (value : Value) : value.overt.asInt? = value.asInt? := by
  cases value <;> rfl

theorem less?_overt (value other : Value) : less? value.overt other.overt = less? value other := by
  cases value <;> cases other <;> rfl

theorem sorted?_overt (items : List Value) :
    sorted? (items.map overt) = (sorted? items).map (List.map overt) := by
  simp only [sorted?, List.length_map, List.all_map, Function.comp_def, less?_overt]
  split
  · refine congrArg some (List.map_mergeSort fun item _ other _ => ?_).symm
    rw [less?_overt]
  · rfl

theorem eraseKey_overt {α β : Type} (given : α → β) (key : Value) (entries : List (Value × α)) :
    eraseKey key.overt (entries.map (Prod.map overt given)) =
      (eraseKey key entries).map (Prod.map overt given) := by
  induction entries with
  | nil => rfl
  | cons entry rest ih =>
      simp only [List.map_cons, Prod.map, eraseKey, sameKey_overt]
      split
      · rfl
      · rw [ih]
        rfl

theorem putKey_overt {α β : Type} (given : α → β) (key : Value) (value : α)
    (entries : List (Value × α)) :
    putKey key.overt (given value) (entries.map (Prod.map overt given)) =
      (putKey key value entries).map (Prod.map overt given) := by
  induction entries with
  | nil => rfl
  | cons entry rest ih =>
      simp only [List.map_cons, Prod.map, putKey, sameKey_overt]
      split
      · rfl
      · rw [ih]
        rfl

theorem ofEntries_overt (entries : List (Value × Value)) :
    (ofEntries entries).overt = ofEntries (entries.map (Prod.map overt overt)) := by
  simp only [ofEntries, overt, entriesOvert_eq_map, List.foldl_map]
  refine congrArg mapping (List.foldl_hom _ fun built entry => ?_).symm
  exact putKey_overt overt entry.1 entry.2 built

theorem map_characters (words : String) : (characters words).map overt = characters words := by
  simp [characters, overt, Function.comp_def]

theorem listMethod_overt (items : List Value) (name : String) (arguments : List Argument) :
    listMethod (items.map overt) name (arguments.map Argument.overt) =
      Prod.map (List.map overt) Reply.overt (listMethod items name arguments) := by
  cases arguments with
  | cons first rest => simp [listMethod, Reply.overt]
  | nil =>
      simp only [List.map_nil]
      unfold listMethod
      split
      · rfl
      · simp [Reply.overt, overt]
      · simp only [List.getLast?_map]
        cases items.getLast? <;> simp [Reply.overt]
      · simp [Reply.overt, overt]
      · simp only [sorted?_overt]
        cases sorted? items <;> simp [Reply.overt, overt]
      · rfl

theorem getEntry_overt (entries : Entries) (key default : Value) :
    getEntry (entries.map (Prod.map overt overt)) key.overt default.overt =
      (getEntry entries key default).overt := by
  simp only [getEntry, isHashable_overt, findKey_overt]
  split
  · cases findKey key entries <;> rfl
  · rfl

theorem popEntry_overt (entries : Entries) (key : Value) (otherwise : Reply) :
    popEntry (entries.map (Prod.map overt overt)) key.overt otherwise.overt =
      Prod.map (List.map (Prod.map overt overt)) Reply.overt (popEntry entries key otherwise) := by
  simp only [popEntry, isHashable_overt, findKey_overt, eraseKey_overt]
  split
  · cases findKey key entries <;> rfl
  · rfl

theorem setDefault_overt (entries : Entries) (key default : Value) :
    setDefault (entries.map (Prod.map overt overt)) key.overt default.overt =
      Prod.map (List.map (Prod.map overt overt)) Reply.overt (setDefault entries key default) := by
  simp only [setDefault, isHashable_overt, findKey_overt, putKey_overt]
  split
  · cases findKey key entries <;> rfl
  · rfl

theorem overt_mapping (entries : Entries) :
    (mapping entries).overt = .mapping (entries.map (Prod.map overt overt)) := by
  rw [overt, entriesOvert_eq_map]

theorem overt_ordered (entries : Entries) :
    (ordered entries).overt = .ordered (entries.map (Prod.map overt overt)) := by
  rw [overt, entriesOvert_eq_map]

theorem fromKeys_overt (whole : Entries → Value) (entries : Entries) (arguments : List Argument) :
    mappingMethod whole (entries.map (Prod.map overt overt)) "fromkeys"
        (arguments.map Argument.overt) =
      Prod.map (List.map (Prod.map overt overt)) Reply.overt
        (mappingMethod whole entries "fromkeys" arguments) := by
  have built (words : String) (default : Value) :
      ofEntries ((characters words).map fun key => (key, default.overt)) =
        (ofEntries ((characters words).map fun key => (key, default))).overt := by
    simp [ofEntries_overt, characters, overt, Function.comp_def]
  match arguments with
  | [] | [.renderer] | .renderer :: _ :: _ => rfl
  | .value first :: _ :: _ :: _ => cases first <;> rfl
  | [.value first] =>
      cases first with
      | text words => exact congrArg (Prod.mk _ ∘ Reply.gives) (built words .null)
      | _ => rfl
  | [.value first, default] =>
      cases first with
      | text words =>
          have same := built words default.asValue
          rw [← Argument.asValue_overt] at same
          exact congrArg (Prod.mk _ ∘ Reply.gives) same
      | _ => rfl

theorem mappingMethod_overt {whole : Entries → Value}
    (wraps : ∀ entries, (whole entries).overt = whole (entries.map (Prod.map overt overt)))
    (entries : Entries) (name : String) (arguments : List Argument) :
    mappingMethod whole (entries.map (Prod.map overt overt)) name (arguments.map Argument.overt) =
      Prod.map (List.map (Prod.map overt overt)) Reply.overt
        (mappingMethod whole entries name arguments) := by
  by_cases fromKeys : name = "fromkeys"
  · subst fromKeys
    exact fromKeys_overt whole entries arguments
  match arguments with
  | [] =>
      by_cases last : name = "popitem"
      · subst last
        simp only [List.map_nil, mappingMethod, List.getLast?_map]
        cases entries.getLast? <;> simp [Reply.overt, overt]
      simp only [List.map_nil]
      unfold mappingMethod
      split <;> first | contradiction | simp [Reply.overt, overt, wraps, Function.comp_def]
  | [.value key] =>
      by_cases gets : name = "get"
      · subst gets
        exact congrArg (Prod.mk _) (getEntry_overt entries key .null)
      by_cases pops : name = "pop"
      · subst pops
        exact popEntry_overt entries key (.raises .missingKey)
      by_cases sets : name = "setdefault"
      · subst sets
        exact setDefault_overt entries key .null
      simp [mappingMethod, fromKeys, gets, pops, sets, Reply.overt]
  | [.value key, default] =>
      by_cases gets : name = "get"
      · subst gets
        simp only [List.map_cons, List.map_nil, Argument.overt_value, mappingMethod,
          Argument.asValue_overt, getEntry_overt]
        rfl
      by_cases pops : name = "pop"
      · subst pops
        simp only [List.map_cons, List.map_nil, Argument.overt_value, mappingMethod,
          Argument.asValue_overt]
        exact popEntry_overt entries key (.gives default.asValue)
      by_cases sets : name = "setdefault"
      · subst sets
        simp only [List.map_cons, List.map_nil, Argument.overt_value, mappingMethod,
          Argument.asValue_overt, setDefault_overt]
      simp [mappingMethod, fromKeys, gets, pops, sets, Reply.overt]
  | [.renderer] | .renderer :: _ :: _ | .value _ :: _ :: _ :: _ =>
      simp [mappingMethod, Reply.overt]

theorem orderedMethod_of_ne {name : String} (other : name ≠ "move_to_end") (entries : Entries)
    (arguments : List Argument) :
    orderedMethod entries name arguments = mappingMethod .ordered entries name arguments := by
  unfold orderedMethod
  split
  · contradiction
  · rfl

theorem orderedMethod_overt (entries : Entries) (name : String) (arguments : List Argument) :
    orderedMethod (entries.map (Prod.map overt overt)) name (arguments.map Argument.overt) =
      Prod.map (List.map (Prod.map overt overt)) Reply.overt
        (orderedMethod entries name arguments) := by
  by_cases moves : name = "move_to_end"
  · subst moves
    match arguments with
    | [] | .renderer :: _ => rfl
    | .value key :: last =>
        simp only [List.map_cons, Argument.overt_value, orderedMethod, List.length_map,
          isHashable_overt, findKey_overt, eraseKey_overt]
        split
        · cases findKey key entries <;> simp [Reply.overt, overt]
        · rfl
  · rw [orderedMethod_of_ne moves, orderedMethod_of_ne moves]
    exact mappingMethod_overt overt_ordered entries name arguments

theorem addItem_overt (items : List Value) (item : Value) :
    addItem (items.map overt) item.overt = (addItem items item).map overt := by
  simp only [addItem, List.any_map, Function.comp_def, sameKey_overt]
  split <;> simp

theorem foldl_addItem_overt (items others : List Value) :
    (others.map overt).foldl addItem (items.map overt) = (others.foldl addItem items).map overt := by
  rw [List.foldl_map]
  exact List.foldl_hom _ fun built item => addItem_overt built item

theorem setMethod_overt (items : List Value) (name : String) (arguments : List Argument) :
    setMethod (items.map overt) name (arguments.map Argument.overt) =
      Prod.map (List.map overt) Reply.overt (setMethod items name arguments) := by
  match arguments with
  | [] =>
      by_cases pops : name = "pop"
      · subst pops
        cases items <;> rfl
      simp only [List.map_nil]
      unfold setMethod
      split <;> first | contradiction | simp [Reply.overt, overt]
  | [.value first, .renderer] =>
      cases first with
      | text words =>
          by_cases removes : name = "difference_update"
          · subst removes
            have kept (item : Value) :
                ((characters words).any fun other => sameKey item.overt other) =
                  (characters words).any fun other => sameKey item other := by
              simp only [characters, List.any_map]
              exact congrArg words.toList.any
                (funext fun c => sameKey_overt item (.text (String.ofList [c])))
            simp [overt, setMethod, List.filter_map, Function.comp_def, kept, Reply.overt]
          by_cases adds : name = "update"
          · subst adds
            have added := foldl_addItem_overt items (characters words)
            rw [map_characters] at added
            simp [overt, setMethod, added, Reply.overt]
          simp [overt, setMethod, removes, adds, Reply.overt]
      | _ => simp [setMethod, Reply.overt, overt]
  | [_] | .renderer :: _ :: _ | _ :: _ :: _ :: _ | [.value _, .value _] =>
      simp [setMethod, Reply.overt]

theorem callMethod_overt (target : Value) (name : String) (arguments : List Argument) :
    callMethod target.overt name (arguments.map Argument.overt) =
      Prod.map overt Reply.overt (callMethod target name arguments) := by
  simp only [callMethod, opened_overt]
  cases target.opened with
  | list items => simp [overt, listMethod_overt]
  | set items => simp [overt, setMethod_overt]
  | mapping entries =>
      simp [overt_mapping, mappingMethod_overt overt_mapping]
  | ordered entries => simp [overt, orderedMethod_overt]
  | _ => rfl

@[simp] theorem itemCount_overt (value : Value) : value.overt.itemCount = value.itemCount := by
  simp only [itemCount, plain_overt]
  cases value.plain with
  | object data => simp [overt]
  | _ => simp [overt]

theorem builtinReply_overt (known : Builtin) (arguments : List Argument) :
    builtinReply known (arguments.map Argument.overt) = (builtinReply known arguments).overt := by
  match arguments with
  | [.value value] =>
      cases known with
      | length =>
          simp only [List.map_cons, List.map_nil, Argument.overt, builtinReply, itemCount_overt]
          cases value.itemCount <;> rfl
      | magnitude =>
          cases value with
          | calendar thing => cases thing <;> rfl
          | _ => rfl
      | print | method => rfl
  | [] | [.renderer] => cases known <;> rfl
  | first :: _ :: _ => cases known <;> simp [builtinReply, Reply.overt, overt]

end Value

namespace Function

theorem forwarded_overt (text : String) (argument : Argument) :
    forwarded text argument.overt = (forwarded text argument).overt := by
  cases argument with
  | renderer => rfl
  | value helper =>
      cases helper with
      | builtin known => exact Value.builtinReply_overt known [.value (.text text)]
      | _ => rfl

theorem reply_overt (function : Function) (arguments : List Argument) :
    function.overt.reply (arguments.map Argument.overt) = (function.reply arguments).overt := by
  unfold reply
  rw [arity_overt, List.length_map]
  split
  · cases function with
    | mk arity body =>
        cases body with
        | gives | raises => rfl
        | forwards text =>
            match arguments with
            | _ :: helper :: _ => exact forwarded_overt text helper
            | [] | [_] => rfl
        | answers callback =>
            match arguments with
            | .value first :: .renderer :: _ => cases first <;> rfl
            | .value first :: .value second :: _ =>
                cases first with
                | text words => exact (callback words).withoutRendering_overt
                | _ => rfl
            | [] | .renderer :: _ => rfl
            | [.value first] => cases first <;> rfl
  · rfl

end Function

namespace Value

theorem callReply_overt (value : Value) (arguments : List Argument) :
    value.overt.callReply (arguments.map Argument.overt) = (value.callReply arguments).overt := by
  cases value with
  | function bound callee => exact callee.reply_overt arguments
  | builtin known => exact builtinReply_overt known arguments
  | object data =>
      simp only [overt, callReply, ObjectData.call_overt]
      cases data.call with
      | none => rfl
      | some callee => exact callee.reply_overt arguments
  | _ => rfl

theorem memberReply_overt {name : String} (reachable : isPrivateName name = false) (target : Value)
    (arguments : List Argument) :
    target.overt.memberReply name (arguments.map Argument.overt) =
      (target.memberReply name arguments).overt := by
  unfold memberReply
  rw [methodNames_overt]
  split
  · rw [callMethod_overt]
    rfl
  · cases target with
    | object data =>
        simp only [overt, data.member_overt reachable]
        cases data.member name with
        | error trouble => rfl
        | ok found =>
            cases found with
            | none => rfl
            | some found => exact callReply_overt found.1 arguments
    | _ => rfl

theorem isCollectionPair_of_named {target : Value} {name : String}
    (named : value.opened.named? = some (target, name)) :
    value.isCollectionPair = target.methodNames.contains name := by
  simp only [isCollectionPair, eq_of_named named]

theorem isCollectionPair_of_unnamed (unnamed : value.opened.named? = none) :
    value.isCollectionPair = false := by
  unfold isCollectionPair
  split
  · rename_i opened
    rw [opened] at unnamed
    cases unnamed
  · rfl

@[simp] theorem isCollectionPair_overt (value : Value) :
    value.overt.isCollectionPair = value.isCollectionPair := by
  have same := value.opened_overt_named
  cases named : value.opened.named? with
  | none =>
      rw [named] at same
      rw [isCollectionPair_of_unnamed named, isCollectionPair_of_unnamed same]
  | some pair =>
      rw [named] at same
      rw [isCollectionPair_of_named named, isCollectionPair_of_named same]
      simp

theorem invoke_of_pair {target : Value} {name : String}
    (named : value.opened.named? = some (target, name)) (has : target.hasMethod name = .ok true)
    (arguments : List Argument) : value.invoke arguments = target.memberReply name arguments := by
  simp only [invoke, isMethodPair_of_named named, has, eq_of_named named]

theorem invoke_of_isMethodPair (plain : value.isMethodPair = .ok false)
    (arguments : List Argument) : value.invoke arguments = value.callReply arguments := by
  simp only [invoke, plain]

theorem invoke_of_error {trouble : Trouble} (fails : value.isMethodPair = .error trouble)
    (arguments : List Argument) : value.invoke arguments = .raises trouble := by
  simp only [invoke, fails]

/-- Calling finds no members with private names, and what it gives has none. -/
theorem invoke_overt (value : Value) (arguments : List Argument) :
    value.overt.invoke (arguments.map Argument.overt) = (value.invoke arguments).overt := by
  have same := value.isMethodPair_overt
  cases pair : value.isMethodPair with
  | error trouble =>
      rw [pair] at same
      rw [invoke_of_error pair, invoke_of_error same, Reply.overt]
  | ok method =>
      rw [pair] at same
      cases method with
      | false =>
          rw [invoke_of_isMethodPair pair, invoke_of_isMethodPair same]
          exact callReply_overt value arguments
      | true =>
          have also := value.opened_overt_named
          cases named : value.opened.named? with
          | none => simp [isMethodPair_of_unnamed named] at pair
          | some found =>
              obtain ⟨target, name⟩ := found
              rw [named] at also
              rw [isMethodPair_of_named named] at pair
              rw [invoke_of_pair named pair,
                invoke_of_pair also ((hasMethod_overt target name).trans pair)]
              exact memberReply_overt (reachable_of_hasMethod pair) target arguments

@[simp] theorem changes_overt (value : Value) (text : Option String) :
    value.overt.changes text = value.changes text := by
  simp only [changes, opened_overt]
  cases value.opened with
  | tuple items =>
      cases items with
      | nil => rfl
      | cons first rest =>
          cases first with
          | cell =>
              cases rest with
              | nil => rfl
              | cons second others => cases second <;> cases others <;> rfl
          | _ => rfl
  | _ => rfl

end Value

theorem Change.applied_overt (change : Change) (content : Value) :
    change.applied content.overt = (change.applied content).overt := by
  have same : change.arguments.map Argument.overt = change.arguments := by
    unfold arguments
    cases change.text <;> rfl
  have called := content.callMethod_overt change.method change.arguments
  rw [same] at called
  exact congrArg Prod.fst called

namespace Value

theorem changedBy_overt (changes : List Change) (id : Identity) (content : Value) :
    changedBy changes id content.overt = (changedBy changes id content).overt :=
  List.foldr_hom overt fun change content => change.applied_overt content

theorem mapM_overt {given others : Nat → Except Trouble Value}
    (same : ∀ index, others index = (given index).map overt) (places : List Nat) :
    places.mapM others = (places.mapM given).map (List.map overt) := by
  induction places with
  | nil => rfl
  | cons place rest ih =>
      rw [List.mapM_cons, List.mapM_cons, ih, same]
      cases given place with
      | error trouble => rfl
      | ok value => cases rest.mapM given <;> rfl

theorem indexedItems_overt (entries : List (Value × Value)) :
    indexedItems (entries.map (Prod.map overt overt)) =
      (indexedItems entries).map (List.map overt) := by
  unfold indexedItems
  rw [List.length_map]
  refine mapM_overt (fun index => ?_) _
  rw [findIndex_overt]
  cases findKey (.int (Int.ofNat index)) entries <;> rfl

theorem items_overt (value : Value) : value.overt.items = value.items.map (List.map overt) := by
  simp only [items, plain_overt]
  cases value.plain with
  | mapping entries => simp [overt, indexedItems_overt]
  | object data =>
      simp only [overt, ObjectData.items_overt]
      cases data.items <;> rfl
  | range start stop step => simp [overt, rangeItems, Except.map, Function.comp_def]
  | text | bytes => simp [overt, Except.map, Function.comp_def]
  | list items | tuple items | set items | portion part items | iterator id items =>
      simp [overt, Except.map]
  | _ => rfl

mutual

theorem builtBy_overt (call : Nat) :
    (value : Value) → builtBy call value.overt = (builtBy call value).overt
  | .list items | .tuple items | .set items | .portion _ items | .iterator _ items => by
      simp only [overt, builtBy, allBuiltBy_overt call items]
  | .mapping entries => by simp only [overt, builtBy, entriesBuiltBy_overt call entries]
  | .object data => by simp only [overt, builtBy, objectBuiltBy_overt call data]
  | .cell id content => by simp only [overt, builtBy, builtBy_overt call content]
  | .null | .bool _ | .int _ | .float _ | .text _ | .bytes _ | .ordered _ | .range ..
  | .function .. | .builtin _ | .type _ | .calendar _ | .knot .. | .again _ => by
      simp only [overt, builtBy]

theorem allBuiltBy_overt (call : Nat) : (values : List Value) →
    allBuiltBy call (allOvert values) = allOvert (allBuiltBy call values)
  | [] => rfl
  | value :: rest => by
      simp only [allOvert, allBuiltBy, builtBy_overt call value, allBuiltBy_overt call rest]

theorem entriesBuiltBy_overt (call : Nat) : (entries : List (Value × Value)) →
    entriesBuiltBy call (entriesOvert entries) = entriesOvert (entriesBuiltBy call entries)
  | [] => rfl
  | (key, value) :: rest => by
      simp only [entriesOvert, entriesBuiltBy, builtBy_overt call key, builtBy_overt call value,
        entriesBuiltBy_overt call rest]

theorem objectBuiltBy_overt (call : Nat) : (data : ObjectData) →
    objectBuiltBy call data.overt = (objectBuiltBy call data).overt
  | .mk shown members items size truth callee fallback => by
      simp only [ObjectData.overt, objectBuiltBy, membersBuiltBy_overt call members,
        optionBuiltBy_overt call items]

theorem membersBuiltBy_overt (call : Nat) : (members : List (String × Member)) →
    membersBuiltBy call (membersOvert members) = membersOvert (membersBuiltBy call members)
  | [] => rfl
  | (name, .attribute value) :: rest => by
      simp only [membersOvert, membersBuiltBy]
      split
      · exact membersBuiltBy_overt call rest
      · simp only [Member.overt, membersBuiltBy, builtBy_overt call value,
          membersBuiltBy_overt call rest]
  | (name, .property computed) :: rest => by
      simp only [membersOvert, membersBuiltBy]
      split
      · exact membersBuiltBy_overt call rest
      · simp only [Member.overt, membersBuiltBy, membersBuiltBy_overt call rest]

theorem optionBuiltBy_overt (call : Nat) : (values : Option (List Value)) →
    optionBuiltBy call (optionOvert values) = optionOvert (optionBuiltBy call values)
  | none => rfl
  | some values => by
      simp only [optionOvert, optionBuiltBy, allBuiltBy_overt call values]

end

mutual

theorem after_overt (changes : List Change) :
    (value : Value) → after changes value.overt = (after changes value).overt
  | .list items | .tuple items | .set items | .portion _ items | .iterator _ items => by
      simp only [overt, after, allAfter_overt changes items]
  | .mapping entries | .ordered entries => by
      simp only [overt, after, entriesAfter_overt changes entries]
  | .object data => by simp only [overt, after, objectAfter_overt changes data]
  | .knot label body => by simp only [overt, after, after_overt changes body]
  | .cell id content => by
      simp only [overt, after, after_overt changes content, changedBy_overt]
  | .null | .bool _ | .int _ | .float _ | .text _ | .bytes _ | .range ..
  | .function .. | .builtin _ | .type _ | .calendar _ | .again _ => by
      simp only [overt, after]

theorem allAfter_overt (changes : List Change) : (values : List Value) →
    allAfter changes (allOvert values) = allOvert (allAfter changes values)
  | [] => rfl
  | value :: rest => by
      simp only [allOvert, allAfter, after_overt changes value, allAfter_overt changes rest]

theorem entriesAfter_overt (changes : List Change) : (entries : List (Value × Value)) →
    entriesAfter changes (entriesOvert entries) = entriesOvert (entriesAfter changes entries)
  | [] => rfl
  | (key, value) :: rest => by
      simp only [entriesOvert, entriesAfter, after_overt changes key, after_overt changes value,
        entriesAfter_overt changes rest]

theorem objectAfter_overt (changes : List Change) : (data : ObjectData) →
    objectAfter changes data.overt = (objectAfter changes data).overt
  | .mk shown members items size truth callee fallback => by
      simp only [ObjectData.overt, objectAfter, membersAfter_overt changes members,
        optionAfter_overt changes items]

theorem membersAfter_overt (changes : List Change) : (members : List (String × Member)) →
    membersAfter changes (membersOvert members) = membersOvert (membersAfter changes members)
  | [] => rfl
  | (name, .attribute value) :: rest => by
      simp only [membersOvert, membersAfter]
      split
      · exact membersAfter_overt changes rest
      · simp only [Member.overt, membersAfter, after_overt changes value,
          membersAfter_overt changes rest]
  | (name, .property computed) :: rest => by
      simp only [membersOvert, membersAfter]
      split
      · exact membersAfter_overt changes rest
      · simp only [Member.overt, membersAfter, membersAfter_overt changes rest]

theorem optionAfter_overt (changes : List Change) : (values : Option (List Value)) →
    optionAfter changes (optionOvert values) = optionOvert (optionAfter changes values)
  | none => rfl
  | some values => by
      simp only [optionOvert, optionAfter, allAfter_overt changes values]

end

end Value

theorem Memory.take_of_ne {value : Value} (memory : Memory)
    (lasting : ∀ id items, value ≠ .iterator id items) :
    memory.take value = value.items.map fun items => (items, memory) := by
  unfold take
  split
  · exact absurd rfl (lasting _ _)
  · cases value.items <;> rfl

theorem Memory.take_overt (memory : Memory) (value : Value) :
    memory.take value.overt =
      (memory.take value).map (Prod.map (List.map Value.overt) id) := by
  by_cases once : ∃ id items, value = .iterator id items
  · obtain ⟨id, items, rfl⟩ := once
    simp only [Value.overt, Memory.take, allOvert_eq_map]
    split <;> rfl
  · have lasting : ∀ id items, value ≠ .iterator id items :=
      fun id items same => once ⟨id, items, same⟩
    have still : ∀ id items, value.overt ≠ .iterator id items := by
      intro id items same
      cases value <;> first | exact absurd rfl (lasting _ _) | cases same
    rw [take_of_ne memory still, take_of_ne memory lasting, Value.items_overt]
    cases value.items <;> rfl

theorem Memory.current_overt (memory : Memory) (value : Value) :
    memory.current value.overt = (memory.current value).overt := by
  unfold current
  split
  · rfl
  · exact value.after_overt _

/-- What a name stands for, without members that have private names. -/
def Found.overt (found : Found) : Found := { found with value := found.value.overt }

namespace Value

theorem invoked_overt (value : Value) : value.overt.invoked = value.invoked.map Found.overt := by
  have called := value.invoke_overt []
  rw [List.map_nil] at called
  unfold invoked
  rw [called, isCollectionPair_overt, changes_overt]
  cases value.invoke [] <;> rfl

theorem namedEntry_overt (name : String) (entries : List (Value × Value)) :
    namedEntry name (entries.map (Prod.map overt overt)) =
      (namedEntry name entries).map (Option.map overt) := by
  unfold namedEntry
  rw [findName_overt]
  cases findKey (.text name) entries with
  | some value => rfl
  | none =>
      cases Text.readNumeral name.toList with
      | word | unreadable => rfl
      | number index => exact congrArg Except.ok (findIndex_overt index entries)

theorem lookupMapping_overt (name : String) (entries : List (Value × Value)) :
    lookupMapping name (entries.map (Prod.map overt overt)) =
      (lookupMapping name entries).map Found.overt := by
  unfold lookupMapping
  rw [namedEntry_overt]
  cases namedEntry name entries with
  | error trouble => rfl
  | ok entry =>
      cases entry with
      | none => rfl
      | some value =>
          by_cases absent : value = .null
          · subst absent
            rfl
          · -- With `absent`, this tells `simp` which branch is taken on either side.
            have present : value.overt ≠ .null := by
              cases value <;> first | exact absurd rfl absent | exact nofun
            simp only [Except.map, Option.map_some, isMethodPair_overt]
            cases value.isMethodPair with
            | error trouble => rfl
            | ok pair =>
                cases pair with
                | false => rfl
                | true => exact value.invoked_overt

theorem lookupPosition_overt (name : String) (count : Except Trouble Nat)
    {item others : Nat → Option Value} (items : ∀ index, others index = (item index).map overt) :
    lookupPosition name count others = (lookupPosition name count item).map Found.overt := by
  unfold lookupPosition
  cases Text.readNumeral name.toList with
  | word | unreadable => rfl
  | number index =>
      cases count with
      | error trouble => rfl
      | ok count =>
          by_cases within : index < count
          · simp only [if_pos within, items]
            cases item index with
            | none => rfl
            | some value => cases value <;> rfl
          · simp only [if_neg within]
            rfl

theorem lookupMember_overt (name : String) (data : ObjectData) :
    lookupMember name data.overt = (lookupMember name data).map Found.overt := by
  unfold lookupMember
  split
  · rfl
  · rename_i named
    have reachable : isPrivateName name = false := by
      cases hidden : isPrivateName name <;> simp [hidden] at named ⊢
    rw [data.member_overt reachable]
    cases data.member name with
    | error trouble => rfl
    | ok member =>
        match member with
        | none => rfl
        | some (value, fresh) =>
            cases value with
            | function bound method =>
                cases bound with
                | false => rfl
                | true =>
                    simp only [Except.map, Option.map_some, Prod.map, overt, id_eq,
                      Function.arity_overt, Function.answer_overt]
                    split
                    · cases method.answer <;> rfl
                    · rfl
            | _ => rfl

theorem lookupStep_overt (name : String) (context : Value) :
    lookupStep name context.overt = (lookupStep name context).map Found.overt := by
  unfold lookupStep
  rw [kind_overt, plain_overt]
  cases context.kind with
  | error trouble => rfl
  | ok kind =>
      cases kind with
      | scalar | «sealed» | callable => rfl
      | list | map | object =>
          cases context.plain with
          | mapping entries =>
              simp only [overt, entriesOvert_eq_map]
              exact lookupMapping_overt name entries
          | list items | tuple items =>
              simp only [overt, allOvert_eq_map, List.length_map]
              exact lookupPosition_overt name _ fun index => List.getElem?_map
          | range start stop step => exact lookupPosition_overt name _ fun _ => rfl
          | object data => exact lookupMember_overt name data
          | calendar thing =>
              simp only [overt, lookupCalendar]
              split <;> rfl
          | _ => rfl

theorem lookupSteps_overt (steps : List String) (context : Value) :
    lookupSteps steps context.overt = (lookupSteps steps context).map Found.overt := by
  induction steps generalizing context with
  | nil => rfl
  | cons step rest ih =>
      cases rest with
      | nil => exact lookupStep_overt step context
      | cons second rest =>
          simp only [lookupSteps, lookupStep_overt]
          cases lookupStep step context with
          | error trouble => rfl
          | ok found =>
              simp only [Except.map, Found.overt, kind_overt, ih]
              cases found.value.kind with
              | error trouble => rfl
              | ok kind =>
                  cases kind with
                  | scalar | «sealed» => rfl
                  | list | map | object | callable =>
                      cases lookupSteps (second :: rest) found.value <;> rfl

/-- No name reaches a member with a private name, whatever steps it has. -/
theorem lookup_overt (name : String) (context : Value) :
    context.overt.lookup name = (context.lookup name).map Found.overt :=
  lookupSteps_overt (steps name) context

end Value

end Logicless
