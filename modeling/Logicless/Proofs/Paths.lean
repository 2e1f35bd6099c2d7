import Logicless.Text.Search
import Logicless.Value.Lookup

namespace Logicless

namespace Value

/-- Names that are taken apart. A dot at the very start does not part a name. -/
def IsDotted (name : String) : Prop := '.' ∈ name.toList ∧ name.toList.head? ≠ some '.'

instance (name : String) : Decidable (IsDotted name) := inferInstanceAs (Decidable (_ ∧ _))

/-- Values that no name is looked up in. -/
def IsClosed (value : Value) : Prop :=
  value.kind = .ok .scalar ∨ value.kind = .ok .sealed ∨ value.kind = .ok .callable

theorem stepsFrom_ne_nil (current text : List Char) : stepsFrom current text ≠ [] := by
  induction text generalizing current with
  | nil => simp [stepsFrom]
  | cons c rest ih =>
      simp only [stepsFrom]
      split
      · split <;> simp
      · exact ih (c :: current)

/-- A dot behind a step begins the next one, where no part before it is empty. -/
theorem stepsFrom_append {current path first : List Char} {others : List (List Char)}
    (parts : Text.splitOnChar '.' path = first :: others) (begun : current ≠ [] ∨ first ≠ [])
    (solid : ∀ part ∈ others, part ≠ []) (rest : List Char) :
    stepsFrom current (path ++ '.' :: rest) = stepsFrom current path ++ stepsFrom [] rest := by
  induction path generalizing current first others with
  | nil =>
      cases parts
      have some : current ≠ [] := begun.resolve_right (· rfl)
      simp [stepsFrom, some]
  | cons c path ih =>
      obtain ⟨next, more, split⟩ := List.exists_cons_of_ne_nil (Text.splitOnChar_ne_nil '.' path)
      by_cases dot : c = '.'
      · subst dot
        simp only [Text.splitOnChar, if_true, split, List.cons.injEq] at parts
        obtain ⟨rfl, rfl⟩ := parts
        have some : current ≠ [] := begun.resolve_right (· rfl)
        rw [List.forall_mem_cons] at solid
        simp [stepsFrom, some, ih split (.inr solid.1) solid.2]
      · simp only [Text.splitOnChar, if_neg dot, split, List.cons.injEq] at parts
        obtain ⟨rfl, rfl⟩ := parts
        simp [stepsFrom, dot, ih split (.inl (List.cons_ne_nil c current)) solid]

theorem steps_ne_nil (name : String) : steps name ≠ [] :=
  fun none => stepsFrom_ne_nil [] name.toList (List.map_eq_nil_iff.mp none)

theorem steps_append {path : String}
    (solid : ∀ part ∈ Text.splitOnChar '.' path.toList, part ≠ []) (rest : String) :
    steps (path ++ "." ++ rest) = steps path ++ steps rest := by
  obtain ⟨first, others, parts⟩ :=
    List.exists_cons_of_ne_nil (Text.splitOnChar_ne_nil '.' path.toList)
  rw [parts, List.forall_mem_cons] at solid
  have spelled : (path ++ "." ++ rest).toList = path.toList ++ '.' :: rest.toList := by simp
  simp only [steps, spelled, stepsFrom_append parts (.inr solid.1) solid.2, List.map_append]

/-- No step is taken apart any further. -/
theorem mem_stepsFrom {current text : List Char} (plain : '.' ∉ current) :
    ∀ step ∈ stepsFrom current text, '.' ∈ step → step.head? = some '.' := by
  induction text generalizing current with
  | nil => simp [stepsFrom, plain]
  | cons c rest ih =>
      simp only [stepsFrom]
      split
      · rename_i dot
        split
        · simp [dot]
        · simpa [plain] using ih List.not_mem_nil
      · rename_i other
        exact ih (by simp [plain, Ne.symm other])

theorem not_isDotted_of_mem_steps {name step : String} (member : step ∈ steps name) :
    ¬ IsDotted step := by
  obtain ⟨spelled, inside, rfl⟩ := List.mem_map.mp member
  rintro ⟨dot, start⟩
  rw [String.toList_ofList] at dot start
  exact start (mem_stepsFrom List.not_mem_nil spelled inside dot)

theorem stepsFrom_of_not_mem {current text : List Char} (plain : '.' ∉ text) :
    stepsFrom current text = [current.reverse ++ text] := by
  induction text generalizing current with
  | nil => simp [stepsFrom]
  | cons c rest ih =>
      simp only [List.mem_cons, not_or] at plain
      simp [stepsFrom, Ne.symm plain.1, ih plain.2]

theorem steps_of_not_isDotted {name : String} (whole : ¬ IsDotted name) : steps name = [name] := by
  have alone : stepsFrom [] name.toList = [name.toList] := by
    by_cases dot : '.' ∈ name.toList
    · have start : name.toList.head? = some '.' :=
        Decidable.of_not_not fun other => whole ⟨dot, other⟩
      obtain ⟨rest, spelled⟩ := List.head?_eq_some_iff.mp start
      simp [spelled, stepsFrom]
    · exact stepsFrom_of_not_mem dot
  rw [steps, alone, List.map_singleton, String.ofList_toList]

theorem lookupStep_of_isClosed {value : Value} (closed : value.IsClosed) (step : String) :
    lookupStep step value = .ok .nothing := by
  rcases closed with same | same | same <;> simp only [lookupStep, same]

theorem lookupStep_of_error {value : Value} {trouble : Trouble}
    (fails : value.kind = .error trouble) (step : String) :
    lookupStep step value = .error trouble := by
  simp only [lookupStep, fails]

theorem isClosed_of_isScalar {value : Value} (scalar : value.isScalar = true) : value.IsClosed :=
  .inl (kind_of_isScalar scalar)

theorem lookupSteps_of_isClosed {value : Value} (closed : value.IsClosed) {steps : List String}
    (some : steps ≠ []) : lookupSteps steps value = .ok .nothing := by
  cases steps with
  | nil => contradiction
  | cons step rest =>
      have first := lookupStep_of_isClosed closed step
      cases rest with
      | nil => exact first
      | cons next rest => simp only [lookupSteps, first]; rfl

theorem lookupSteps_of_error {value : Value} {trouble : Trouble}
    (fails : value.kind = .error trouble) {steps : List String} (some : steps ≠ []) :
    lookupSteps steps value = .error trouble := by
  cases steps with
  | nil => contradiction
  | cons step rest =>
      have first := lookupStep_of_error fails step
      cases rest with
      | nil => exact first
      | cons next rest => simp only [lookupSteps, first]

/-- The first step decides what the context matters for. -/
theorem lookupSteps_congr {context other : Value} {step : String}
    (same : lookupStep step context = lookupStep step other) (rest : List String) :
    lookupSteps (step :: rest) context = lookupSteps (step :: rest) other := by
  cases rest with
  | nil => exact same
  | cons next rest => simp only [lookupSteps, same]

/-- What steps find, whether or not a call has built it. -/
def reached (steps : List String) (context : Value) : Except Trouble Value :=
  (lookupSteps steps context).map (·.value)

theorem reached_cons {rest : List String} (some : rest ≠ []) (step : String) (context : Value) :
    reached (step :: rest) context = (lookupStep step context).bind fun found =>
      reached rest found.value := by
  obtain ⟨next, rest, rfl⟩ := List.exists_cons_of_ne_nil some
  simp only [reached, lookupSteps]
  cases lookupStep step context with
  | error trouble => rfl
  | ok found =>
      simp only [Except.bind]
      cases known : found.value.kind with
      | error trouble => rw [lookupSteps_of_error known some]
      | ok kind =>
          cases kind with
          | scalar => rw [lookupSteps_of_isClosed (.inl known) some]
          | «sealed» => rw [lookupSteps_of_isClosed (.inr (.inl known)) some]
          | list | map | callable | object => cases lookupSteps (next :: rest) found.value <;> rfl

theorem reached_append {first others : List String} (some : first ≠ []) (more : others ≠ [])
    (context : Value) :
    reached (first ++ others) context = (reached first context).bind (reached others) := by
  induction first generalizing context with
  | nil => contradiction
  | cons step rest ih =>
      cases rest with
      | nil =>
          rw [List.singleton_append, reached_cons more]
          simp only [reached, lookupSteps]
          cases lookupStep step context <;> rfl
      | cons next rest =>
          have later := ih (List.cons_ne_nil next rest)
          rw [List.cons_append, reached_cons (by simp), reached_cons (by simp)]
          cases lookupStep step context with
          | error trouble => rfl
          | ok found => exact later found.value

theorem findKey_filter {key : Value} {keeps : Value × Value → Bool}
    (spares : ∀ entry, sameKey entry.1 key = true → keeps entry = true)
    (entries : List (Value × Value)) :
    findKey key (entries.filter keeps) = findKey key entries := by
  induction entries with
  | nil => rfl
  | cons entry rest ih =>
      simp only [List.filter_cons, findKey]
      cases same : sameKey entry.1 key with
      | true => simp [spares entry same, findKey, same]
      | false => cases keeps entry <;> simp [findKey, same, ih]

theorem eq_of_sameKey_text {key : Value} {name : String} (same : sameKey key (.text name) = true) :
    key = .text name := by
  cases key <;> simp [sameKey] at same
  rw [same]

/-- The entries of a mapping without those of a key. -/
def entriesBut (name : String) (entries : List (Value × Value)) : List (Value × Value) :=
  entries.filter fun entry => !sameKey entry.1 (.text name)

theorem findKey_entriesBut {key : Value} {name : String} (other : key ≠ .text name)
    (entries : List (Value × Value)) :
    findKey key (entriesBut name entries) = findKey key entries := by
  refine findKey_filter (fun entry same => ?_) entries
  cases hidden : sameKey entry.1 (.text name) with
  | false => rfl
  | true =>
      rw [eq_of_sameKey_text hidden] at same
      cases key <;> simp [sameKey] at same
      exact absurd (congrArg Value.text same.symm) other

theorem lookupMapping_entriesBut {step name : String} (other : step ≠ name)
    (entries : List (Value × Value)) :
    lookupMapping step (entriesBut name entries) = lookupMapping step entries := by
  have asText : findKey (.text step) (entriesBut name entries) = findKey (.text step) entries :=
    findKey_entriesBut (by simpa using other) entries
  have asNumber (index : Nat) : findKey (.int (Int.ofNat index)) (entriesBut name entries) =
      findKey (.int (Int.ofNat index)) entries := findKey_entriesBut (by simp) entries
  simp only [lookupMapping, namedEntry, asText, asNumber]

theorem lookupStep_of_mapping {context : Value} {entries : List (Value × Value)}
    (mapped : context.plain = .mapping entries) (step : String) :
    lookupStep step context = lookupMapping step entries := by
  simp only [lookupStep, kind, mapped]
  cases isIndexed entries <;> rfl

theorem lookup_of_mapping {context : Value} {entries : List (Value × Value)}
    (mapped : context.plain = .mapping entries) {name : String} (whole : ¬ IsDotted name) :
    context.lookup name = lookupMapping name entries := by
  rw [lookup, steps_of_not_isDotted whole, lookupSteps, lookupStep_of_mapping mapped]

theorem reached_steps (name : String) (context : Value) :
    reached (steps name) context = (context.lookup name).map (·.value) := rfl

theorem lookup_entriesBut {context : Value} {entries : List (Value × Value)}
    (mapped : context.plain = .mapping entries) {key : String} (dotted : IsDotted key)
    (name : String) : context.lookup name = lookup name (.mapping (entriesBut key entries)) := by
  obtain ⟨step, rest, split⟩ := List.exists_cons_of_ne_nil (steps_ne_nil name)
  have whole : ¬ IsDotted step := not_isDotted_of_mem_steps (show step ∈ steps name by simp [split])
  have other : step ≠ key := fun same => whole (same ▸ dotted)
  have first : lookupStep step context = lookupStep step (.mapping (entriesBut key entries)) := by
    rw [lookupStep_of_mapping mapped, lookupStep_of_mapping rfl, lookupMapping_entriesBut other]
  rw [lookup, lookup, split]
  exact lookupSteps_congr first rest

/-- A name that goes on behind a dot stands for what its end stands for in what its beginning stands
for, and is the empty text where that is closed. An entry whose key would be taken apart makes no
difference to any name. -/
theorem lookup_dotted (context : Value) :
    (∀ path rest : String, (∀ part ∈ Text.splitOnChar '.' path.toList, part ≠ []) →
      (context.lookup (path ++ "." ++ rest)).map (·.value) =
          (do let found ← context.lookup path
              let last ← found.value.lookup rest
              return last.value) ∧
        ∀ found, context.lookup path = .ok found → found.value.IsClosed →
          (context.lookup (path ++ "." ++ rest)).map (·.value) = .ok (.text "")) ∧
    ∀ key, IsDotted key → ∀ entries, context.plain = .mapping entries →
      ∀ name, context.lookup name = lookup name (.mapping (entriesBut key entries)) := by
  refine ⟨fun path rest solid => ?_, fun key dotted entries mapped name => ?_⟩
  · have composed : (context.lookup (path ++ "." ++ rest)).map (·.value) =
        (do let found ← context.lookup path
            let last ← found.value.lookup rest
            return last.value) := by
      rw [← reached_steps, steps_append solid,
        reached_append (steps_ne_nil path) (steps_ne_nil rest), reached_steps]
      cases context.lookup path with
      | error trouble => rfl
      | ok found => exact reached_steps rest found.value
    refine ⟨composed, fun found known closed => ?_⟩
    have nothing : found.value.lookup rest = .ok .nothing :=
      lookupSteps_of_isClosed closed (steps_ne_nil rest)
    rw [composed, known]
    simp only [bind, Except.bind, nothing]
    rfl
  · exact lookup_entriesBut mapped dotted name

/-- A name of three parts, the last of which begins with a dot and is not taken apart, in a list in
a mapping that also has the whole name as a key. -/
theorem lookup_dotted_mixed :
    let row : Value := .mapping [(.text ".b", .text "x")]
    let context : Value := .mapping [(.text "a", .list [row]), (.text "a.0..b", .int 1)]
    (∀ part ∈ Text.splitOnChar '.' "a.0".toList, part ≠ []) ∧
      (context.lookup "a.0..b").map (·.value) = .ok (.text "x") := by
  intro row context
  have solid : ∀ part ∈ Text.splitOnChar '.' "a.0".toList, part ≠ [] := by decide
  exact ⟨solid, ((lookup_dotted context).1 "a.0" ".b" solid).1⟩

end Value

end Logicless
