/-
  Shinran.Render.Util
  ───────────────────
  **NAMES, SUBSTITUTION AND INJECTION** (`renderer/util.rs`, `lib.rs`).

  Three traversals read variable references:

    • `getBodyVariableNames`, `getParamsVariableNames` — which names a text or
      a tree of params refers to,
    • `renderVariables` — the text with every reference replaced,
    • `injectVariablesIntoParams` — the same inside every string of the params.

  `mem_getParamsVariableNames` ties the second scan to the strings that occur
  anywhere inside the params; `renderVariables_ok_iff`, `renderVariables_congr`
  and their counterparts for params say when a substitution succeeds and which
  names of the scope it reads.
-/
import Shinran.Fallible
import Shinran.Render.VarRegex

namespace Shinran

/-! ## §1. Extension outputs and errors. -/

/-- `ExtensionOutput`. -/
inductive ExtensionOutput where
  | single (output : String)
  | multiple (results : HashMap String String)

/-- The outputs of the variables evaluated so far, by name. -/
abbrev Scope := HashMap String ExtensionOutput

/-- `RendererError`. -/
inductive RendererError where
  | missingVariable (what : String)
  | missingSubMatch
  | circularDependency (name dependency : String)
  deriving DecidableEq, Repr

/-- `anyhow::Error`: a renderer error, or the message of an error raised elsewhere. -/
inductive Error where
  | renderer (err : RendererError)
  | message (text : String)
  deriving DecidableEq, Repr

/-! ## §2. The names that occur in texts and params. -/

section
variable [UnicodeTables]

/-- `get_body_variable_names`. -/
def getBodyVariableNames (body : String) : List String :=
  (VarRegex.captures body).map (·.name)

mutual
/-- `get_value_variable_names_recursively`. -/
def getValueVariableNamesRecursively : Value → List String
  | .string s => getBodyVariableNames s
  | .array values => getArrayVariableNames values
  | .object fields => getFieldsVariableNames fields
  | .null | .bool _ | .number _ => []
/-- The loop over the elements of an array. -/
def getArrayVariableNames : List Value → List String
  | [] => []
  | value :: values => getValueVariableNamesRecursively value ++ getArrayVariableNames values
/-- The loop over the values of a map. -/
def getFieldsVariableNames : List (String × Value) → List String
  | [] => []
  | (_, value) :: fields =>
      getValueVariableNamesRecursively value ++ getFieldsVariableNames fields
end

/-- `get_params_variable_names`. -/
def getParamsVariableNames (params : Params) : List String := getFieldsVariableNames params

/-- `s` is one of the strings anywhere inside the value. -/
inductive Value.HasString : Value → String → Prop
  | here {s : String} : HasString (.string s) s
  | array {values : List Value} {value : Value} {s : String} :
      value ∈ values → HasString value s → HasString (.array values) s
  | object {fields : List (String × Value)} {key : String} {value : Value} {s : String} :
      (key, value) ∈ fields → HasString value s → HasString (.object fields) s

/-- `s` is one of the strings anywhere inside the params. -/
def Params.HasString (params : Params) (s : String) : Prop :=
  ∃ key value, (key, value) ∈ params ∧ value.HasString s

/-- The value, or a string anywhere inside it, refers to `name`. -/
def Value.RefersTo (value : Value) (name : String) : Prop :=
  ∃ s, value.HasString s ∧ name ∈ getBodyVariableNames s

mutual
theorem mem_getValueVariableNamesRecursively (name : String) :
    ∀ value : Value, name ∈ getValueVariableNamesRecursively value ↔ value.RefersTo name
  | .null | .bool _ | .number _ => by
      simp only [getValueVariableNamesRecursively, List.not_mem_nil, false_iff]
      rintro ⟨s, h, _⟩
      cases h
  | .string s => by
      simp only [getValueVariableNamesRecursively]
      refine ⟨fun h => ⟨s, .here, h⟩, ?_⟩
      rintro ⟨_, h, hmem⟩
      cases h
      exact hmem
  | .array values => by
      rw [getValueVariableNamesRecursively, mem_getArrayVariableNames name values]
      constructor
      · rintro ⟨value, hvalue, s, hs, hmem⟩
        exact ⟨s, .array hvalue hs, hmem⟩
      · rintro ⟨s, h, hmem⟩
        cases h with
        | array hvalue hs => exact ⟨_, hvalue, s, hs, hmem⟩
  | .object fields => by
      rw [getValueVariableNamesRecursively, mem_getFieldsVariableNames name fields]
      constructor
      · rintro ⟨key, value, hfield, s, hs, hmem⟩
        exact ⟨s, .object hfield hs, hmem⟩
      · rintro ⟨s, h, hmem⟩
        cases h with
        | object hfield hs => exact ⟨_, _, hfield, s, hs, hmem⟩
theorem mem_getArrayVariableNames (name : String) :
    ∀ values : List Value, name ∈ getArrayVariableNames values
      ↔ ∃ value ∈ values, value.RefersTo name
  | [] => by simp [getArrayVariableNames]
  | value :: values => by
      rw [getArrayVariableNames, List.mem_append,
        mem_getValueVariableNamesRecursively name value, mem_getArrayVariableNames name values]
      simp
theorem mem_getFieldsVariableNames (name : String) :
    ∀ fields : List (String × Value), name ∈ getFieldsVariableNames fields
      ↔ ∃ key value, (key, value) ∈ fields ∧ value.RefersTo name
  | [] => by simp [getFieldsVariableNames]
  | (key, value) :: fields => by
      rw [getFieldsVariableNames, List.mem_append,
        mem_getValueVariableNamesRecursively name value, mem_getFieldsVariableNames name fields]
      constructor
      · rintro (h | ⟨key', value', hmem, h⟩)
        · exact ⟨key, value, List.mem_cons_self, h⟩
        · exact ⟨key', value', List.mem_cons_of_mem _ hmem, h⟩
      · rintro ⟨key', value', hmem, h⟩
        rcases List.mem_cons.mp hmem with heq | hmem
        · obtain ⟨rfl, rfl⟩ := Prod.mk.inj heq
          exact Or.inl h
        · exact Or.inr ⟨key', value', hmem, h⟩
end

/-- **The scan of the params finds exactly the names that a string inside them refers to.** -/
theorem mem_getParamsVariableNames (params : Params) (name : String) :
    name ∈ getParamsVariableNames params
      ↔ ∃ s, params.HasString s ∧ name ∈ getBodyVariableNames s := by
  rw [getParamsVariableNames, mem_getFieldsVariableNames]
  constructor
  · rintro ⟨key, value, hmem, s, hs, hname⟩
    exact ⟨s, ⟨key, value, hmem, hs⟩, hname⟩
  · rintro ⟨s, ⟨key, value, hmem, hs⟩, hname⟩
    exact ⟨key, value, hmem, s, hs, hname⟩

/-! ## §3. Substitution into a text. -/

/-- `unescape_variable_inections`. -/
def unescapeVariableInections (body : String) : String :=
  -- escaped pairs of braces lose their backslashes, the opening ones first
  replaceAll (replaceAll body "\\\x7b\\\x7b" "\x7b\x7b") "\\\x7d\\\x7d" "\x7d\x7d"

/-- What a reference is replaced by, and the error it raises. -/
def renderReference (scope : Scope) (caps : Captures) : String × Option RendererError :=
  match scope.lookup caps.name with
  | some (.single output) => (output, none)
  | some (.multiple results) =>
      match caps.subname with
      -- an output that the variable does not have is the empty text
      | some sub => ((results.lookup sub).getD "", none)
      | none => ("", some (.missingVariable
          ("nested name missing from multi-value variable: " ++ caps.name)))
  | none => ("", some (.missingVariable ("variable '" ++ caps.name ++ "' is missing")))

/-- The replaced text, and the last error raised while replacing. -/
def renderPieces (scope : Scope) : List VarRegex.Piece → List Char × Option RendererError
  | [] => ([], none)
  | .lit c :: rest => (c :: (renderPieces scope rest).1, (renderPieces scope rest).2)
  | .ref caps :: rest =>
      ((renderReference scope caps).1.toList ++ (renderPieces scope rest).1,
        -- the text is scanned to its end, and the last error is the one reported
        (renderPieces scope rest).2.or (renderReference scope caps).2)

/-- `render_variables`. -/
def renderVariables (body : String) (scope : Scope) : Except Error String :=
  match renderPieces scope (VarRegex.pieces body) with
  | (_, some err) => .error (.renderer err)
  | (output, none) => .ok (unescapeVariableInections (String.ofList output))

/-! ## §4. Injection into params. -/

mutual
/-- `inject_variables_into_value`. -/
def injectVariablesIntoValue (scope : Scope) : Value → Except Error Value
  | .string s => (renderVariables s scope).map .string
  | .array values => (injectVariablesIntoArray scope values).map .array
  | .object fields => (injectVariablesIntoFields scope fields).map .object
  | .null => .ok .null
  | .bool b => .ok (.bool b)
  | .number n => .ok (.number n)
/-- The loop over the elements of an array. -/
def injectVariablesIntoArray (scope : Scope) : List Value → Except Error (List Value)
  | [] => .ok []
  | value :: values =>
      match injectVariablesIntoValue scope value with
      | .error err => .error err
      | .ok value' => (injectVariablesIntoArray scope values).map (value' :: ·)
/-- The loop over the values of a map. -/
def injectVariablesIntoFields (scope : Scope) :
    List (String × Value) → Except Error (List (String × Value))
  | [] => .ok []
  | (key, value) :: fields =>
      match injectVariablesIntoValue scope value with
      | .error err => .error err
      | .ok value' => (injectVariablesIntoFields scope fields).map ((key, value') :: ·)
end

/-- `inject_variables_into_params`. -/
def injectVariablesIntoParams (params : Params) (scope : Scope) : Except Error Params :=
  injectVariablesIntoFields scope params

/-- The first element that fails ends the loop. -/
theorem injectVariablesIntoArray_cons (scope : Scope) (value : Value) (values : List Value) :
    injectVariablesIntoArray scope (value :: values)
      = injectVariablesIntoValue scope value >>= fun value' =>
        (injectVariablesIntoArray scope values).map (value' :: ·) := by
  rw [injectVariablesIntoArray]
  cases injectVariablesIntoValue scope value <;> rfl

theorem injectVariablesIntoFields_cons (scope : Scope) (key : String) (value : Value)
    (fields : List (String × Value)) :
    injectVariablesIntoFields scope ((key, value) :: fields)
      = injectVariablesIntoValue scope value >>= fun value' =>
        (injectVariablesIntoFields scope fields).map ((key, value') :: ·) := by
  rw [injectVariablesIntoFields]
  cases injectVariablesIntoValue scope value <;> rfl

/-! ## §5. What substitution reads, and when it succeeds. -/

theorem mem_captures {text : String} {caps : Captures} :
    caps ∈ VarRegex.captures text ↔ .ref caps ∈ VarRegex.pieces text := by
  unfold VarRegex.captures
  rw [List.mem_filterMap]
  constructor
  · intro h
    obtain ⟨piece, hpiece, heq⟩ := h
    cases piece with
    | lit c => simp at heq
    | ref caps' => simpa [← Option.some.inj heq] using hpiece
  · intro h
    exact ⟨_, h, rfl⟩

/-- The reference can be replaced: its name is in scope, and a subname picks one of several
outputs. -/
def Readable (scope : Scope) (caps : Captures) : Prop :=
  ∃ output, scope.lookup caps.name = some output
    ∧ ∀ results, output = .multiple results → caps.subname.isSome

omit [UnicodeTables] in
theorem renderReference_snd_eq_none {scope : Scope} {caps : Captures} :
    (renderReference scope caps).2 = none ↔ Readable scope caps := by
  unfold renderReference Readable
  cases hlook : scope.lookup caps.name with
  | none => simp
  | some output =>
      cases output with
      | single output => simp
      | multiple results => cases hsub : caps.subname <;> simp

omit [UnicodeTables] in
theorem renderPieces_snd_eq_none {scope : Scope} :
    ∀ pieces : List VarRegex.Piece, (renderPieces scope pieces).2 = none
      ↔ ∀ caps, .ref caps ∈ pieces → Readable scope caps
  | [] => by simp [renderPieces]
  | .lit c :: pieces => by simp [renderPieces, renderPieces_snd_eq_none pieces]
  | .ref caps :: pieces => by
      show (renderPieces scope pieces).2.or (renderReference scope caps).2 = none ↔ _
      rw [Option.or_eq_none_iff, renderPieces_snd_eq_none pieces, renderReference_snd_eq_none]
      simp [and_comm]

/-- **A substitution succeeds exactly when every reference can be replaced.** -/
theorem renderVariables_ok_iff {body : String} {scope : Scope} :
    (∃ output, renderVariables body scope = .ok output)
      ↔ ∀ caps ∈ VarRegex.captures body, Readable scope caps := by
  simp only [mem_captures]
  rw [← renderPieces_snd_eq_none]
  unfold renderVariables
  cases hpieces : renderPieces scope (VarRegex.pieces body) with
  | mk output err => cases err <;> simp

/-- Every reference in the value can be replaced. -/
def Value.Readable (scope : Scope) (value : Value) : Prop :=
  ∀ s, value.HasString s → ∀ caps ∈ VarRegex.captures s, Shinran.Readable scope caps

mutual
theorem injectVariablesIntoValue_ok_iff (scope : Scope) : ∀ value : Value,
    (∃ value', injectVariablesIntoValue scope value = .ok value') ↔ value.Readable scope
  | .null | .bool _ | .number _ => by
      refine ⟨fun _ s h => ?_, fun _ => ⟨_, rfl⟩⟩
      cases h
  | .string s => by
      unfold injectVariablesIntoValue
      rw [exists_map_eq_ok, renderVariables_ok_iff]
      constructor
      · intro h s' hs'
        cases hs'
        exact h
      · intro h
        exact h s .here
  | .array values => by
      unfold injectVariablesIntoValue
      rw [exists_map_eq_ok, injectVariablesIntoArray_ok_iff scope values]
      constructor
      · intro h s hs
        cases hs with
        | array hmem hs => exact h _ hmem s hs
      · intro h value hmem s hs
        exact h s (.array hmem hs)
  | .object fields => by
      unfold injectVariablesIntoValue
      rw [exists_map_eq_ok, injectVariablesIntoFields_ok_iff scope fields]
      constructor
      · intro h s hs
        cases hs with
        | object hmem hs => exact h _ _ hmem s hs
      · intro h key value hmem s hs
        exact h s (.object hmem hs)
theorem injectVariablesIntoArray_ok_iff (scope : Scope) : ∀ values : List Value,
    (∃ values', injectVariablesIntoArray scope values = .ok values')
      ↔ ∀ value ∈ values, value.Readable scope
  | [] => by simp [injectVariablesIntoArray]
  | value :: values => by
      have hhead := injectVariablesIntoValue_ok_iff scope value
      have htail := injectVariablesIntoArray_ok_iff scope values
      rw [injectVariablesIntoArray_cons, List.forall_mem_cons, ← hhead, ← htail]
      cases injectVariablesIntoValue scope value with
      | error err => simp
      | ok value' => cases injectVariablesIntoArray scope values <;> simp [Except.map]
theorem injectVariablesIntoFields_ok_iff (scope : Scope) :
    ∀ fields : List (String × Value),
      (∃ fields', injectVariablesIntoFields scope fields = .ok fields')
        ↔ ∀ key value, (key, value) ∈ fields → value.Readable scope
  | [] => by simp [injectVariablesIntoFields]
  | (key, value) :: fields => by
      have hhead := injectVariablesIntoValue_ok_iff scope value
      have htail := injectVariablesIntoFields_ok_iff scope fields
      have hsplit : (∀ k v, (k, v) ∈ (key, value) :: fields → v.Readable scope)
          ↔ value.Readable scope ∧ ∀ k v, (k, v) ∈ fields → v.Readable scope := by
        constructor
        · intro h
          exact ⟨h _ _ List.mem_cons_self, fun k v hmem => h k v (List.mem_cons_of_mem _ hmem)⟩
        · intro h k v hmem
          cases hmem with
          | head => exact h.1
          | tail _ hmem => exact h.2 k v hmem
      rw [injectVariablesIntoFields_cons, hsplit, ← hhead, ← htail]
      cases injectVariablesIntoValue scope value with
      | error err => simp
      | ok value' => cases injectVariablesIntoFields scope fields <;> simp [Except.map]
end

/-- **An injection succeeds exactly when every reference inside the params can be replaced.** -/
theorem injectVariablesIntoParams_ok_iff {params : Params} {scope : Scope} :
    (∃ params', injectVariablesIntoParams params scope = .ok params')
      ↔ ∀ s, params.HasString s → ∀ caps ∈ VarRegex.captures s, Readable scope caps := by
  unfold injectVariablesIntoParams
  rw [injectVariablesIntoFields_ok_iff]
  constructor
  · intro h s hs
    obtain ⟨key, value, hmem, hs⟩ := hs
    exact h key value hmem s hs
  · intro h key value hmem s hs
    exact h s ⟨key, value, hmem, hs⟩

omit [UnicodeTables] in
theorem renderPieces_congr {scope scope' : Scope} :
    ∀ pieces : List VarRegex.Piece,
      (∀ caps, .ref caps ∈ pieces → scope.lookup caps.name = scope'.lookup caps.name) →
      renderPieces scope pieces = renderPieces scope' pieces
  | [], _ => rfl
  | .lit c :: pieces, h => by
      rw [renderPieces, renderPieces,
        renderPieces_congr pieces fun caps hmem => h caps (List.mem_cons_of_mem _ hmem)]
  | .ref caps :: pieces, h => by
      have hhead : renderReference scope caps = renderReference scope' caps := by
        unfold renderReference
        rw [h caps List.mem_cons_self]
      rw [renderPieces, renderPieces, hhead,
        renderPieces_congr pieces fun caps hmem => h caps (List.mem_cons_of_mem _ hmem)]

/-- A substitution reads the scope only at the names in the text. -/
theorem renderVariables_congr {body : String} {scope scope' : Scope}
    (h : ∀ name ∈ getBodyVariableNames body, scope.lookup name = scope'.lookup name) :
    renderVariables body scope = renderVariables body scope' := by
  unfold renderVariables
  rw [renderPieces_congr (VarRegex.pieces body) fun caps hmem =>
    h caps.name (List.mem_map_of_mem (mem_captures.mpr hmem))]

mutual
theorem injectVariablesIntoValue_congr {scope scope' : Scope} : ∀ value : Value,
    (∀ name ∈ getValueVariableNamesRecursively value,
      scope.lookup name = scope'.lookup name) →
    injectVariablesIntoValue scope value = injectVariablesIntoValue scope' value
  | .null, _ | .bool _, _ | .number _, _ => rfl
  | .string s, h => by
      rw [injectVariablesIntoValue, injectVariablesIntoValue, renderVariables_congr h]
  | .array values, h => by
      rw [injectVariablesIntoValue, injectVariablesIntoValue,
        injectVariablesIntoArray_congr values h]
  | .object fields, h => by
      rw [injectVariablesIntoValue, injectVariablesIntoValue,
        injectVariablesIntoFields_congr fields h]
theorem injectVariablesIntoArray_congr {scope scope' : Scope} : ∀ values : List Value,
    (∀ name ∈ getArrayVariableNames values, scope.lookup name = scope'.lookup name) →
    injectVariablesIntoArray scope values = injectVariablesIntoArray scope' values
  | [], _ => rfl
  | value :: values, h => by
      rw [injectVariablesIntoArray, injectVariablesIntoArray,
        injectVariablesIntoValue_congr value fun name hname =>
          h name (List.mem_append_left _ hname),
        injectVariablesIntoArray_congr values fun name hname =>
          h name (List.mem_append_right _ hname)]
theorem injectVariablesIntoFields_congr {scope scope' : Scope} :
    ∀ fields : List (String × Value),
      (∀ name ∈ getFieldsVariableNames fields, scope.lookup name = scope'.lookup name) →
      injectVariablesIntoFields scope fields = injectVariablesIntoFields scope' fields
  | [], _ => rfl
  | (key, value) :: fields, h => by
      rw [injectVariablesIntoFields, injectVariablesIntoFields,
        injectVariablesIntoValue_congr value fun name hname =>
          h name (List.mem_append_left _ hname),
        injectVariablesIntoFields_congr fields fun name hname =>
          h name (List.mem_append_right _ hname)]
end

/-- An injection reads the scope only at the names that the scan of the params finds. -/
theorem injectVariablesIntoParams_congr {params : Params} {scope scope' : Scope}
    (h : ∀ name ∈ getParamsVariableNames params, scope.lookup name = scope'.lookup name) :
    injectVariablesIntoParams params scope = injectVariablesIntoParams params scope' :=
  injectVariablesIntoFields_congr params h

end

end Shinran
