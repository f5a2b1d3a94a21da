/-
  Shinran.Render.Injection
  ────────────────────────
  **INJECTION KEEPS THE SHAPE OF THE PARAMS.**

  The names that params depend on are collected by one traversal, and the
  outputs are injected by another.  Both get to every string, however deep.

    • `ValueInjected`       — one value is the other with its strings replaced,
    • `injectVariablesIntoValue_eq_ok` — which is what injection returns,
    • `injection_complete`  — it returns exactly if the names that were
                              collected can be read.
-/
import Shinran.Render.Util

namespace Shinran

/-! ## §1. Values with their strings replaced. -/

section
variable [UnicodeTables] (scope : Scope)

mutual
/-- The second value is the first one, with each of its strings replaced by what it renders to
in the scope. -/
inductive ValueInjected : Value → Value → Prop
  | null : ValueInjected .null .null
  | bool {b : Bool} : ValueInjected (.bool b) (.bool b)
  | number {n : Number} : ValueInjected (.number n) (.number n)
  | string {s s' : String} : renderVariables s scope = .ok s' →
      ValueInjected (.string s) (.string s')
  | array {values values' : List Value} : ArrayInjected values values' →
      ValueInjected (.array values) (.array values')
  | object {fields fields' : List (String × Value)} : FieldsInjected fields fields' →
      ValueInjected (.object fields) (.object fields')
/-- As many elements, one by one. -/
inductive ArrayInjected : List Value → List Value → Prop
  | nil : ArrayInjected [] []
  | cons {value value' : Value} {values values' : List Value} : ValueInjected value value' →
      ArrayInjected values values' → ArrayInjected (value :: values) (value' :: values')
/-- The same keys, one by one. -/
inductive FieldsInjected : List (String × Value) → List (String × Value) → Prop
  | nil : FieldsInjected [] []
  | cons {key : String} {value value' : Value} {fields fields' : List (String × Value)} :
      ValueInjected value value' → FieldsInjected fields fields' →
      FieldsInjected ((key, value) :: fields) ((key, value') :: fields')
end

end

section
variable [UnicodeTables] {scope : Scope}

/-! ## §2. What injection returns. -/

mutual
/-- **Injection returns the value with its strings replaced.** -/
theorem injectVariablesIntoValue_eq_ok : ∀ {value value' : Value},
    injectVariablesIntoValue scope value = .ok value' ↔ ValueInjected scope value value'
  | .null, _ | .bool _, _ | .number _, _ => by
      rw [injectVariablesIntoValue, Except.ok.injEq]
      constructor
      · intro h
        rw [← h]
        constructor
      · intro h
        cases h
        rfl
  | .string s, value' => by
      rw [injectVariablesIntoValue, map_eq_ok_iff]
      constructor
      · intro h
        obtain ⟨s', hs, rfl⟩ := h
        exact .string hs
      · intro h
        cases h with
        | string hs => exact ⟨_, hs, rfl⟩
  | .array values, value' => by
      rw [injectVariablesIntoValue, map_eq_ok_iff]
      constructor
      · intro h
        obtain ⟨values', hvalues, rfl⟩ := h
        exact .array (injectVariablesIntoArray_eq_ok.mp hvalues)
      · intro h
        cases h with
        | array hvalues => exact ⟨_, injectVariablesIntoArray_eq_ok.mpr hvalues, rfl⟩
  | .object fields, value' => by
      rw [injectVariablesIntoValue, map_eq_ok_iff]
      constructor
      · intro h
        obtain ⟨fields', hfields, rfl⟩ := h
        exact .object (injectVariablesIntoFields_eq_ok.mp hfields)
      · intro h
        cases h with
        | object hfields => exact ⟨_, injectVariablesIntoFields_eq_ok.mpr hfields, rfl⟩
theorem injectVariablesIntoArray_eq_ok : ∀ {values values' : List Value},
    injectVariablesIntoArray scope values = .ok values' ↔ ArrayInjected scope values values'
  | [], values' => by
      rw [injectVariablesIntoArray, Except.ok.injEq]
      constructor
      · intro h
        rw [← h]
        exact .nil
      · intro h
        cases h
        rfl
  | value :: values, values' => by
      rw [injectVariablesIntoArray_cons, bind_eq_ok_iff]
      constructor
      · intro h
        obtain ⟨head, hvalue, hmap⟩ := h
        obtain ⟨tail, htail, rfl⟩ := map_eq_ok_iff.mp hmap
        exact .cons (injectVariablesIntoValue_eq_ok.mp hvalue)
          (injectVariablesIntoArray_eq_ok.mp htail)
      · intro h
        cases h with
        | cons hhead htail =>
            exact ⟨_, injectVariablesIntoValue_eq_ok.mpr hhead,
              map_eq_ok_iff.mpr ⟨_, injectVariablesIntoArray_eq_ok.mpr htail, rfl⟩⟩
theorem injectVariablesIntoFields_eq_ok : ∀ {fields fields' : List (String × Value)},
    injectVariablesIntoFields scope fields = .ok fields' ↔ FieldsInjected scope fields fields'
  | [], fields' => by
      rw [injectVariablesIntoFields, Except.ok.injEq]
      constructor
      · intro h
        rw [← h]
        exact .nil
      · intro h
        cases h
        rfl
  | (key, value) :: fields, fields' => by
      rw [injectVariablesIntoFields_cons, bind_eq_ok_iff]
      constructor
      · intro h
        obtain ⟨head, hvalue, hmap⟩ := h
        obtain ⟨tail, htail, rfl⟩ := map_eq_ok_iff.mp hmap
        exact .cons (injectVariablesIntoValue_eq_ok.mp hvalue)
          (injectVariablesIntoFields_eq_ok.mp htail)
      · intro h
        cases h with
        | cons hhead htail =>
            exact ⟨_, injectVariablesIntoValue_eq_ok.mpr hhead,
              map_eq_ok_iff.mpr ⟨_, injectVariablesIntoFields_eq_ok.mpr htail, rfl⟩⟩
end

/-! ## §3. When it returns. -/

/-- **Injection is complete and keeps the shape of the params.**  It returns params exactly if
every name collected from them is in scope, and every reference in them to several outputs
picks one of these.  The params it returns have the same keys, array lengths and other leaves,
and every string is replaced by what it renders to. -/
theorem injection_complete (params : Params) (scope : Scope) :
    ((∃ params', injectVariablesIntoParams params scope = .ok params')
        ↔ (∀ name ∈ getParamsVariableNames params, (scope.lookup name).isSome)
          ∧ ∀ s, params.HasString s → ∀ caps ∈ VarRegex.captures s, ∀ results,
            scope.lookup caps.name = some (.multiple results) → caps.subname.isSome)
      ∧ ∀ params', injectVariablesIntoParams params scope = .ok params'
        ↔ FieldsInjected scope params params' := by
  refine ⟨?_, fun params' => injectVariablesIntoFields_eq_ok⟩
  rw [injectVariablesIntoParams_ok_iff]
  constructor
  · intro h
    refine ⟨fun name hname => ?_, fun s hs caps hcaps results hlook => ?_⟩
    · obtain ⟨s, hs, hmem⟩ := (mem_getParamsVariableNames params name).mp hname
      obtain ⟨caps, hcaps, rfl⟩ := List.mem_map.mp hmem
      obtain ⟨output, hlook, _⟩ := h s hs caps hcaps
      rw [hlook]
      rfl
    · obtain ⟨output, houtput, hsubname⟩ := h s hs caps hcaps
      rw [hlook, Option.some.injEq] at houtput
      exact hsubname results houtput.symm
  · intro h s hs caps hcaps
    have hname : caps.name ∈ getParamsVariableNames params :=
      (mem_getParamsVariableNames params caps.name).mpr ⟨s, hs, List.mem_map_of_mem hcaps⟩
    obtain ⟨output, hlook⟩ := Option.isSome_iff_exists.mp (h.1 caps.name hname)
    refine ⟨output, hlook, fun results hmultiple => h.2 s hs caps hcaps results ?_⟩
    rw [hlook, hmultiple]

end

end Shinran
