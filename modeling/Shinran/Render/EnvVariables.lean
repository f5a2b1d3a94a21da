/-
  Shinran.Render.EnvVariables
  ───────────────────────────
  **THE SCOPE AS ENVIRONMENT VARIABLES** (`extension::util`).

  A command finds the outputs of the variables before it in its environment:
  a single output under the name of its variable in upper case, and a field
  under the names of the variable and the field, joined by an underscore.
  The entries are written in the order in which the hash maps are iterated.

    • `Exports`                 — which value belongs under which name,
    • `convertToEnvVariables_iff` — every value is there under every order iff
                                  no name belongs to two of them,
    • `envVariables_overwritten` — where one does.
-/
import Shinran.Render.Util

namespace Shinran

variable [UnicodeTables]

/-! ## §1. The environment. -/

/-- The orders in which the scope is iterated, and the fields of each of its variables. -/
structure ScopeOrder where
  iter : List (String × ExtensionOutput) → List (String × ExtensionOutput)
  iterFields : String → List (String × String) → List (String × String)
  perm : ∀ entries, (iter entries).Perm entries
  perm_iterFields : ∀ name entries, (iterFields name entries).Perm entries

def ScopeOrder.canonical : ScopeOrder :=
  ⟨id, fun _ => id, fun _ => .refl _, fun _ _ => .refl _⟩

/-- The entries of a map as pairs. -/
def HashMap.pairs {κ β : Type*} (m : HashMap κ β) : List (κ × β) :=
  m.entries.map fun entry => (entry.1, entry.2)

/-- `format!("SHINRAN_{}", key.to_uppercase())`. -/
def envName (key : String) : String := "SHINRAN_" ++ fullUppercase key

/-- `format!("SHINRAN_{}_{}", key.to_uppercase(), sub_key.to_uppercase())`. -/
def envFieldName (key subKey : String) : String :=
  "SHINRAN_" ++ fullUppercase key ++ "_" ++ fullUppercase subKey

/-- What is written for one variable. -/
def envEntries (order : ScopeOrder) : String × ExtensionOutput → List (String × String)
  | (key, .single value) => [(envName key, value)]
  | (key, .multiple values) =>
      (order.iterFields key values.pairs).map fun (subKey, subValue) =>
        (envFieldName key subKey, subValue)

/-- `convert_to_env_variables`. -/
def convertToEnvVariables (order : ScopeOrder) (scope : Scope) : HashMap String String :=
  HashMap.insertEntries ∅ ((order.iter scope.pairs).flatMap (envEntries order))

/-! ## §2. What is exported. -/

/-- The value of a variable belongs under `SHINRAN_NAME`, that of a field under
`SHINRAN_NAME_FIELD`. -/
inductive Exports (scope : Scope) : String → String → Prop
  | single {key value : String} : scope.lookup key = some (.single value) →
      Exports scope ("SHINRAN_" ++ fullUppercase key) value
  | field {key subKey subValue : String} {values : HashMap String String} :
      scope.lookup key = some (.multiple values) → values.lookup subKey = some subValue →
      Exports scope ("SHINRAN_" ++ fullUppercase key ++ "_" ++ fullUppercase subKey) subValue

/-- Every value is in the environment under its name, whatever the order. -/
def EveryExported (scope : Scope) : Prop :=
  ∀ order name value, Exports scope name value →
    (convertToEnvVariables order scope).lookup name = some value

/-- The environment does not depend on the order. -/
def OrderFree (scope : Scope) : Prop :=
  ∀ order order' name, (convertToEnvVariables order scope).lookup name
    = (convertToEnvVariables order' scope).lookup name

omit [UnicodeTables] in
theorem HashMap.mem_pairs {κ β : Type*} [DecidableEq κ] {m : HashMap κ β} {k : κ} {b : β} :
    (k, b) ∈ m.pairs ↔ m.lookup k = some b := by
  have hentry : m.lookup k = some b ↔ (⟨k, b⟩ : Sigma fun _ => β) ∈ m.entries :=
    AList.mem_lookup_iff
  unfold HashMap.pairs
  rw [hentry, List.mem_map]
  constructor
  · intro h
    obtain ⟨entry, hmem, heq⟩ := h
    cases heq
    exact hmem
  · intro h
    exact ⟨_, h, rfl⟩

variable {scope : Scope} {name value : String}

/-- What is written is what is exported. -/
theorem mem_envEntries (order : ScopeOrder) :
    (name, value) ∈ (order.iter scope.pairs).flatMap (envEntries order)
      ↔ Exports scope name value := by
  have hiter : ∀ entry, entry ∈ order.iter scope.pairs
      ↔ scope.lookup entry.1 = some entry.2 := fun entry => by
    rw [(order.perm _).mem_iff]
    exact HashMap.mem_pairs
  simp only [List.mem_flatMap, hiter]
  constructor
  · intro h
    obtain ⟨⟨key, output⟩, hlookup, hmem⟩ := h
    cases output with
    | single value' =>
        obtain ⟨rfl, rfl⟩ : name = envName key ∧ value = value' := by
          simpa [envEntries] using hmem
        exact .single hlookup
    | multiple values =>
        obtain ⟨⟨subKey, subValue⟩, hfield, heq⟩ := List.mem_map.mp hmem
        cases heq
        exact .field hlookup
          (HashMap.mem_pairs.mp ((order.perm_iterFields key _).mem_iff.mp hfield))
  · intro h
    cases h with
    | @single key _ hlookup => exact ⟨(key, .single value), hlookup, by simp [envEntries, envName]⟩
    | @field key subKey _ values hlookup hfield =>
        refine ⟨(key, .multiple values), hlookup, List.mem_map.mpr ⟨(subKey, value), ?_, rfl⟩⟩
        exact (order.perm_iterFields key _).mem_iff.mpr (HashMap.mem_pairs.mpr hfield)

/-- The environment holds the entry that was written last. -/
theorem lookup_convertToEnvVariables (order : ScopeOrder) (scope : Scope) (name : String) :
    (convertToEnvVariables order scope).lookup name
      = lastEntry ((order.iter scope.pairs).flatMap (envEntries order)) name := by
  unfold convertToEnvVariables
  rw [HashMap.lookup_insertEntries, AList.lookup_empty, Option.or_none]

/-- Where a name belongs to one value only, that is found under it. -/
theorem lookup_convertToEnvVariables_iff
    (hunique : ∀ value value', Exports scope name value → Exports scope name value' →
      value' = value) (order : ScopeOrder) :
    (convertToEnvVariables order scope).lookup name = some value ↔ Exports scope name value := by
  rw [lookup_convertToEnvVariables, lastEntry_eq_some_iff, mem_envEntries]
  intro value' h h'
  exact hunique value value' ((mem_envEntries order).mp h) ((mem_envEntries order).mp h')

/-- **When every variable is exported.**  Under every iteration order each value is found under its
name, and the environment does not depend on the order, if and only if variables and fields
whose names coincide, in upper case and joined, have the same value. -/
theorem convertToEnvVariables_iff (scope : Scope) :
    (EveryExported scope ∧ OrderFree scope)
      ↔ ∀ name value value', Exports scope name value → Exports scope name value' →
        value' = value := by
  constructor
  · intro h name value value' hexports hexports'
    have hvalue := h.1 .canonical name value hexports
    rw [h.1 .canonical name value' hexports', Option.some.injEq] at hvalue
    exact hvalue
  · intro h
    refine ⟨fun order name value => (lookup_convertToEnvVariables_iff (h name) order).mpr, ?_⟩
    intro order order' name
    refine Option.ext fun value => ?_
    rw [lookup_convertToEnvVariables_iff (h name), lookup_convertToEnvVariables_iff (h name)]

/-! ## §3. Two variables with one name. -/

/-- The variable `a_b`, and the variable `a` with a field `b`. -/
def joined : Scope :=
  (AList.insert "a_b" (.single "1") ∅).insert "a" (.multiple (AList.insert "b" "2" ∅))

omit [UnicodeTables] in
/-- **One of the two values is lost**, and which one depends on the order. -/
theorem envVariables_overwritten :
    (@convertToEnvVariables .ascii .canonical joined).lookup "SHINRAN_A_B" = some "1"
      ∧ (@convertToEnvVariables .ascii ⟨List.reverse, fun _ => id, List.reverse_perm,
        fun _ _ => .refl _⟩ joined).lookup "SHINRAN_A_B" = some "2"
      ∧ ¬ @EveryExported .ascii joined ∧ ¬ @OrderFree .ascii joined := by
  have hfirst : (@convertToEnvVariables .ascii .canonical joined).lookup "SHINRAN_A_B"
      = some "1" := by decide
  have hsecond : (@convertToEnvVariables .ascii ⟨List.reverse, fun _ => id, List.reverse_perm,
      fun _ _ => .refl _⟩ joined).lookup "SHINRAN_A_B" = some "2" := by decide
  refine ⟨hfirst, hsecond, fun h => ?_, fun h => ?_⟩
  · have hexports : @Exports .ascii joined "SHINRAN_A_B" "2" :=
      @Exports.field .ascii joined "a" "b" "2" (AList.insert "b" "2" ∅) rfl rfl
    have hlookup := h .canonical _ _ hexports
    rw [hfirst] at hlookup
    exact absurd hlookup (by decide)
  · have hlookup := h .canonical _ "SHINRAN_A_B" |>.trans hsecond
    rw [hfirst] at hlookup
    exact absurd hlookup (by decide)

end Shinran
