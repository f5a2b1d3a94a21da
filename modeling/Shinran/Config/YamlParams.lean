/-
  Shinran.Config.YamlParams
  ─────────────────────────
  **FROM YAML TO PARAMS** (`matches/group/loader/yaml/util.rs`).

  A YAML mapping becomes params, value by value.  It is refused where params
  have no room for it:

    • `convertValue`, `convertParams` — the conversion,
    • `convertParams_ok_iff`          — what it accepts,
    • `convertEntries_equal`          — what it returns is, written as YAML
                                        again, the mapping it was made of,
    • `convertsExactly_iff`           — when it accepts what has strings for
                                        keys, and nothing else.
-/
import Mathlib.Algebra.Group.Nat.Defs
import Shinran.Render.Util

namespace Shinran

/-! ## §1. YAML. -/

/-- `serde_yaml_ng::Number`; integers below zero have a representation of their own. -/
inductive YamlNumber where
  | posInt (n : UInt64)
  | negInt (i : Int64) (neg : i < 0)
  | float (bits : UInt64)
  deriving DecidableEq, Repr

namespace YamlNumber

def isI64 : YamlNumber → Bool
  | posInt n => n.toNat < 2 ^ 63
  | negInt _ _ => true
  | float _ => false

def asI64 : YamlNumber → Option Int64
  | posInt n => if n.toNat < 2 ^ 63 then some n.toInt64 else none
  | negInt i _ => some i
  | float _ => none

def isU64 : YamlNumber → Bool
  | posInt _ => true
  | negInt _ _ | float _ => false

def asU64 : YamlNumber → Option UInt64
  | posInt n => some n
  | negInt _ _ | float _ => none

def isF64 : YamlNumber → Bool
  | float _ => true
  | posInt _ | negInt _ _ => false

/-- `as_f64`, of a double. -/
def asF64 : YamlNumber → Option UInt64
  | float bits => some bits
  | posInt _ | negInt _ _ => none

end YamlNumber

/-- `serde_yaml_ng::Value`; a mapping keeps the order of the file. -/
inductive YamlValue where
  | null
  | bool (b : Bool)
  | number (n : YamlNumber)
  | string (s : String)
  | sequence (values : List YamlValue)
  | mapping (entries : List (YamlValue × YamlValue))
  | tagged (tag : String) (value : YamlValue)
  deriving Repr

/-- A value at any depth, the value itself included. -/
inductive YamlValue.Contains : YamlValue → YamlValue → Prop
  | here {value : YamlValue} : Contains value value
  | sequence {values : List YamlValue} {value inner : YamlValue} :
      value ∈ values → Contains value inner → Contains (.sequence values) inner
  | mapping {entries : List (YamlValue × YamlValue)} {key value inner : YamlValue} :
      (key, value) ∈ entries → Contains value inner → Contains (.mapping entries) inner
  | tagged {tag : String} {value inner : YamlValue} :
      Contains value inner → Contains (.tagged tag value) inner

/-- At every depth. -/
def YamlValue.Throughout (p : YamlValue → Prop) (value : YamlValue) : Prop :=
  ∀ inner, value.Contains inner → p inner

/-- A mapping does not have a key twice. -/
def YamlValue.UniqueKeys : YamlValue → Prop
  | .mapping entries => (entries.map (·.1)).Nodup
  | _ => True

/-- `serde_yaml_ng::Mapping`. -/
structure Mapping where
  entries : List (YamlValue × YamlValue)
  unique : (YamlValue.mapping entries).Throughout YamlValue.UniqueKeys

/-! ## §2. The conversion. -/

inductive ConversionError where
  /-- "invalid key format" -/
  | invalidKeyFormat
  /-- "invalid number format" -/
  | invalidNumberFormat
  /-- What `i64::try_from` returns on an integer that is too large. -/
  | tryFromInt
  deriving DecidableEq, Repr

/-- `Option::ok_or`. -/
def okOr {α : Type} (error : ConversionError) : Option α → Except ConversionError α
  | some a => .ok a
  | none => .error error

/-- `i64::try_from`. -/
def tryIntoI64 (n : UInt64) : Except ConversionError Int64 :=
  if n.toNat < 2 ^ 63 then .ok n.toInt64 else .error .tryFromInt

/-- A number, in `convert_value`. -/
def convertNumber (n : YamlNumber) : Except ConversionError Number :=
  if n.isI64 then (okOr .invalidNumberFormat n.asI64).map .integer
  else if n.isU64 then do
    let n ← okOr .invalidNumberFormat n.asU64
    (tryIntoI64 n).map .integer
  else if n.isF64 then (okOr .invalidNumberFormat n.asF64).map .float
  else .error .invalidNumberFormat

/-- `params.insert(key, value)`. -/
def Params.insert (params : Params) (key : String) (value : Value) : Params :=
  params.filter (fun field => field.1 ≠ key) ++ [(key, value)]

section
variable (asStr : YamlValue → Option String)

mutual
/-- `convert_value`. -/
def convertValue : YamlValue → Except ConversionError Value
  | .null => .ok .null
  | .bool b => .ok (.bool b)
  | .number n => (convertNumber n).map .number
  | .string s => .ok (.string s)
  | .sequence values => (convertSequence values).map .array
  | .mapping entries => (convertEntries [] entries).map .object
  | .tagged _ _ => .error .invalidKeyFormat
/-- The elements of a sequence. -/
def convertSequence : List YamlValue → Except ConversionError (List Value)
  | [] => .ok []
  | value :: values => do
      let value ← convertValue value
      (convertSequence values).map (value :: ·)
/-- The loop of `convert_params`. -/
def convertEntries (params : Params) :
    List (YamlValue × YamlValue) → Except ConversionError Params
  | [] => .ok params
  | (key, value) :: entries => do
      let key ← okOr .invalidKeyFormat (asStr key)
      let value ← convertValue value
      convertEntries (params.insert key value) entries
end

/-- `convert_params`. -/
def convertParams (m : Mapping) : Except ConversionError Params := convertEntries asStr [] m.entries

/-! ## §3. What is accepted. -/

/-- The conversion accepts the value, as far as the value itself goes. -/
def YamlValue.Accepted : YamlValue → Prop
  | .number (.posInt n) => n.toNat < 2 ^ 63
  | .mapping entries => ∀ entry ∈ entries, (asStr entry.1).isSome
  | .tagged _ _ => False
  | _ => True

end

section
variable {p : YamlValue → Prop}

theorem YamlValue.throughout_sequence {values : List YamlValue} :
    (YamlValue.sequence values).Throughout p
      ↔ p (.sequence values) ∧ ∀ value ∈ values, value.Throughout p := by
  constructor
  · intro h
    exact ⟨h _ .here, fun value hvalue inner hinner => h inner (.sequence hvalue hinner)⟩
  · intro h inner hinner
    cases hinner with
    | here => exact h.1
    | sequence hvalue hinner => exact h.2 _ hvalue inner hinner

theorem YamlValue.throughout_mapping {entries : List (YamlValue × YamlValue)} :
    (YamlValue.mapping entries).Throughout p
      ↔ p (.mapping entries) ∧ ∀ entry ∈ entries, entry.2.Throughout p := by
  constructor
  · intro h
    exact ⟨h _ .here, fun entry hentry inner hinner => h inner (.mapping hentry hinner)⟩
  · intro h inner hinner
    cases hinner with
    | here => exact h.1
    | mapping hentry hinner => exact h.2 _ hentry inner hinner

end

section
variable {asStr : YamlValue → Option String}

theorem okOr_eq_ok {α : Type} {error : ConversionError} {a? : Option α} {a : α} :
    okOr error a? = .ok a ↔ a? = some a := by
  cases a? <;> simp [okOr]

theorem tryIntoI64_eq_ok {n : UInt64} {i : Int64} :
    tryIntoI64 n = .ok i ↔ n.toNat < 2 ^ 63 ∧ n.toInt64 = i := by
  unfold tryIntoI64
  by_cases h : n.toNat < 2 ^ 63
  · rw [if_pos h, Except.ok.injEq, and_iff_right h]
  · rw [if_neg h]
    exact iff_of_false (by simp) fun hlt => h hlt.1

/-- Both tests on an unsigned integer come to the same. -/
theorem convertNumber_posInt (n : UInt64) :
    convertNumber (.posInt n) = (tryIntoI64 n).map .integer := by
  unfold convertNumber tryIntoI64 YamlNumber.isI64 YamlNumber.asI64
  by_cases h : n.toNat < 2 ^ 63
  · simp only [h, decide_true, if_true]
    rfl
  · simp only [h, decide_false, Bool.false_eq_true, if_false]
    show (tryIntoI64 n).map _ = _
    rw [tryIntoI64, if_neg h]

/-- A number is accepted unless it is too large. -/
theorem convertNumber_ok_iff {n : YamlNumber} :
    (∃ m, convertNumber n = .ok m) ↔ (YamlValue.number n).Accepted asStr := by
  cases n with
  | posInt n =>
      rw [convertNumber_posInt, exists_map_eq_ok]
      simp only [tryIntoI64_eq_ok, exists_and_left, exists_eq', and_true]
      rfl
  | negInt i neg => exact iff_of_true ⟨.integer i, rfl⟩ trivial
  | float bits => exact iff_of_true ⟨.float bits, rfl⟩ trivial

mutual
/-- **What `convert_value` accepts.** -/
theorem convertValue_ok_iff : ∀ value : YamlValue,
    (∃ v, convertValue asStr value = .ok v) ↔ value.Throughout (YamlValue.Accepted asStr)
  | .null | .bool _ | .string _ => by
      refine iff_of_true ⟨_, by rw [convertValue]⟩ fun inner h => ?_
      cases h
      trivial
  | .number n => by
      rw [convertValue, exists_map_eq_ok, @convertNumber_ok_iff asStr]
      constructor
      · intro h inner hinner
        cases hinner
        exact h
      · intro h
        exact h _ .here
  | .sequence values => by
      rw [convertValue, exists_map_eq_ok, convertSequence_ok_iff values,
        YamlValue.throughout_sequence]
      exact (and_iff_right trivial).symm
  | .mapping entries => by
      rw [convertValue, exists_map_eq_ok, convertEntries_ok_iff [] entries,
        YamlValue.throughout_mapping]
      exact forall₂_and
  | .tagged tag value => by
      rw [convertValue]
      refine iff_of_false (by simp) fun h => ?_
      exact h _ .here
theorem convertSequence_ok_iff : ∀ values : List YamlValue,
    (∃ vs, convertSequence asStr values = .ok vs)
      ↔ ∀ value ∈ values, value.Throughout (YamlValue.Accepted asStr)
  | [] => by simp [convertSequence]
  | value :: values => by
      rw [List.forall_mem_cons, ← convertValue_ok_iff value, ← convertSequence_ok_iff values,
        convertSequence]
      simp only [bind_eq_ok_iff, map_eq_ok_iff]
      constructor
      · intro h
        obtain ⟨_, v, hv, vs, hvs, _⟩ := h
        exact ⟨⟨v, hv⟩, vs, hvs⟩
      · intro h
        obtain ⟨⟨v, hv⟩, vs, hvs⟩ := h
        exact ⟨_, v, hv, vs, hvs, rfl⟩
theorem convertEntries_ok_iff : ∀ (params : Params) (entries : List (YamlValue × YamlValue)),
    (∃ params', convertEntries asStr params entries = .ok params')
      ↔ ∀ entry ∈ entries, (asStr entry.1).isSome
        ∧ entry.2.Throughout (YamlValue.Accepted asStr)
  | params, [] => by simp [convertEntries]
  | params, (key, value) :: entries => by
      rw [List.forall_mem_cons, Option.isSome_iff_exists, ← convertValue_ok_iff value,
        convertEntries]
      simp only [bind_eq_ok_iff, okOr_eq_ok]
      constructor
      · intro h
        obtain ⟨params', k, hk, v, hv, hrest⟩ := h
        exact ⟨⟨⟨k, hk⟩, v, hv⟩, (convertEntries_ok_iff _ entries).mp ⟨params', hrest⟩⟩
      · intro h
        obtain ⟨⟨⟨k, hk⟩, v, hv⟩, hrest⟩ := h
        obtain ⟨params', hparams⟩ := (convertEntries_ok_iff (params.insert k v) entries).mpr hrest
        exact ⟨params', k, hk, v, hv, hparams⟩
end

/-- **What `convert_params` accepts.** -/
theorem convertParams_ok_iff {m : Mapping} :
    (∃ params, convertParams asStr m = .ok params)
      ↔ (YamlValue.mapping m.entries).Throughout (YamlValue.Accepted asStr) := by
  rw [convertParams, convertEntries_ok_iff, YamlValue.throughout_mapping]
  exact forall₂_and

end

/-! ## §4. Params, written as YAML. -/

/-- `Number::from(i64)`. -/
def YamlNumber.ofI64 (i : Int64) : YamlNumber :=
  if neg : i < 0 then .negInt i neg else .posInt i.toUInt64

/-- The order in which the hash maps of the params are iterated. -/
structure ParamsOrder where
  iter : List (YamlValue × YamlValue) → List (YamlValue × YamlValue)
  perm : ∀ entries, (iter entries).Perm entries

mutual
/-- The value, written as YAML. -/
def Value.toYaml (order : ParamsOrder) : Value → YamlValue
  | .null => .null
  | .bool b => .bool b
  | .number (.integer i) => .number (.ofI64 i)
  | .number (.float bits) => .number (.float bits)
  | .string s => .string s
  | .array values => .sequence (arrayToYaml order values)
  | .object fields => .mapping (order.iter (fieldsToYaml order fields))
/-- The values of an array. -/
def arrayToYaml (order : ParamsOrder) : List Value → List YamlValue
  | [] => []
  | value :: values => value.toYaml order :: arrayToYaml order values
/-- The entries of a map. -/
def fieldsToYaml (order : ParamsOrder) : List (String × Value) → List (YamlValue × YamlValue)
  | [] => []
  | (key, value) :: fields => (.string key, value.toYaml order) :: fieldsToYaml order fields
end

mutual
/-- Equality of YAML: sequences in order, mappings as sets of keys and values. -/
inductive YamlEqual : YamlValue → YamlValue → Prop
  | refl {value : YamlValue} : YamlEqual value value
  | sequence {values values' : List YamlValue} : SequenceEqual values values' →
      YamlEqual (.sequence values) (.sequence values')
  | mapping {entries reordered entries' : List (YamlValue × YamlValue)} :
      entries.Perm reordered → EntriesEqual reordered entries' →
      YamlEqual (.mapping entries) (.mapping entries')
/-- Element by element. -/
inductive SequenceEqual : List YamlValue → List YamlValue → Prop
  | nil : SequenceEqual [] []
  | cons {value value' : YamlValue} {values values' : List YamlValue} :
      YamlEqual value value' → SequenceEqual values values' →
      SequenceEqual (value :: values) (value' :: values')
/-- Entry by entry. -/
inductive EntriesEqual :
    List (YamlValue × YamlValue) → List (YamlValue × YamlValue) → Prop
  | nil : EntriesEqual [] []
  | cons {key value value' : YamlValue} {entries entries' : List (YamlValue × YamlValue)} :
      YamlEqual value value' → EntriesEqual entries entries' →
      EntriesEqual ((key, value) :: entries) ((key, value') :: entries')
end

/-- The keys of a mapping are strings. -/
def YamlValue.StringKeys : YamlValue → Prop
  | .mapping entries => ∀ entry ∈ entries, ∃ s, entry.1 = .string s
  | _ => True

/-- `Value::as_str`, of the YAML library: a string is read, and nothing else but perhaps a value
with a tag. -/
structure AsStrLaws (asStr : YamlValue → Option String) : Prop where
  string : ∀ s, asStr (.string s) = some s
  other : ∀ value, (asStr value).isSome →
    (∃ s, value = .string s) ∨ ∃ tag inner, value = .tagged tag inner

section
variable {asStr : YamlValue → Option String} {order : ParamsOrder}

theorem Params.insert_of_forall_ne {params : Params} {key : String} {value : Value}
    (h : ∀ field ∈ params, field.1 ≠ key) :
    params.insert key value = params ++ [(key, value)] := by
  unfold Params.insert
  rw [List.filter_eq_self.mpr]
  intro field hfield
  exact decide_eq_true (h field hfield)

theorem toInt_toInt64 {n : UInt64} (h : n.toNat < 2 ^ 63) : n.toInt64.toInt = n.toNat := by
  show n.toBitVec.toInt = n.toNat
  rw [BitVec.toInt_eq_toNat_of_lt]
  · rfl
  · show 2 * n.toNat < 2 ^ 64
    omega

/-- An integer goes back to the representation that it came from. -/
theorem ofI64_toInt64 {n : UInt64} (h : n.toNat < 2 ^ 63) :
    YamlNumber.ofI64 n.toInt64 = .posInt n := by
  have hnonneg : ¬ n.toInt64 < 0 := by
    rw [Int64.lt_iff_toInt_lt, toInt_toInt64 h, Int64.toInt_zero]
    omega
  rw [YamlNumber.ofI64, dif_neg hnonneg, UInt64.toUInt64_toInt64]

theorem convertNumber_toYaml {n : YamlNumber} {m : Number} (h : convertNumber n = .ok m) :
    (Value.number m).toYaml order = .number n := by
  cases n with
  | posInt n =>
      rw [convertNumber_posInt, map_eq_ok_iff] at h
      obtain ⟨i, hi, rfl⟩ := h
      obtain ⟨hlt, rfl⟩ := tryIntoI64_eq_ok.mp hi
      rw [Value.toYaml, ofI64_toInt64 hlt]
  | negInt i neg =>
      cases h
      rw [Value.toYaml, YamlNumber.ofI64, dif_pos neg]
  | float bits =>
      cases h
      rw [Value.toYaml]

mutual
/-- **What a value becomes** is equal to it, written as YAML again. -/
theorem convertValue_equal (laws : AsStrLaws asStr) : ∀ {value : YamlValue} {v : Value},
    value.Throughout YamlValue.StringKeys → value.Throughout YamlValue.UniqueKeys →
    convertValue asStr value = .ok v → YamlEqual (v.toYaml order) value
  | .null, v, _, _, h | .bool _, v, _, _, h | .string _, v, _, _, h => by
      rw [convertValue] at h
      cases h
      rw [Value.toYaml]
      exact .refl
  | .number n, v, _, _, h => by
      rw [convertValue, map_eq_ok_iff] at h
      obtain ⟨m, hm, rfl⟩ := h
      rw [convertNumber_toYaml hm]
      exact .refl
  | .sequence values, v, hkeys, hunique, h => by
      rw [convertValue, map_eq_ok_iff] at h
      obtain ⟨vs, hvs, rfl⟩ := h
      rw [Value.toYaml]
      exact .sequence (convertSequence_equal laws (YamlValue.throughout_sequence.mp hkeys).2
        (YamlValue.throughout_sequence.mp hunique).2 hvs)
  | .mapping entries, v, hkeys, hunique, h => by
      rw [convertValue, map_eq_ok_iff] at h
      obtain ⟨params, hparams, rfl⟩ := h
      rw [YamlValue.throughout_mapping] at hkeys hunique
      obtain ⟨fields, rfl, hfields⟩ := convertEntries_equal laws hkeys.1 hkeys.2 hunique.1 hunique.2
        (by simp) hparams
      rw [Value.toYaml]
      exact .mapping (order.perm _) hfields
  | .tagged tag value, v, _, _, h => by
      rw [convertValue] at h
      cases h
theorem convertSequence_equal (laws : AsStrLaws asStr) :
    ∀ {values : List YamlValue} {vs : List Value},
    (∀ value ∈ values, value.Throughout YamlValue.StringKeys) →
    (∀ value ∈ values, value.Throughout YamlValue.UniqueKeys) →
    convertSequence asStr values = .ok vs → SequenceEqual (arrayToYaml order vs) values
  | [], vs, _, _, h => by
      rw [convertSequence] at h
      cases h
      exact .nil
  | value :: values, vs, hkeys, hunique, h => by
      rw [List.forall_mem_cons] at hkeys hunique
      rw [convertSequence, bind_eq_ok_iff] at h
      obtain ⟨v, hv, h⟩ := h
      obtain ⟨vs, hvs, rfl⟩ := map_eq_ok_iff.mp h
      rw [arrayToYaml]
      exact .cons (convertValue_equal laws hkeys.1 hunique.1 hv)
        (convertSequence_equal laws hkeys.2 hunique.2 hvs)
theorem convertEntries_equal (laws : AsStrLaws asStr) :
    ∀ {params params' : Params} {entries : List (YamlValue × YamlValue)},
    (∀ entry ∈ entries, ∃ s, entry.1 = .string s) →
    (∀ entry ∈ entries, entry.2.Throughout YamlValue.StringKeys) →
    (entries.map (·.1)).Nodup →
    (∀ entry ∈ entries, entry.2.Throughout YamlValue.UniqueKeys) →
    (∀ entry ∈ entries, ∀ field ∈ params, entry.1 ≠ .string field.1) →
    convertEntries asStr params entries = .ok params' →
    ∃ fields, params' = params ++ fields ∧ EntriesEqual (fieldsToYaml order fields) entries
  | params, params', [], _, _, _, _, _, h => by
      rw [convertEntries] at h
      cases h
      exact ⟨[], (List.append_nil _).symm, .nil⟩
  | params, params', (key, value) :: entries, hstring, hkeys, hnodup, hunique, hnew, h => by
      rw [List.forall_mem_cons] at hstring hkeys hunique hnew
      rw [List.map_cons, List.nodup_cons] at hnodup
      obtain ⟨s, rfl⟩ := hstring.1
      rw [convertEntries, laws.string] at h
      obtain ⟨_, hs, h⟩ := bind_eq_ok_iff.mp h
      cases hs
      obtain ⟨v, hv, hrest⟩ := bind_eq_ok_iff.mp h
      -- the key is new, so the value is added behind the others
      have hinsert : params.insert s v = params ++ [(s, v)] :=
        Params.insert_of_forall_ne fun field hfield heq => hnew.1 field hfield (by rw [heq])
      have hnew' : ∀ entry ∈ entries, ∀ field ∈ params ++ [(s, v)],
          entry.1 ≠ .string field.1 := by
        intro entry hentry field hfield heq
        rw [List.mem_append, List.mem_singleton] at hfield
        cases hfield with
        | inl hfield => exact hnew.2 entry hentry field hfield heq
        | inr hfield =>
            rw [hfield] at heq
            exact hnodup.1 (List.mem_map.mpr ⟨entry, hentry, heq⟩)
      rw [hinsert] at hrest
      obtain ⟨fields, rfl, hfields⟩ := convertEntries_equal laws hstring.2 hkeys.2 hnodup.2
        hunique.2 hnew' hrest
      refine ⟨(s, v) :: fields, by simp, ?_⟩
      rw [fieldsToYaml]
      exact .cons (convertValue_equal laws hkeys.1 hunique.1 hv) hfields
end

/-! ## §5. When the conversion is exact. -/

/-- What params have room for: the keys are strings at every depth, no value has a tag, and no
integer is larger than `i64::MAX`. -/
structure Mapping.Convertible (m : Mapping) : Prop where
  keys : ∀ entries, (YamlValue.mapping m.entries).Contains (.mapping entries) →
    ∀ entry ∈ entries, ∃ s, entry.1 = .string s
  untagged : ∀ tag value, ¬ (YamlValue.mapping m.entries).Contains (.tagged tag value)
  integers : ∀ n, (YamlValue.mapping m.entries).Contains (.number (.posInt n)) → n.toNat < 2 ^ 63

/-- A key has a tag and is read all the same, and nothing else is in the way. -/
structure Mapping.TaggedKeyRead (asStr : YamlValue → Option String) (m : Mapping) : Prop where
  keys : ∀ entries, (YamlValue.mapping m.entries).Contains (.mapping entries) →
    ∀ entry ∈ entries, (asStr entry.1).isSome
  untagged : ∀ tag value, ¬ (YamlValue.mapping m.entries).Contains (.tagged tag value)
  integers : ∀ n, (YamlValue.mapping m.entries).Contains (.number (.posInt n)) → n.toNat < 2 ^ 63
  taggedKey : ∃ entries, (YamlValue.mapping m.entries).Contains (.mapping entries)
    ∧ ∃ entry ∈ entries, ∃ tag value, entry.1 = .tagged tag value

/-- The mapping is converted if and only if there is room for it, and then without loss. -/
structure Mapping.ConvertsExactly (asStr : YamlValue → Option String) (m : Mapping) : Prop where
  accepted : (∃ params, convertParams asStr m = .ok params) ↔ m.Convertible
  lossless : ∀ params, convertParams asStr m = .ok params →
    ∀ order, YamlEqual ((Value.object params).toYaml order) (.mapping m.entries)

theorem Mapping.accepted_iff {m : Mapping} :
    (YamlValue.mapping m.entries).Throughout (YamlValue.Accepted asStr)
      ↔ (∀ entries, (YamlValue.mapping m.entries).Contains (.mapping entries) →
          ∀ entry ∈ entries, (asStr entry.1).isSome)
        ∧ (∀ tag value, ¬ (YamlValue.mapping m.entries).Contains (.tagged tag value))
        ∧ ∀ n, (YamlValue.mapping m.entries).Contains (.number (.posInt n)) → n.toNat < 2 ^ 63 := by
  constructor
  · intro h
    exact ⟨fun entries => h _, fun tag value => h _, fun n => h _⟩
  · intro h inner hinner
    unfold YamlValue.Accepted
    split
    · exact h.2.2 _ hinner
    · exact h.1 _ hinner
    · exact h.2.1 _ _ hinner
    · trivial

/-- Params without loss, where the keys are strings. -/
theorem Mapping.Convertible.lossless (laws : AsStrLaws asStr) {m : Mapping} (h : m.Convertible)
    {params : Params} (hparams : convertParams asStr m = .ok params) :
    YamlEqual ((Value.object params).toYaml order) (.mapping m.entries) := by
  have hkeys : (YamlValue.mapping m.entries).Throughout YamlValue.StringKeys := by
    intro inner hinner
    unfold YamlValue.StringKeys
    split
    · exact h.keys _ hinner
    · trivial
  refine convertValue_equal laws hkeys m.unique ?_
  rw [convertValue, show convertEntries asStr [] m.entries = .ok params from hparams]
  rfl

/-- **When YAML params convert without loss or fail.**  That is so unless every key can be read,
nothing else is in the way, and some key has a tag: the conversion drops the tag then. -/
theorem convertsExactly_iff (asStr : YamlValue → Option String) (laws : AsStrLaws asStr)
    (m : Mapping) : m.ConvertsExactly asStr ↔ ¬ m.TaggedKeyRead asStr := by
  constructor
  · intro h hread
    have hok : ∃ params, convertParams asStr m = .ok params :=
      convertParams_ok_iff.mpr (Mapping.accepted_iff.mpr
        ⟨hread.keys, hread.untagged, hread.integers⟩)
    obtain ⟨entries, hentries, entry, hentry, tag, value, hkey⟩ := hread.taggedKey
    obtain ⟨s, hs⟩ := (h.accepted.mp hok).keys entries hentries entry hentry
    rw [hkey] at hs
    cases hs
  · intro h
    have hconvertible : (∃ params, convertParams asStr m = .ok params) → m.Convertible := by
      intro hok
      obtain ⟨hkeys, huntagged, hintegers⟩ :=
        Mapping.accepted_iff.mp (convertParams_ok_iff.mp hok)
      refine ⟨fun entries hentries entry hentry => ?_, huntagged, hintegers⟩
      -- a key that can be read is a string, or has a tag
      cases laws.other entry.1 (hkeys entries hentries entry hentry) with
      | inl hstring => exact hstring
      | inr htagged =>
          exact absurd ⟨hkeys, huntagged, hintegers, entries, hentries, entry, hentry, htagged⟩ h
    refine ⟨⟨hconvertible, fun hm => ?_⟩, fun params hparams order => ?_⟩
    · refine convertParams_ok_iff.mpr (Mapping.accepted_iff.mpr
        ⟨fun entries hentries entry hentry => ?_, hm.untagged, hm.integers⟩)
      obtain ⟨s, hs⟩ := hm.keys entries hentries entry hentry
      rw [hs, laws.string]
      rfl
    · exact (hconvertible ⟨params, hparams⟩).lossless laws hparams

end

/-! ## §6. A key with a tag. -/

/-- `as_str` as the library has it: a string is looked for behind the tags. -/
def untaggedStr : YamlValue → Option String
  | .string s => some s
  | .tagged _ value => untaggedStr value
  | _ => none

theorem asStrLaws_untaggedStr : AsStrLaws untaggedStr where
  string _ := rfl
  other value h := by
    cases value with
    | string s => exact Or.inl ⟨s, rfl⟩
    | tagged tag inner => exact Or.inr ⟨tag, inner, rfl⟩
    | null | bool | number | sequence | mapping => cases h

/-- Two entries, with integers for values. -/
def twoIntegers (key key' : YamlValue) (hne : key ≠ key') : Mapping where
  entries := [(key, .number (.posInt 1)), (key', .number (.posInt 2))]
  unique := by
    refine YamlValue.throughout_mapping.mpr ⟨by simp [YamlValue.UniqueKeys, hne], ?_⟩
    intro entry hentry inner hinner
    obtain rfl | rfl :
        entry = (key, .number (.posInt 1)) ∨ entry = (key', .number (.posInt 2)) := by
      simpa using hentry
    all_goals
      cases hinner
      trivial

/-- The keys `a` and `b`. -/
theorem convertsExactly_iff_twoIntegers :
    (twoIntegers (.string "a") (.string "b") (by simp)).ConvertsExactly untaggedStr
      ↔ ¬ (twoIntegers (.string "a") (.string "b") (by simp)).TaggedKeyRead untaggedStr :=
  convertsExactly_iff untaggedStr asStrLaws_untaggedStr _

/-- **The keys `a` and `!t a`** become one, and one of the values is lost. -/
theorem not_convertsExactly_taggedKey :
    convertParams untaggedStr
        (twoIntegers (.string "a") (.tagged "!t" (.string "a")) (by simp))
      = .ok [("a", .number (.integer 2))]
    ∧ ¬ (twoIntegers (.string "a") (.tagged "!t" (.string "a")) (by simp)).ConvertsExactly
      untaggedStr := by
  have hconvert : convertParams untaggedStr
      (twoIntegers (.string "a") (.tagged "!t" (.string "a")) (by simp))
        = .ok [("a", .number (.integer 2))] := rfl
  refine ⟨hconvert, fun h => ?_⟩
  obtain ⟨s, hs⟩ := (h.accepted.mp ⟨_, hconvert⟩).keys _ .here (.tagged "!t" (.string "a"), _)
    (List.mem_cons_of_mem _ List.mem_cons_self)
  cases hs

end Shinran
