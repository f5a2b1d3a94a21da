/-
  Shinran.TokenMap
  ────────────────
  **A MAP WHOSE KEYS ARE HANDED OUT.**

  Whoever registers a value gets a token for it.  Tokens are not used twice,
  and a token stands for its value until the value is removed.

    • `owned_register`, `owned_remove`, `owned_update` — the tokens of the values
      of one kind, under the operations,
    • `mem_owned` — these are the tokens whose lookup is of that kind.
-/
import Mathlib.Data.List.Nodup

/-- Values by their tokens, oldest first. -/
structure TokenMap (α : Type) where
  entries : List (Nat × α) := []
  next : Nat := 0
  lt_next : ∀ entry ∈ entries, entry.1 < next := by simp
  nodup : (entries.map (·.1)).Nodup := by simp
  deriving DecidableEq

namespace TokenMap

variable {α : Type}

/-! ## §1. Operations. -/

def find (map : TokenMap α) (token : Nat) : Option α :=
  (map.entries.find? fun entry => entry.1 = token).map (·.2)

/-- Register a value under a new token, which is `map.next`. -/
def register (map : TokenMap α) (value : α) : TokenMap α where
  entries := map.entries ++ [(map.next, value)]
  next := map.next + 1
  lt_next entry hentry := by
    rcases List.mem_append.mp hentry with h | h
    · exact Nat.lt_succ_of_lt (map.lt_next entry h)
    · rw [List.mem_singleton.mp h]
      exact Nat.lt_succ_self _
  nodup := by
    rw [List.map_append, List.nodup_append]
    refine ⟨map.nodup, List.nodup_singleton _, ?_⟩
    intro token htoken next hnext
    obtain ⟨entry, hentry, rfl⟩ := List.mem_map.mp htoken
    have hlt := map.lt_next entry hentry
    simp only [List.map_cons, List.map_nil, List.mem_singleton] at hnext
    omega

def remove (map : TokenMap α) (token : Nat) : TokenMap α where
  entries := map.entries.filter fun entry => entry.1 ≠ token
  next := map.next
  lt_next entry hentry := map.lt_next entry (List.mem_of_mem_filter hentry)
  nodup := map.nodup.sublist (List.filter_sublist.map _)

/-- Change the value under a token. -/
def updateEntry (token : Nat) (change : α → α) (entry : Nat × α) : Nat × α :=
  if entry.1 = token then (entry.1, change entry.2) else entry

@[simp] theorem updateEntry_fst (token : Nat) (change : α → α) (entry : Nat × α) :
    (updateEntry token change entry).1 = entry.1 := by
  unfold updateEntry
  split <;> rfl

def update (map : TokenMap α) (token : Nat) (change : α → α) : TokenMap α where
  entries := map.entries.map (updateEntry token change)
  next := map.next
  lt_next entry hentry := by
    obtain ⟨entry', hentry', rfl⟩ := List.mem_map.mp hentry
    rw [updateEntry_fst]
    exact map.lt_next entry' hentry'
  nodup := by
    have hfst : (map.entries.map (updateEntry token change)).map (·.1) = map.entries.map (·.1) := by
      rw [List.map_map]
      exact List.map_congr_left fun entry _ => updateEntry_fst token change entry
    rw [hfst]
    exact map.nodup

def values (map : TokenMap α) : List α := map.entries.map (·.2)

/-- The tokens of the values of one kind. -/
def owned (map : TokenMap α) (kind : α → Bool) : List Nat :=
  (map.entries.filter fun entry => kind entry.2).map (·.1)

/-! ## §2. Owned tokens. -/

variable (map : TokenMap α) (kind : α → Bool)

theorem find_eq_some {map : TokenMap α} {token : Nat} {value : α} :
    map.find token = some value ↔ (token, value) ∈ map.entries := by
  unfold find
  rw [Option.map_eq_some_iff]
  constructor
  · rintro ⟨⟨token', value'⟩, hfind, rfl⟩
    have htoken : token' = token := by simpa using List.find?_some hfind
    rw [← htoken]
    exact List.mem_of_find?_eq_some hfind
  · intro hmem
    -- the first entry with that token is the only one
    cases hfind : map.entries.find? (fun entry => entry.1 = token) with
    | none => simpa using List.find?_eq_none.mp hfind _ hmem
    | some entry =>
        have htoken : entry.1 = token := by simpa using List.find?_some hfind
        have heq : entry = (token, value) :=
          List.inj_on_of_nodup_map map.nodup (List.mem_of_find?_eq_some hfind) hmem htoken
        exact ⟨entry, rfl, by rw [heq]⟩

/-- A value that is changed is found under its token. -/
theorem find_update (token : Nat) (change : α → α) :
    (map.update token change).find token = (map.find token).map change := by
  refine Option.ext fun value => ?_
  rw [Option.map_eq_some_iff, find_eq_some]
  constructor
  · intro h
    obtain ⟨entry, hentry, heq⟩ := List.mem_map.mp h
    have htoken : entry.1 = token := by rw [← updateEntry_fst token change entry, heq]
    unfold updateEntry at heq
    rw [if_pos htoken] at heq
    exact ⟨entry.2, find_eq_some.mpr (htoken ▸ hentry), (Prod.ext_iff.mp heq).2⟩
  · intro h
    obtain ⟨value', hfind, rfl⟩ := h
    exact List.mem_map.mpr ⟨_, find_eq_some.mp hfind, if_pos rfl⟩

theorem mem_owned {map : TokenMap α} {kind : α → Bool} {token : Nat} :
    token ∈ map.owned kind ↔ ∃ value, map.find token = some value ∧ kind value := by
  simp only [owned, List.mem_map, List.mem_filter, find_eq_some, Prod.exists]
  constructor
  · rintro ⟨token', value, ⟨hmem, hkind⟩, rfl⟩
    exact ⟨value, hmem, hkind⟩
  · rintro ⟨value, hmem, hkind⟩
    exact ⟨token, value, ⟨hmem, hkind⟩, rfl⟩

theorem mem_values_of_find {map : TokenMap α} {token : Nat} {value : α}
    (h : map.find token = some value) : value ∈ map.values :=
  List.mem_map.mpr ⟨_, find_eq_some.mp h, rfl⟩

theorem owned_register (value : α) :
    (map.register value).owned kind
      = map.owned kind ++ if kind value then [map.next] else [] := by
  cases hkind : kind value <;> simp [owned, register, List.filter_append, hkind]

theorem owned_remove (token : Nat) :
    (map.remove token).owned kind = (map.owned kind).filter fun token' => token' ≠ token := by
  simp only [owned, remove, List.filter_map, List.filter_filter]
  congr 2
  funext entry
  exact Bool.and_comm _ _

theorem owned_update (token : Nat) (change : α → α)
    (hchange : ∀ value, kind (change value) = kind value) :
    (map.update token change).owned kind = map.owned kind := by
  have hkind : (fun entry : Nat × α => kind entry.2) ∘ updateEntry token change
      = fun entry => kind entry.2 := by
    funext entry
    show kind (updateEntry token change entry).2 = kind entry.2
    unfold updateEntry
    split
    · exact hchange entry.2
    · rfl
  simp only [owned, update, List.filter_map, List.map_map, hkind]
  exact List.map_congr_left fun entry _ => updateEntry_fst token change entry

end TokenMap
