/-
  Shinran.TokenRestriction
  ────────────────────────
  **A TOKEN MAP CUT DOWN TO ONE KIND OF VALUES.**

  If only the values of one kind had been registered, they would have been
  handed other tokens: the first of them the token 0, the next the token 1.
  `tokens` lists the tokens that they have in the whole map, in that order.

    • `Restricts.register`, `Restricts.remove`, `Restricts.update` — an operation
      on a value of the kind is made in both maps,
    • `Restricts.register_other`, `Restricts.remove_other`, `Restricts.update_other`
      — one on another value in the whole map only.
-/
import Shinran.TokenMap

namespace TokenMap

variable {α : Type}

/-! ## §1. Looking up tokens. -/

section Find

variable (map : TokenMap α)

theorem find_lt_next {map : TokenMap α} {token : Nat} {value : α}
    (h : map.find token = some value) : token < map.next :=
  map.lt_next _ (find_eq_some.mp h)

@[simp] theorem find_next : map.find map.next = none := by
  cases h : map.find map.next with
  | none => rfl
  | some value => exact absurd (find_lt_next h) (Nat.lt_irrefl _)

theorem find_register (value : α) (token : Nat) :
    (map.register value).find token
      = if token = map.next then some value else map.find token := by
  refine Option.ext fun value' => ?_
  rw [find_eq_some]
  simp only [register, List.mem_append, List.mem_singleton, Prod.mk.injEq]
  split
  · rename_i hnext
    subst hnext
    have hnone : (map.next, value') ∉ map.entries := fun hmem =>
      absurd (map.lt_next _ hmem) (Nat.lt_irrefl _)
    simp [hnone, eq_comm]
  · rename_i hnext
    simp [hnext, find_eq_some]

theorem find_remove (token token' : Nat) :
    (map.remove token).find token' = if token' = token then none else map.find token' := by
  refine Option.ext fun value => ?_
  rw [find_eq_some]
  simp only [remove, List.mem_filter, decide_eq_true_eq]
  split
  · rename_i heq
    simp [heq]
  · rename_i hne
    simp [hne, find_eq_some]

theorem find_update_of_ne {token token' : Nat} (change : α → α) (hne : token' ≠ token) :
    (map.update token change).find token' = map.find token' := by
  refine Option.ext fun value => ?_
  rw [find_eq_some, find_eq_some]
  simp only [update, List.mem_map, updateEntry]
  constructor
  · rintro ⟨entry, hmem, heq⟩
    split at heq
    · rename_i htoken
      cases heq
      exact absurd htoken hne
    · rw [← heq]
      exact hmem
  · intro hmem
    exact ⟨_, hmem, if_neg hne⟩

@[simp] theorem next_register (value : α) : (map.register value).next = map.next + 1 := rfl

@[simp] theorem next_remove (token : Nat) : (map.remove token).next = map.next := rfl

@[simp] theorem next_update (token : Nat) (change : α → α) :
    (map.update token change).next = map.next := rfl

end Find

/-! ## §2. Restrictions. -/

/-- `part` is what would be left of `full` if only values of the kind had been registered. -/
structure Restricts (kind : α → Bool) (tokens : List Nat) (full part : TokenMap α) : Prop where
  next : part.next = tokens.length
  lt_next : ∀ token ∈ tokens, token < full.next
  nodup : tokens.Nodup
  find : ∀ k token, tokens[k]? = some token → part.find k = full.find token
  mem : ∀ token value, full.find token = some value → (token ∈ tokens ↔ kind value = true)

namespace Restricts

variable {kind : α → Bool} {tokens : List Nat} {full part : TokenMap α} {k token : Nat}

theorem empty (hfull : full.entries = []) (hnext : part.next = 0) :
    Restricts kind [] full part where
  next := hnext
  lt_next := by simp
  nodup := List.nodup_nil
  find := by simp
  mem token value h := by
    rw [find_eq_some, hfull] at h
    cases h

/-- Every token has one place in the list. -/
theorem place_unique (h : Restricts kind tokens full part) {k' : Nat}
    (hk : tokens[k]? = some token) (hk' : tokens[k']? = some token) : k = k' := by
  obtain ⟨hlt, _⟩ := List.getElem?_eq_some_iff.mp hk
  exact (List.getElem?_inj hlt h.nodup).mp (hk.trans hk'.symm)

theorem register (h : Restricts kind tokens full part) {value : α} (hkind : kind value = true) :
    Restricts kind (tokens ++ [full.next]) (full.register value) (part.register value) where
  next := by simp [h.next]
  lt_next token htoken := by
    rcases List.mem_append.mp htoken with hold | hnew
    · exact Nat.lt_succ_of_lt (h.lt_next token hold)
    · rw [List.mem_singleton.mp hnew]
      exact Nat.lt_succ_self _
  nodup := by
    refine List.nodup_append.mpr ⟨h.nodup, List.nodup_singleton _, ?_⟩
    intro token htoken next hnext
    rw [List.mem_singleton.mp hnext]
    exact Nat.ne_of_lt (h.lt_next token htoken)
  find k token hk := by
    rw [find_register, find_register, h.next]
    by_cases hlast : k = tokens.length
    · subst hlast
      rw [List.getElem?_concat_length, Option.some.injEq] at hk
      rw [if_pos rfl, if_pos hk.symm]
    · rw [List.getElem?_append_left (by
        have := (List.getElem?_eq_some_iff.mp hk).1
        simp only [List.length_append, List.length_singleton] at this
        omega)] at hk
      rw [if_neg hlast, if_neg (Nat.ne_of_lt (h.lt_next token (List.mem_of_getElem? hk)))]
      exact h.find k token hk
  mem token value' hfind := by
    rw [find_register] at hfind
    split at hfind
    · rename_i hnext
      cases hfind
      simp [hnext, hkind]
    · rename_i hnext
      simp [hnext, h.mem token value' hfind]

theorem remove (h : Restricts kind tokens full part) (hk : tokens[k]? = some token) :
    Restricts kind tokens (full.remove token) (part.remove k) where
  next := h.next
  lt_next := h.lt_next
  nodup := h.nodup
  find k' token' hk' := by
    rw [find_remove, find_remove]
    by_cases heq : k' = k
    · subst heq
      obtain rfl := Option.some.inj (hk.symm.trans hk')
      rw [if_pos rfl, if_pos rfl]
    · have hne : token' ≠ token := by
        rintro rfl
        exact heq (h.place_unique hk' hk)
      rw [if_neg heq, if_neg hne]
      exact h.find k' token' hk'
  mem token' value hfind := by
    rw [find_remove] at hfind
    split at hfind
    · cases hfind
    · exact h.mem token' value hfind

theorem update (h : Restricts kind tokens full part) (hk : tokens[k]? = some token)
    {change : α → α} (hchange : ∀ value, kind (change value) = kind value) :
    Restricts kind tokens (full.update token change) (part.update k change) where
  next := h.next
  lt_next := h.lt_next
  nodup := h.nodup
  find k' token' hk' := by
    by_cases heq : k' = k
    · subst heq
      obtain rfl := Option.some.inj (hk.symm.trans hk')
      rw [find_update, find_update, h.find _ _ hk]
    · have hne : token' ≠ token := by
        rintro rfl
        exact heq (h.place_unique hk' hk)
      rw [find_update_of_ne _ _ heq, find_update_of_ne _ _ hne]
      exact h.find k' token' hk'
  mem token' value hfind := by
    by_cases heq : token' = token
    · subst heq
      rw [find_update, Option.map_eq_some_iff] at hfind
      obtain ⟨value', hfind, rfl⟩ := hfind
      rw [hchange]
      exact h.mem token' value' hfind
    · rw [find_update_of_ne _ _ heq] at hfind
      exact h.mem token' value hfind

/-! ## §3. Other values. -/

theorem register_other (h : Restricts kind tokens full part) {value : α}
    (hkind : kind value = false) : Restricts kind tokens (full.register value) part where
  next := h.next
  lt_next token htoken := Nat.lt_succ_of_lt (h.lt_next token htoken)
  nodup := h.nodup
  find k token hk := by
    rw [find_register, if_neg (Nat.ne_of_lt (h.lt_next token (List.mem_of_getElem? hk)))]
    exact h.find k token hk
  mem token value' hfind := by
    rw [find_register] at hfind
    split at hfind
    · rename_i hnext
      cases hfind
      have hnot : token ∉ tokens := fun hmem =>
        absurd (h.lt_next token hmem) (by rw [hnext]; exact Nat.lt_irrefl _)
      simp [hnot, hkind]
    · exact h.mem token value' hfind

/-- A value of another kind has none of the tokens. -/
theorem find_of_other (h : Restricts kind tokens full part)
    (hother : ∀ value, full.find token = some value → kind value = false) (hmem : token ∈ tokens) :
    full.find token = none := by
  cases hfind : full.find token with
  | none => rfl
  | some value =>
      have hkind := (h.mem token value hfind).mp hmem
      rw [hother value hfind] at hkind
      cases hkind

theorem remove_other (h : Restricts kind tokens full part)
    (hother : ∀ value, full.find token = some value → kind value = false) :
    Restricts kind tokens (full.remove token) part where
  next := h.next
  lt_next := h.lt_next
  nodup := h.nodup
  find k token' hk := by
    rw [find_remove, h.find k token' hk]
    split
    · rename_i heq
      subst heq
      exact h.find_of_other hother (List.mem_of_getElem? hk)
    · rfl
  mem token' value hfind := by
    rw [find_remove] at hfind
    split at hfind
    · cases hfind
    · exact h.mem token' value hfind

theorem update_other (h : Restricts kind tokens full part)
    (hother : ∀ value, full.find token = some value → kind value = false) {change : α → α}
    (hchange : ∀ value, kind (change value) = kind value) :
    Restricts kind tokens (full.update token change) part where
  next := h.next
  lt_next := h.lt_next
  nodup := h.nodup
  find k token' hk := by
    by_cases heq : token' = token
    · subst heq
      rw [find_update, h.find k _ hk, h.find_of_other hother (List.mem_of_getElem? hk)]
      rfl
    · rw [find_update_of_ne _ _ heq]
      exact h.find k token' hk
  mem token' value hfind := by
    by_cases heq : token' = token
    · subst heq
      rw [find_update, Option.map_eq_some_iff] at hfind
      obtain ⟨value', hfind, rfl⟩ := hfind
      rw [hchange]
      exact h.mem token' value' hfind
    · rw [find_update_of_ne _ _ heq] at hfind
      exact h.mem token' value hfind

end Restricts

end TokenMap
