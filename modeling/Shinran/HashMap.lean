/-
  Shinran.HashMap
  ───────────────
  **HASH MAPS, FILLED ENTRY BY ENTRY.**

  A hash map is an association list with unique keys (`AList`), whose order is
  the order in which the map is iterated.  A map that is filled from several
  sources keeps, under each key, what was inserted last:

    • `lookup_insertAll`/`lookup_insertEntries` — last writer wins,
    • `lastEntry_flatMap_eq`                    — where the sources agree, their
                                                  order does not matter,
    • `lookup_restrict`                         — a part of a map.
-/
import Mathlib.Data.List.AList

namespace Shinran

/-! ## §1. Maps. -/

/-- `HashMap<K, V>`: unique keys, iterated in the order of the entries. -/
abbrev HashMap (κ : Type*) (β : Type*) := AList (fun _ : κ => β)

/-- The values of a map, in iteration order. -/
def HashMap.values {κ β : Type*} (m : HashMap κ β) : List β := m.entries.map (·.2)

/-- Insert the elements of a list one after another, each under its key. -/
def HashMap.insertAll {κ β : Type*} [DecidableEq κ] (key : β → κ) (m : HashMap κ β)
    (bs : List β) : HashMap κ β :=
  bs.foldl (fun m b => m.insert (key b) b) m

/-- **Last writer wins**: a key holds the last element inserted under it. -/
theorem HashMap.lookup_insertAll {κ β : Type*} [DecidableEq κ] (key : β → κ)
    (k : κ) (bs : List β) (m : HashMap κ β) :
    (m.insertAll key bs).lookup k
      = (bs.reverse.find? (fun b => key b = k)).or (m.lookup k) := by
  induction bs generalizing m with
  | nil => simp [HashMap.insertAll]
  | cons b bs ih =>
      show (HashMap.insertAll key (m.insert (key b) b) bs).lookup k = _
      -- `b` is the first to be inserted, so it is there unless a later one has its key
      rw [ih, List.reverse_cons, List.find?_append]
      by_cases hk : key b = k
      · subst hk
        cases bs.reverse.find? (fun c => key c = key b) <;> simp
      · rw [AList.lookup_insert_ne (Ne.symm hk)]
        cases bs.reverse.find? (fun c => key c = k) <;> simp [hk]

theorem HashMap.length_insertAll_le {κ β : Type*} [DecidableEq κ] (key : β → κ)
    (bs : List β) (m : HashMap κ β) :
    (m.insertAll key bs).keys.length ≤ m.keys.length + bs.length := by
  induction bs generalizing m with
  | nil => simp [HashMap.insertAll]
  | cons b bs ih =>
      have hle : (m.insert (key b) b).keys.length ≤ m.keys.length + 1 := by
        rw [AList.keys_insert, List.length_cons]
        exact Nat.succ_le_succ (List.length_erase_le)
      have := ih (m.insert (key b) b)
      simp only [HashMap.insertAll, List.foldl_cons, List.length_cons] at this ⊢
      omega

/-! ## §2. Entries. -/

section Entries

variable {κ β γ : Type*} [DecidableEq κ]

/-- Insert entries one after another. -/
def HashMap.insertEntries (m : HashMap κ β) (entries : List (κ × β)) : HashMap κ β :=
  entries.foldl (fun m entry => m.insert entry.1 entry.2) m

/-- The value of the last entry for the key. -/
def lastEntry (entries : List (κ × β)) (k : κ) : Option β :=
  (entries.reverse.find? fun entry => entry.1 = k).map (·.2)

@[simp] theorem lastEntry_nil (k : κ) : lastEntry ([] : List (κ × β)) k = none := rfl

theorem lastEntry_append (l l' : List (κ × β)) (k : κ) :
    lastEntry (l ++ l') k = (lastEntry l' k).or (lastEntry l k) := by
  unfold lastEntry
  rw [List.reverse_append, List.find?_append]
  cases l'.reverse.find? (fun entry => entry.1 = k) <;> simp

theorem mem_of_lastEntry {entries : List (κ × β)} {k : κ} {b : β}
    (h : lastEntry entries k = some b) : (k, b) ∈ entries := by
  obtain ⟨entry, hentry, rfl⟩ := Option.map_eq_some_iff.mp h
  obtain rfl : entry.1 = k := by simpa using List.find?_some hentry
  exact List.mem_reverse.mp (List.mem_of_find?_eq_some hentry)

theorem lastEntry_isSome_of_mem {entries : List (κ × β)} {k : κ} {b : β}
    (h : (k, b) ∈ entries) : (lastEntry entries k).isSome := by
  unfold lastEntry
  rw [Option.isSome_map, List.find?_isSome]
  exact ⟨(k, b), List.mem_reverse.mpr h, by simp⟩

/-- Where no key has two values, every entry counts. -/
theorem lastEntry_eq_some_iff {entries : List (κ × β)} {k : κ} {b : β}
    (hunique : ∀ b', (k, b) ∈ entries → (k, b') ∈ entries → b' = b) :
    lastEntry entries k = some b ↔ (k, b) ∈ entries := by
  constructor
  · exact mem_of_lastEntry
  · intro h
    obtain ⟨b', hb'⟩ := Option.isSome_iff_exists.mp (lastEntry_isSome_of_mem h)
    rw [hb', hunique b' h (mem_of_lastEntry hb')]

theorem HashMap.lookup_insertEntries (k : κ) (entries : List (κ × β)) (m : HashMap κ β) :
    (m.insertEntries entries).lookup k = (lastEntry entries k).or (m.lookup k) := by
  induction entries generalizing m with
  | nil => simp [HashMap.insertEntries]
  | cons entry entries ih =>
      show (HashMap.insertEntries (m.insert entry.1 entry.2) entries).lookup k = _
      -- the first entry counts only where no later one has its key
      rw [ih, ← List.singleton_append, lastEntry_append]
      by_cases hk : entry.1 = k
      · subst hk
        cases lastEntry entries entry.1 <;> simp [lastEntry]
      · rw [AList.lookup_insert_ne (Ne.symm hk)]
        cases lastEntry entries k <;> simp [lastEntry, hk]

/-! ## §3. Entries of several sources. -/

variable {entries : γ → List (κ × β)} {sources sources' : List γ} {k : κ}

/-- What is there comes from one of the sources. -/
theorem exists_of_lastEntry_flatMap {b : β}
    (h : lastEntry (sources.flatMap entries) k = some b) :
    ∃ source ∈ sources, lastEntry (entries source) k = some b := by
  induction sources with
  | nil => simp at h
  | cons source sources ih =>
      rw [List.flatMap_cons, lastEntry_append, Option.or_eq_some_iff] at h
      cases h with
      | inl h =>
          obtain ⟨s, hs, hb⟩ := ih h
          exact ⟨s, List.mem_cons_of_mem _ hs, hb⟩
      | inr h => exact ⟨source, List.mem_cons_self, h.2⟩

/-- A key is there as soon as one of the sources has it. -/
theorem lastEntry_flatMap_isSome_iff :
    (lastEntry (sources.flatMap entries) k).isSome
      ↔ ∃ source ∈ sources, (lastEntry (entries source) k).isSome := by
  induction sources with
  | nil => simp
  | cons source sources ih =>
      rw [List.flatMap_cons, lastEntry_append, Option.isSome_or, Bool.or_eq_true, ih]
      simp [or_comm]

/-- Whether a key is there does not depend on the order of the sources. -/
theorem lastEntry_flatMap_isSome_eq (hmem : ∀ source, source ∈ sources ↔ source ∈ sources') :
    (lastEntry (sources.flatMap entries) k).isSome
      = (lastEntry (sources'.flatMap entries) k).isSome := by
  rw [Bool.eq_iff_iff, lastEntry_flatMap_isSome_iff, lastEntry_flatMap_isSome_iff]
  simp only [hmem]

/-- Two of the sources give the key different values. -/
def Disputed (entries : γ → List (κ × β)) (sources : γ → Prop) (k : κ) : Prop :=
  ∃ source source' b b', sources source ∧ sources source'
    ∧ lastEntry (entries source) k = some b ∧ lastEntry (entries source') k = some b' ∧ b ≠ b'

/-- **Undisputed keys do not depend on the order of the sources.** -/
theorem lastEntry_flatMap_eq (hmem : ∀ source, source ∈ sources ↔ source ∈ sources')
    (hagree : ¬ Disputed entries (· ∈ sources) k) :
    lastEntry (sources.flatMap entries) k = lastEntry (sources'.flatMap entries) k := by
  have hsome : (lastEntry (sources.flatMap entries) k).isSome
      = (lastEntry (sources'.flatMap entries) k).isSome := lastEntry_flatMap_isSome_eq hmem
  -- both lists have the key or neither has; where both have it, their sources agree
  cases h : lastEntry (sources.flatMap entries) k with
  | none =>
      have hnone : lastEntry (sources'.flatMap entries) k = none := by simpa [h] using hsome
      exact hnone.symm
  | some b =>
      cases h' : lastEntry (sources'.flatMap entries) k with
      | none => simp [h, h'] at hsome
      | some b' =>
          obtain ⟨source, hsource, hb⟩ := exists_of_lastEntry_flatMap h
          obtain ⟨source', hsource', hb'⟩ := exists_of_lastEntry_flatMap h'
          by_contra hne
          exact hagree ⟨source, source', b, b', hsource, (hmem source').mpr hsource', hb, hb',
            fun heq => hne (heq ▸ rfl)⟩

end Entries

/-! ## §4. A part of a map. -/

section Restrict

variable {κ β : Type*} [DecidableEq κ] {p : κ → Prop} [DecidablePred p] {m : HashMap κ β} {k : κ}

/-- The entries under keys of one kind. -/
def HashMap.restrict (p : κ → Prop) [DecidablePred p] (m : HashMap κ β) : HashMap κ β where
  entries := m.entries.filter fun entry => p entry.1
  nodupKeys := m.nodupKeys.sublist List.filter_sublist

theorem HashMap.lookup_restrict_eq_some {b : β} :
    (m.restrict p).lookup k = some b ↔ p k ∧ m.lookup k = some b := by
  rw [← Option.mem_def, ← Option.mem_def, AList.mem_lookup_iff, AList.mem_lookup_iff]
  simp [HashMap.restrict, and_comm]

theorem HashMap.lookup_restrict (h : (m.lookup k).isSome → p k) :
    (m.restrict p).lookup k = m.lookup k :=
  Option.ext fun _ => by
    rw [HashMap.lookup_restrict_eq_some]
    exact and_iff_right_of_imp fun hlook => h (Option.isSome_of_eq_some hlook)

end Restrict

end Shinran
