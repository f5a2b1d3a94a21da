/-
  Shinran.Offsets
  ───────────────
  **OFFSETS INTO A SEQUENCE OF ITEMS OF DIFFERENT WIDTHS.**

  A text kept as bytes is addressed by offsets: the item at position `i` starts
  where the widths of the items before it end.  An offset inside of an item, or
  behind the last one, is no place to insert or to remove anything.

    • `splitAt_eq_some_iff`     — the offsets at which a sequence can be split,
    • `insertAt_eq`/`removeAt_eq` — inserting and removing at such an offset,
    • `total_eq_length_iff`     — offsets are positions exactly in front of
                                  items of width one.
-/
import Mathlib.Data.List.Basic

namespace Offsets

variable {α : Type*} (width : α → Nat)

/-! ## §1. Total width. -/

/-- The width of the whole sequence. -/
def total : List α → Nat
  | [] => 0
  | a :: as => width a + total as

@[simp] theorem total_nil : total width [] = 0 := rfl

@[simp] theorem total_cons (a : α) (as : List α) :
    total width (a :: as) = width a + total width as := rfl

@[simp] theorem total_append (as bs : List α) :
    total width (as ++ bs) = total width as + total width bs := by
  induction as with
  | nil => simp
  | cons a as ih =>
      rw [List.cons_append, total_cons, total_cons, ih]
      omega

variable {width}

section Positive

variable (hwidth : ∀ a, 0 < width a)
include hwidth

theorem length_le_total (as : List α) : as.length ≤ total width as := by
  induction as with
  | nil => simp
  | cons a as ih =>
      have := hwidth a
      rw [List.length_cons, total_cons]
      omega

/-- **Offsets are positions** in front of items that are all of width one, and only there. -/
theorem total_eq_length_iff (as : List α) :
    total width as = as.length ↔ ∀ a ∈ as, width a = 1 := by
  induction as with
  | nil => simp
  | cons a as ih =>
      have hpos := hwidth a
      have hle := length_le_total hwidth as
      rw [List.forall_mem_cons, ← ih, total_cons, List.length_cons]
      omega

end Positive

/-! ## §2. Splitting at an offset. -/

variable (width)

/-- Split in front of the item that starts at the offset. -/
def splitAt : List α → Nat → Option (List α × List α)
  | [], 0 => some ([], [])
  | [], _ + 1 => none
  | a :: as, 0 => some ([], a :: as)
  -- an offset inside of `a` splits nothing
  | a :: as, offset + 1 =>
      if width a ≤ offset + 1 then
        (splitAt as (offset + 1 - width a)).map fun (pre, post) => (a :: pre, post)
      else none

variable {width}

/-- **Where a sequence can be split.** -/
theorem splitAt_eq_some_iff (hwidth : ∀ a, 0 < width a) {as : List α} {offset : Nat}
    {pre post : List α} :
    splitAt width as offset = some (pre, post) ↔ as = pre ++ post ∧ total width pre = offset := by
  -- item by item, with the offset counted from the start of the item
  induction as generalizing offset pre with
  | nil =>
      cases offset with
      | zero => cases pre <;> simp [splitAt, eq_comm]
      | succ offset => cases pre <;> simp [splitAt]
  | cons a as ih =>
      have hpos := hwidth a
      cases offset with
      | zero =>
          cases pre with
          | nil => simp [splitAt, eq_comm]
          | cons b pre =>
              -- in front of the first item there is nothing, since `b` takes room
              have hposb := hwidth b
              simp [splitAt]
              omega
      | succ offset =>
          cases pre with
          | nil => simp [splitAt]
          | cons b pre =>
              -- either the offset lies behind `a`, and the rest is split, or inside of it
              unfold splitAt
              by_cases hle : width a ≤ offset + 1
              · rw [if_pos hle]
                constructor
                · intro h
                  obtain ⟨⟨pre', post'⟩, hsplit, heq⟩ := Option.map_eq_some_iff.mp h
                  cases heq
                  obtain ⟨rfl, htotal⟩ := ih.mp hsplit
                  refine ⟨rfl, ?_⟩
                  rw [total_cons, htotal]
                  omega
                · intro h
                  obtain ⟨heq, htotal⟩ := h
                  cases heq
                  rw [total_cons] at htotal
                  rw [ih.mpr ⟨rfl, by omega⟩]
                  rfl
              · rw [if_neg hle]
                constructor
                · intro h
                  cases h
                · intro h
                  obtain ⟨heq, htotal⟩ := h
                  cases heq
                  rw [total_cons] at htotal
                  omega

/-! ## §3. Inserting and removing. -/

variable (width)

/-- Insert at the offset, if an item starts there or the sequence ends there. -/
def insertAt (as : List α) (offset : Nat) (a : α) : Option (List α) :=
  (splitAt width as offset).map fun (pre, post) => pre ++ a :: post

/-- Remove the item that starts at the offset. -/
def removeAt (as : List α) (offset : Nat) : Option (List α) :=
  match splitAt width as offset with
  | some (pre, _ :: post) => some (pre ++ post)
  | _ => none

variable {width}

/-- Inserting at the offset of a position. -/
theorem insertAt_eq (hwidth : ∀ a, 0 < width a) (pre post : List α) (a : α) :
    insertAt width (pre ++ post) (total width pre) a = some (pre ++ a :: post) := by
  simp [insertAt, (splitAt_eq_some_iff hwidth).mpr ⟨rfl, rfl⟩]

/-- Removing at the offset of a position. -/
theorem removeAt_eq (hwidth : ∀ a, 0 < width a) (pre post : List α) (a : α) :
    removeAt width (pre ++ a :: post) (total width pre) = some (pre ++ post) := by
  simp [removeAt, (splitAt_eq_some_iff hwidth).mpr ⟨rfl, rfl⟩]

end Offsets
