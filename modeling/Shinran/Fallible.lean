/-
  Shinran.Fallible
  ────────────────
  **STEPS THAT CAN FAIL, READ BACKWARDS.**

  A chain of steps returns a value exactly if each of them does, with the
  values that are handed on:

    • `bind_eq_ok_iff`, `map_eq_ok_iff` — a step and what is done with its value,
    • `mapError_eq_ok_iff`, `elim_eq_ok_iff`, `toOption_eq_some_iff` — a step in
      the terms of another one.
-/
import Mathlib.Logic.Basic

namespace Shinran

variable {ε ε' α β : Type}

/-! ## §1. A step and what is done with its value. -/

@[simp] theorem ok_bind (a : α) (f : α → Except ε β) : (Except.ok a >>= f) = f a := rfl

@[simp] theorem error_bind (err : ε) (f : α → Except ε β) :
    ((Except.error err : Except ε α) >>= f) = .error err := rfl

theorem bind_eq_ok_iff {x : Except ε α} {f : α → Except ε β} {b : β} :
    (x >>= f) = .ok b ↔ ∃ a, x = .ok a ∧ f a = .ok b := by
  cases x <;> simp

theorem map_eq_ok_iff {f : α → β} {r : Except ε α} {b : β} :
    r.map f = .ok b ↔ ∃ a, r = .ok a ∧ f a = b := by
  cases r <;> simp [Except.map]

theorem map_eq_error_iff {f : α → β} {r : Except ε α} {err : ε} :
    r.map f = .error err ↔ r = .error err := by
  cases r <;> simp [Except.map]

theorem exists_map_eq_ok {f : α → β} {r : Except ε α} :
    (∃ b, r.map f = .ok b) ↔ ∃ a, r = .ok a := by
  cases r <;> simp [Except.map]

/-! ## §2. A step in the terms of another. -/

theorem mapError_eq_ok_iff {f : ε → ε'} {r : Except ε α} {a : α} :
    r.mapError f = .ok a ↔ r = .ok a := by
  cases r with
  | ok a' =>
    show Except.ok a' = Except.ok a ↔ _
    simp
  | error err =>
    show Except.error (f err) = Except.ok a ↔ _
    simp

theorem elim_eq_ok_iff {err : ε} {o : Option α} {a : α} :
    o.elim (.error err) Except.ok = .ok a ↔ o = some a := by
  cases o <;> simp

theorem toOption_eq_some_iff {r : Except ε α} {a : α} : r.toOption = some a ↔ r = .ok a := by
  cases r <;> simp [Except.toOption]

end Shinran
