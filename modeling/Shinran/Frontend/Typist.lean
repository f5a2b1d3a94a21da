/-
  Shinran.Frontend.Typist
  ───────────────────────
  **WHAT A FRONTEND IS FOR.**

  A typist edits a text.  Return commits what the text stands for, if it stands
  for anything, and starts again with an empty text.  A text can also be
  discarded.

    • `mem_of_strike`    — only Return commits,
    • `type_effective`   — strokes that do nothing can be left out,
    • `length_type_le`   — a stroke adds one character at most,
    • `forall_mem_type`  — nothing is in the text that has not been typed.
-/
import Mathlib.Data.List.Induction
import Shinran.Ibus.Editor

namespace Shinran

/-! ## §1. Strokes. -/

/-- What a typist does. -/
inductive Stroke where
  | edit (key : EditKey)
  /-- Return, while texts stand for these texts -/
  | enter (expand : String → Option String)
  | discard

/-- A stroke that may do something. -/
def Stroke.effective : Stroke → Bool
  | .edit .nothing => false
  | _ => true

/-- The text of a typist, and what has been committed so far. -/
structure Typist where
  editor : Editor := {}
  committed : List String := []

namespace Typist

/-- What Return commits. -/
def output (text : List Char) (expand : String → Option String) : List String :=
  if text = [] then [] else (expand (String.ofList text)).toList

def strike (typist : Typist) : Stroke → Typist
  | .edit key => { typist with editor := typist.editor.apply key }
  | .enter expand => { committed := typist.committed ++ output typist.editor.text expand }
  | .discard => { typist with editor := {} }

/-- One stroke after another. -/
def type (strokes : List Stroke) : Typist := strokes.foldl strike {}

theorem type_snoc (strokes : List Stroke) (stroke : Stroke) :
    type (strokes ++ [stroke]) = (type strokes).strike stroke := by
  simp [type]

theorem mem_output {text : List Char} {expand : String → Option String} {out : String} :
    out ∈ output text expand ↔ text ≠ [] ∧ expand (String.ofList text) = some out := by
  unfold output
  split
  · rename_i hempty
    simp [hempty]
  · rename_i hne
    rw [Option.mem_toList, and_iff_right hne]

/-- **Only Return commits.** -/
theorem mem_of_strike {typist : Typist} {stroke : Stroke} {more : List String} {out : String}
    (h : typist.committed ++ more = (typist.strike stroke).committed) (hout : out ∈ more) :
    ∃ expand, stroke = .enter expand ∧ out ∈ output typist.editor.text expand := by
  cases stroke with
  | edit | discard =>
      rw [List.append_right_eq_self.mp h] at hout
      cases hout
  | enter expand =>
      obtain rfl := List.append_cancel_left h
      exact ⟨expand, rfl, hout⟩

@[simp] theorem output_nil (expand : String → Option String) : output [] expand = [] := rfl

/-! ## §2. Strokes that do nothing. -/

theorem strike_of_not_effective (typist : Typist) {stroke : Stroke}
    (h : stroke.effective = false) : typist.strike stroke = typist := by
  cases stroke with
  | edit key =>
      cases key with
      | nothing => rfl
      | _ => cases h
  | _ => cases h

/-- **Strokes that do nothing can be left out.** -/
theorem type_effective (strokes : List Stroke) :
    type (strokes.filter Stroke.effective) = type strokes := by
  unfold type
  generalize ({} : Typist) = typist
  induction strokes generalizing typist with
  | nil => rfl
  | cons stroke strokes ih =>
      rw [List.filter_cons]
      cases h : stroke.effective with
      | true => exact ih _
      | false =>
          rw [List.foldl_cons, strike_of_not_effective typist h]
          exact ih typist

/-! ## §3. What the text consists of. -/

theorem length_type_le (strokes : List Stroke) :
    (type strokes).editor.text.length ≤ strokes.length := by
  induction strokes using List.reverseRecOn with
  | nil => exact Nat.le_refl 0
  | append_singleton strokes stroke ih =>
      rw [type_snoc, List.length_append, List.length_singleton]
      cases stroke with
      | edit key =>
          have hadded := (type strokes).editor.length_apply_le key
          show ((type strokes).editor.apply key).text.length ≤ _
          omega
      | enter | discard => exact Nat.zero_le _

/-- **Nothing is in the text that has not been typed.** -/
theorem forall_mem_type {P : Char → Prop} {strokes : List Stroke}
    (h : ∀ c, Stroke.edit (.insert c) ∈ strokes → P c) : ∀ c ∈ (type strokes).editor.text, P c := by
  induction strokes using List.reverseRecOn with
  | nil => exact fun c hc => by cases hc
  | append_singleton strokes stroke ih =>
      have hbefore := ih fun c hc => h c (List.mem_append_left _ hc)
      rw [type_snoc]
      cases stroke with
      | edit key =>
          refine Editor.forall_mem_apply hbefore fun c hkey => h c ?_
          rw [hkey]
          exact List.mem_append_right _ (List.mem_singleton_self _)
      | enter | discard => exact fun c hc => by cases hc

end Typist

end Shinran
