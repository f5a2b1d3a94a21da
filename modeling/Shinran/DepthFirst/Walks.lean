/-
  Shinran.DepthFirst.Walks
  ────────────────────────
  **WALKS THAT END.**

  A recursion that follows a relation with no record of where it has been
  ends if and only if no walk goes on for ever.  Where only finitely many
  elements are successors of anything, an endless walk is one that runs into
  a cycle.

    • `acc_iff_acyclic` — every walk from `a` ends iff `a` reaches no cycle.
-/
import Mathlib.Data.Fintype.Card
import Mathlib.Data.Set.Finite.Basic
import Mathlib.Logic.Relation

namespace DepthFirst

open Relation

variable {α : Type*} {r : α → α → Prop}

/-- Nothing from which every walk ends lies on a cycle. -/
theorem not_transGen_of_acc {a : α} (h : Acc (fun b c => r c b) a) : ¬ TransGen r a a := by
  induction h with
  | intro a _ ih =>
      intro hcycle
      -- the second node of the cycle lies on it as well
      obtain ⟨b, hab, hba⟩ := TransGen.head'_iff.mp hcycle
      exact ih b hab (TransGen.tail' hba hab)

theorem acc_of_reaches {a b : α} (hab : ReflTransGen r a b) (h : Acc (fun b c => r c b) a) :
    Acc (fun b c => r c b) b := by
  induction hab with
  | refl => exact h
  | tail _ hcb ih => exact ih.inv hcb

/-- **Every walk from `a` ends exactly when `a` reaches no cycle**, if finitely many elements
are successors. -/
theorem acc_iff_acyclic (hfin : {b | ∃ c, r c b}.Finite) {a : α} :
    Acc (fun b c => r c b) a ↔ ∀ b, ReflTransGen r a b → ¬ TransGen r b b := by
  constructor
  · intro h b hab
    exact not_transGen_of_acc (acc_of_reaches hab h)
  · intro hacyclic
    -- what `a` reaches is `a` and some of the successors
    have hreach : {b | ReflTransGen r a b} ⊆ insert a {b | ∃ c, r c b} := by
      intro b hab
      cases ReflTransGen.cases_tail hab with
      | inl heq => exact Or.inl heq
      | inr hstep =>
          obtain ⟨c, _, hcb⟩ := hstep
          exact Or.inr ⟨c, hcb⟩
    have hfinite : Finite {b // ReflTransGen r a b} :=
      ((hfin.insert a).subset hreach).to_subtype
    -- on a finite set an acyclic relation is well-founded
    have hwf : WellFounded fun x y : {b // ReflTransGen r a b} => TransGen r y.1 x.1 := by
      have : IsTrans {b // ReflTransGen r a b} fun x y => TransGen r y.1 x.1 :=
        ⟨fun _ _ _ hxy hyz => hyz.trans hxy⟩
      have : Std.Irrefl fun x y : {b // ReflTransGen r a b} => TransGen r y.1 x.1 :=
        ⟨fun x => hacyclic x.1 x.2⟩
      exact Finite.wellFounded_of_trans_of_irrefl _
    have hall : ∀ x : {b // ReflTransGen r a b}, Acc (fun b c => r c b) x.1 := by
      intro x
      induction x using hwf.induction with
      | _ x ih => exact .intro _ fun b hb => ih ⟨b, x.2.tail hb⟩ (.single hb)
    exact hall ⟨a, .refl⟩

end DepthFirst
