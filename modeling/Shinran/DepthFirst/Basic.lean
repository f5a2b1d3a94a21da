/-
  Shinran.DepthFirst.Basic
  ────────────────────────
  **GRAPHS GIVEN BY SUCCESSOR LISTS.**

  A graph is a partial map from nodes to successor lists, as a program that
  follows names or paths sees it: a successor may turn out not to be a node.
  The two searches of this library (`Topological`, `Preorder`) share the
  notions defined here:

    • `Edge`/`Reaches` — one step, and any number of steps,
    • `AgreeBelow`     — two graphs that are the same as far as a node reaches,
    • `TopoOrder`      — a list in which every successor comes strictly earlier,
    • `unseen`         — how many nodes of a finite support a search has not
                         met yet; it bounds the depth of the recursion.
-/
import Mathlib.Data.List.Induction
import Mathlib.Data.List.Nodup
import Mathlib.Logic.Relation
import Mathlib.Tactic.Common

namespace DepthFirst

open Relation

variable {α : Type*}

/-! ## §1. Edges and reachability. -/

/-- The successor list of every node; `none` where there is no node. -/
abbrev Graph (α : Type*) := α → Option (List α)

/-- `b` is listed among the successors of the node `a`. -/
def Edge (g : Graph α) (a b : α) : Prop := ∃ bs, g a = some bs ∧ b ∈ bs

/-- `b` is reached from `a` along edges, in any number of steps. -/
def Reaches (g : Graph α) : α → α → Prop := ReflTransGen (Edge g)

theorem Edge.of_mem {g : Graph α} {a b : α} {bs : List α} (h : g a = some bs)
    (hb : b ∈ bs) : Edge g a b := ⟨bs, h, hb⟩

theorem Edge.isSome {g : Graph α} {a b : α} (h : Edge g a b) : (g a).isSome := by
  obtain ⟨bs, hbs, _⟩ := h
  simp [hbs]

/-- What leads to a node of the graph is a node of the graph. -/
theorem Reaches.isSome {g : Graph α} {a b : α} (h : Reaches g a b) (hb : (g b).isSome) :
    (g a).isSome := by
  cases h.cases_head with
  | inl heq => exact heq ▸ hb
  | inr hstep =>
      obtain ⟨_, hedge, _⟩ := hstep
      exact hedge.isSome

/-- **The same walk in another graph**, if the edges between the nodes on the way are there. -/
theorem Reaches.transfer {g g' : Graph α} {a b : α} (h : Reaches g a b) (hb : (g b).isSome)
    (hedge : ∀ c d, Reaches g a c → Edge g c d → (g d).isSome → Edge g' c d) :
    Reaches g' a b := by
  induction h with
  | refl => exact .refl
  | tail hac hcd ih => exact (ih hcd.isSome).tail (hedge _ _ hac hcd hb)

/-- A set that contains `a` and is closed under edges contains all that `a` reaches. -/
theorem Reaches.mem_of_closed {g : Graph α} {p : α → Prop} {a b : α}
    (h : Reaches g a b) (ha : p a) (hclosed : ∀ x y, p x → Edge g x y → p y) : p b := by
  induction h with
  | refl => exact ha
  | tail _ hxy ih => exact hclosed _ _ ih hxy

/-- The two graphs have the same nodes and edges as far as `a` reaches. -/
def AgreeBelow (g g' : Graph α) (a : α) : Prop :=
  ∀ b, Reaches g a b → ((g b).isSome ↔ (g' b).isSome) ∧ ∀ c, Edge g b c ↔ Edge g' b c

theorem AgreeBelow.reaches_iff {g g' : Graph α} {a b : α} (h : AgreeBelow g g' a) :
    Reaches g a b ↔ Reaches g' a b := by
  constructor
  · intro hab
    induction hab with
    | refl => exact .refl
    | tail hac hcb ih => exact ih.tail (((h _ hac).2 _).mp hcb)
  · intro hab
    induction hab with
    | refl => exact .refl
    | tail _ hcb ih => exact ih.tail (((h _ ih).2 _).mpr hcb)

theorem AgreeBelow.symm {g g' : Graph α} {a : α} (h : AgreeBelow g g' a) :
    AgreeBelow g' g a := by
  intro b hab
  obtain ⟨hnode, hedge⟩ := h b (h.reaches_iff.mpr hab)
  exact ⟨hnode.symm, fun c => (hedge c).symm⟩

/-! ## §2. Topological orders. -/

/-- Every element of the list is a node all of whose successors come strictly earlier. -/
def TopoOrder (g : Graph α) (l : List α) : Prop :=
  ∀ pre a post, l = pre ++ a :: post → (g a).isSome ∧ ∀ b, Edge g a b → b ∈ pre

theorem topoOrder_nil (g : Graph α) : TopoOrder g [] := by
  intro pre a post h
  simp at h

theorem TopoOrder.snoc {g : Graph α} {l : List α} {a : α} (h : TopoOrder g l)
    (hnode : (g a).isSome) (ha : ∀ b, Edge g a b → b ∈ l) : TopoOrder g (l ++ [a]) := by
  intro pre c post heq
  -- either the split is at the new element, or it is one of `l`
  rcases List.eq_nil_or_concat post with rfl | ⟨post', z, rfl⟩
  · obtain ⟨h1, h2⟩ := List.append_inj' heq rfl
    obtain rfl : a = c := by simpa using h2
    exact ⟨hnode, fun b hb => h1 ▸ ha b hb⟩
  · have heq' : l ++ [a] = (pre ++ c :: post') ++ [z] := by simpa using heq
    obtain ⟨h1, _⟩ := List.append_inj' heq' rfl
    exact h pre c post' h1

theorem TopoOrder.isSome {g : Graph α} {l : List α} (h : TopoOrder g l) {a : α}
    (ha : a ∈ l) : (g a).isSome := by
  obtain ⟨pre, post, rfl⟩ := List.append_of_mem ha
  exact (h pre a post rfl).1

/-- A topological order is closed under edges. -/
theorem TopoOrder.mem_of_edge {g : Graph α} {l : List α} (h : TopoOrder g l) {a b : α}
    (ha : a ∈ l) (hab : Edge g a b) : b ∈ l := by
  obtain ⟨pre, post, rfl⟩ := List.append_of_mem ha
  exact List.mem_append_left _ ((h pre a post rfl).2 b hab)

theorem TopoOrder.mem_of_reaches {g : Graph α} {l : List α} (h : TopoOrder g l) {a b : α}
    (ha : a ∈ l) (hab : Reaches g a b) : b ∈ l :=
  hab.mem_of_closed (p := (· ∈ l)) ha fun _ _ hx hxy => h.mem_of_edge hx hxy

/-- Whatever `a` reaches in one step or more comes strictly before `a`. -/
theorem TopoOrder.mem_before {g : Graph α} {l : List α} (h : TopoOrder g l) {a b : α}
    (hab : TransGen (Edge g) a b) {pre post : List α} (heq : l = pre ++ a :: post) :
    b ∈ pre := by
  -- along the path, each node lies before the one it is reached from
  induction hab with
  | single hab => exact (h pre a post heq).2 _ hab
  | tail _ hbc ih =>
      obtain ⟨s, t, rfl⟩ := List.append_of_mem ih
      have hc := (h s _ (t ++ a :: post) (by simp [heq])).2 _ hbc
      exact List.mem_append_left _ hc

/-- A topological order without repetitions has no cycle through any of its elements. -/
theorem TopoOrder.acyclic {g : Graph α} {l : List α} (h : TopoOrder g l) (hnd : l.Nodup)
    {a : α} (ha : a ∈ l) : ¬ TransGen (Edge g) a a := by
  intro hcycle
  obtain ⟨pre, post, rfl⟩ := List.append_of_mem ha
  have hpre : a ∈ pre := h.mem_before hcycle rfl
  exact (List.nodup_append.mp hnd).2.2 a hpre a (by simp) rfl

theorem TopoOrder.of_append {g : Graph α} {s t : List α} (h : TopoOrder g (s ++ t)) :
    TopoOrder g s := by
  rintro pre a post rfl
  exact h pre a (post ++ t) (by simp)

/-- **A chain keeps its order**: elements each of which is a successor of the next one occur
in a topological order one after another, as soon as the last of them occurs. -/
theorem TopoOrder.sublist_of_chain {g : Graph α} {chain : List α} :
    ∀ {l : List α}, TopoOrder g l →
      (∀ pre a b post, chain = pre ++ a :: b :: post → Edge g b a) →
      (∀ a, chain.getLast? = some a → a ∈ l) → chain.Sublist l := by
  -- from the back: the rest of the chain lies in front of its last element
  induction chain using List.reverseRecOn with
  | nil => intro l _ _ _; exact List.nil_sublist l
  | append_singleton chain b ih =>
      intro l hl hchain hlast
      obtain ⟨s, t, rfl⟩ := List.append_of_mem (hlast b (by simp))
      have hsub : chain.Sublist s := by
        refine ih hl.of_append ?_ ?_
        · rintro pre a c post rfl
          exact hchain pre a c (post ++ [b]) (by simp)
        · intro a ha
          obtain ⟨pre, rfl⟩ := List.getLast?_eq_some_iff.mp ha
          exact (hl s b t rfl).2 a (hchain pre a b [] (by simp))
      exact hsub.append (by simp)

/-! ## §3. The number of nodes not met yet. -/

variable [DecidableEq α]

/-- How many entries of the support `U` are not in `seen`. -/
def unseen (U seen : List α) : Nat := U.countP (fun a => decide (a ∉ seen))

theorem unseen_le_length (U seen : List α) : unseen U seen ≤ U.length :=
  List.countP_le_length

theorem unseen_mono {U s t : List α} (h : ∀ a ∈ s, a ∈ t) : unseen U t ≤ unseen U s := by
  apply List.countP_mono_left
  intro a _ ha
  simp only [decide_eq_true_eq] at ha ⊢
  exact fun hs => ha (h a hs)

/-- Meeting a new entry of the support lowers the count. -/
theorem unseen_lt {U s t : List α} (h : ∀ a ∈ s, a ∈ t) {a : α} (haU : a ∈ U)
    (has : a ∉ s) (hat : a ∈ t) : unseen U t < unseen U s := by
  obtain ⟨U₁, U₂, rfl⟩ := List.append_of_mem haU
  have h1 := unseen_mono (U := U₁) h
  have h2 := unseen_mono (U := U₂) h
  -- only the entry `a` itself counts for `s` and no longer for `t`
  unfold unseen at h1 h2 ⊢
  simp only [List.countP_append, List.countP_cons, has, hat, not_true_eq_false,
    not_false_eq_true, decide_true, decide_false, if_true, Bool.false_eq_true, if_false]
  omega

end DepthFirst
