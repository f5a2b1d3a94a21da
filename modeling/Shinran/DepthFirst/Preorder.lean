/-
  Shinran.DepthFirst.Preorder
  ───────────────────────────
  **DEPTH-FIRST PRE-ORDER.**

  A program that follows links and skips what it has seen visits nodes in
  depth-first pre-order.  `Preorder g as visited new` says, with no recursion
  depth in it, that following `as` with `visited` behind one visits `new`;
  successors that are not nodes are passed over.

    • `preorder_spec`   — the order visits exactly the nodes reached from the
                          start, each once,
    • `walk`            — the search as a program runs it, with fuel for the
                          depth of its recursion,
    • `walk_eq`         — with fuel for every unseen node the search returns
                          the pre-order, and there is just one,
    • `Preorder.rename` — renaming nodes renames the order.
-/
import Shinran.DepthFirst.Basic

namespace DepthFirst

variable {α β : Type*}

/-! ## §1. The order. -/

/-- Following `as`, with `visited` behind one, visits `new`. -/
inductive Preorder (g : Graph α) : List α → List α → List α → Prop
  | nil {visited : List α} : Preorder g [] visited []
  | seen {a : α} {as visited new : List α} : a ∈ visited →
      Preorder g as visited new → Preorder g (a :: as) visited new
  | missing {a : α} {as visited new : List α} : a ∉ visited → g a = none →
      Preorder g as visited new → Preorder g (a :: as) visited new
  | visit {a : α} {as bs visited below rest : List α} : a ∉ visited → g a = some bs →
      Preorder g bs (visited ++ [a]) below →
      Preorder g as (visited ++ a :: below) rest →
      Preorder g (a :: as) visited (a :: (below ++ rest))

/-- There is only one order. -/
theorem Preorder.unique {g : Graph α} {as visited new new' : List α}
    (h : Preorder g as visited new) (h' : Preorder g as visited new') : new = new' := by
  -- the rules exclude each other
  induction h generalizing new' with
  | nil =>
      cases h'
      rfl
  | seen hseen _ ih =>
      cases h' with
      | seen _ h' => exact ih h'
      | missing hnot _ _ => exact absurd hseen hnot
      | visit hnot _ _ _ => exact absurd hseen hnot
  | missing hnot hnone _ ih =>
      cases h' with
      | seen hseen _ => exact absurd hseen hnot
      | missing _ _ h' => exact ih h'
      | visit _ hsome _ _ => simp [hnone] at hsome
  | visit hnot hsome _ _ ih₁ ih₂ =>
      cases h' with
      | seen hseen _ => exact absurd hseen hnot
      | missing _ hnone _ => simp [hnone] at hsome
      | visit _ hsome' h₁ h₂ =>
          obtain rfl := Option.some.inj (hsome.symm.trans hsome')
          obtain rfl := ih₁ h₁
          obtain rfl := ih₂ h₂
          rfl

/-- Every node visited is new, comes once, and is reached from the start. -/
theorem Preorder.sound {g : Graph α} {as visited new : List α} (h : Preorder g as visited new) :
    new.Nodup ∧ (∀ b ∈ new, b ∉ visited)
      ∧ ∀ b ∈ new, (g b).isSome ∧ ∃ a ∈ as, Reaches g a b := by
  induction h with
  | nil => simp
  | seen _ _ ih =>
      obtain ⟨hnodup, hnew, hreach⟩ := ih
      refine ⟨hnodup, hnew, fun b hb => ⟨(hreach b hb).1, ?_⟩⟩
      obtain ⟨a, ha, hab⟩ := (hreach b hb).2
      exact ⟨a, List.mem_cons_of_mem _ ha, hab⟩
  | missing _ _ _ ih =>
      obtain ⟨hnodup, hnew, hreach⟩ := ih
      refine ⟨hnodup, hnew, fun b hb => ⟨(hreach b hb).1, ?_⟩⟩
      obtain ⟨a, ha, hab⟩ := (hreach b hb).2
      exact ⟨a, List.mem_cons_of_mem _ ha, hab⟩
  | @visit a as bs visited below rest hnot hsome _ _ ih₁ ih₂ =>
      obtain ⟨hnodup₁, hnew₁, hreach₁⟩ := ih₁
      obtain ⟨hnodup₂, hnew₂, hreach₂⟩ := ih₂
      refine ⟨?_, ?_, ?_⟩
      -- the node, what is below it and the rest are three disjoint parts
      · rw [List.nodup_cons, List.nodup_append, List.mem_append]
        refine ⟨?_, hnodup₁, hnodup₂, fun x hx y hy hxy => hnew₂ y hy (by simp [← hxy, hx])⟩
        intro ha
        cases ha with
        | inl ha => exact hnew₁ a ha (by simp)
        | inr ha => exact hnew₂ a ha (by simp)
      · intro b hb hvisited
        rw [List.mem_cons, List.mem_append] at hb
        obtain rfl | hb | hb := hb
        · exact hnot hvisited
        · exact hnew₁ b hb (List.mem_append_left _ hvisited)
        · exact hnew₂ b hb (List.mem_append_left _ hvisited)
      · intro b hb
        rw [List.mem_cons, List.mem_append] at hb
        obtain rfl | hb | hb := hb
        · exact ⟨by simp [hsome], b, List.mem_cons_self, .refl⟩
        · obtain ⟨hnode, c, hc, hcb⟩ := hreach₁ b hb
          exact ⟨hnode, a, List.mem_cons_self, .head (.of_mem hsome hc) hcb⟩
        · obtain ⟨hnode, c, hc, hcb⟩ := hreach₂ b hb
          exact ⟨hnode, c, List.mem_cons_of_mem _ hc, hcb⟩

/-- Nothing is left out: the nodes among `as` are visited, and so are the successors of
everything newly visited. -/
theorem Preorder.complete {g : Graph α} {as visited new : List α}
    (h : Preorder g as visited new) :
    (∀ a ∈ as, (g a).isSome → a ∈ visited ++ new)
      ∧ ∀ a ∈ new, ∀ b, Edge g a b → (g b).isSome → b ∈ visited ++ new := by
  induction h with
  | nil => simp
  | seen hseen _ ih =>
      refine ⟨fun b hb hnode => ?_, ih.2⟩
      cases List.mem_cons.mp hb with
      | inl heq => exact List.mem_append_left _ (heq ▸ hseen)
      | inr hb => exact ih.1 b hb hnode
  | missing _ hnone _ ih =>
      refine ⟨fun b hb hnode => ?_, ih.2⟩
      cases List.mem_cons.mp hb with
      | inl heq => simp [heq, hnone] at hnode
      | inr hb => exact ih.1 b hb hnode
  | @visit a as bs visited below rest _ hsome _ _ ih₁ ih₂ =>
      -- what is visited below the node, or after it, is visited in the end
      have hbelow : ∀ b, b ∈ visited ++ [a] ++ below →
          b ∈ visited ++ (a :: (below ++ rest)) := by
        intro b hb
        simp only [List.mem_append, List.mem_cons, List.not_mem_nil, or_false] at hb ⊢
        tauto
      have hrest : ∀ b, b ∈ visited ++ (a :: below) ++ rest →
          b ∈ visited ++ (a :: (below ++ rest)) := by
        intro b hb
        simp only [List.mem_append, List.mem_cons] at hb ⊢
        tauto
      refine ⟨fun b hb hnode => ?_, fun x hx b hxb hnode => ?_⟩
      · cases List.mem_cons.mp hb with
        | inl heq => simp [heq]
        | inr hb => exact hrest b (ih₂.1 b hb hnode)
      · rw [List.mem_cons, List.mem_append] at hx
        obtain rfl | hx | hx := hx
        · obtain ⟨bs', hbs', hb⟩ := hxb
          obtain rfl := Option.some.inj (hsome.symm.trans hbs')
          exact hbelow b (ih₁.1 b hb hnode)
        · exact hbelow b (ih₁.2 x hx b hxb hnode)
        · exact hrest b (ih₂.2 x hx b hxb hnode)

/-- **What a pre-order visits from nothing**: exactly the nodes reached from the start, each
once. -/
theorem preorder_spec {g : Graph α} {as new : List α} (h : Preorder g as [] new) :
    new.Nodup ∧ ∀ b, b ∈ new ↔ (g b).isSome ∧ ∃ a ∈ as, Reaches g a b := by
  obtain ⟨hnodup, _, hreach⟩ := h.sound
  obtain ⟨hstart, hclosed⟩ := h.complete
  simp only [List.nil_append] at hstart hclosed
  refine ⟨hnodup, fun b => ⟨hreach b, fun hb => ?_⟩⟩
  obtain ⟨hnode, a, ha, hab⟩ := hb
  -- a walk from a node goes through nodes, up to its last step
  have hwalk : ∀ c, Reaches g a c → (g c).isSome → c ∈ new := by
    intro c hac
    induction hac with
    | refl => exact hstart a ha
    | tail _ hcd ih => exact hclosed _ (ih hcd.isSome) _ hcd
  exact hwalk b hab hnode

/-! ## §2. Renaming the nodes. -/

/-- **Renaming.**  A partial, injective renaming that names every visited node, and under
which a node keeps those successors that have a name, carries the order over. -/
theorem Preorder.rename {g : Graph α} {g' : Graph β} {f : α → Option β}
    (hinj : ∀ a a' b, f a = some b → f a' = some b → a = a')
    (hsucc : ∀ a b, f a = some b → g' b = (g a).map (·.filterMap f))
    {as visited new : List α} (h : Preorder g as visited new)
    (hnew : ∀ a ∈ new, ∃ b, f a = some b) :
    Preorder g' (as.filterMap f) (visited.filterMap f) (new.filterMap f) := by
  have hmem : ∀ {a b} {l : List α}, f a = some b → (b ∈ l.filterMap f ↔ a ∈ l) := by
    intro a b l hab
    rw [List.mem_filterMap]
    constructor
    · intro h
      obtain ⟨a', ha', hb⟩ := h
      exact hinj a a' b hab hb ▸ ha'
    · exact fun ha => ⟨a, ha, hab⟩
  induction h with
  | nil => exact .nil
  | @seen a as visited new hseen _ ih =>
      have ih := ih hnew
      cases hf : f a with
      | none => simpa [hf] using ih
      | some b =>
          rw [List.filterMap_cons_some hf]
          exact .seen ((hmem hf).mpr hseen) ih
  | @missing a as visited new hnot hnone _ ih =>
      have ih := ih hnew
      cases hf : f a with
      | none => simpa [hf] using ih
      | some b =>
          rw [List.filterMap_cons_some hf]
          refine .missing (fun hb => hnot ((hmem hf).mp hb)) ?_ ih
          rw [hsucc a b hf, hnone, Option.map_none]
  | @visit a as bs visited below rest hnot hsome _ _ ih₁ ih₂ =>
      obtain ⟨b, hf⟩ := hnew a List.mem_cons_self
      have ih₁ := ih₁ fun x hx => hnew x (by simp [hx])
      have ih₂ := ih₂ fun x hx => hnew x (by simp [hx])
      have hnode : g' b = some (bs.filterMap f) := by
        rw [hsucc a b hf, hsome, Option.map_some]
      rw [List.filterMap_cons_some hf, List.filterMap_cons_some hf, List.filterMap_append]
      refine .visit (fun hb => hnot ((hmem hf).mp hb)) hnode ?_ ?_
      · simpa [hf] using ih₁
      · simpa [hf] using ih₂

/-! ## §3. The search. -/

variable [DecidableEq α]

/-- Follow `as` one after another; `walk` follows the successors of a node. -/
def walkEach (g : Graph α) (walk : List α → List α → Option (List α)) :
    List α → List α → Option (List α)
  | [], visited => some visited
  | a :: as, visited =>
      if a ∈ visited then walkEach g walk as visited
      else
        match g a with
        | none => walkEach g walk as visited
        | some bs =>
            match walk bs (visited ++ [a]) with
            | none => none
            | some visited' => walkEach g walk as visited'

/-- Follow `as`, with `visited` behind one; the result is everything visited. -/
def walk (g : Graph α) : Nat → List α → List α → Option (List α)
  | 0, _, _ => none
  | fuel + 1, as, visited => walkEach g (walk g fuel) as visited

/-- The loop follows a pre-order, given that the recursion does. -/
theorem walkEach_eq {g : Graph α} {U : List α} (hU : ∀ a, (g a).isSome → a ∈ U)
    {walk : List α → List α → Option (List α)} {fuel : Nat}
    (hwalk : ∀ bs visited, unseen U visited < fuel →
      ∃ new, Preorder g bs visited new ∧ walk bs visited = some (visited ++ new)) :
    ∀ as visited, unseen U visited ≤ fuel →
      ∃ new, Preorder g as visited new ∧ walkEach g walk as visited = some (visited ++ new)
  | [], visited, _ => ⟨[], .nil, by simp [walkEach]⟩
  | a :: as, visited, hfuel => by
      unfold walkEach
      by_cases hseen : a ∈ visited
      · obtain ⟨new, hnew, heq⟩ := walkEach_eq hU hwalk as visited hfuel
        exact ⟨new, .seen hseen hnew, by rw [if_pos hseen, heq]⟩
      rw [if_neg hseen]
      cases hnode : g a with
      | none =>
          obtain ⟨new, hnew, heq⟩ := walkEach_eq hU hwalk as visited hfuel
          exact ⟨new, .missing hseen hnode hnew, heq⟩
      | some bs =>
          -- entering a node uses up one unseen node, and one unit of fuel
          have hlt : unseen U (visited ++ [a]) < unseen U visited :=
            unseen_lt (fun _ => List.mem_append_left _) (hU a (by simp [hnode])) hseen (by simp)
          obtain ⟨below, hbelow, heq₁⟩ := hwalk bs (visited ++ [a]) (by omega)
          have hle : unseen U (visited ++ [a] ++ below) ≤ fuel :=
            Nat.le_trans (unseen_mono fun _ => List.mem_append_left _) (by omega)
          obtain ⟨rest, hrest, heq₂⟩ := walkEach_eq hU hwalk as _ hle
          refine ⟨a :: (below ++ rest), .visit hseen hnode hbelow (by simpa using hrest), ?_⟩
          simp only [heq₁, heq₂]
          simp

/-- **The search returns the pre-order**, with fuel for every unseen node. -/
theorem walk_eq {g : Graph α} {U : List α} (hU : ∀ a, (g a).isSome → a ∈ U) :
    ∀ (fuel : Nat) (as visited : List α), unseen U visited < fuel →
      ∃ new, Preorder g as visited new ∧ walk g fuel as visited = some (visited ++ new)
  | 0, _, _, hfuel => by omega
  | fuel + 1, as, visited, hfuel =>
      walkEach_eq hU (fun bs visited hlt => walk_eq hU fuel bs visited hlt) as visited (by omega)

end DepthFirst
