/-
  Shinran.DepthFirst.Topological
  ──────────────────────────────
  **DEPTH-FIRST TOPOLOGICAL SORT WITH CYCLE DETECTION.**

  `visit g fuel a s` is the textbook search: mark `a` as seen, visit the
  successors that are not finished yet, then append `a` to the finished list.
  A successor that is seen but not finished closes a cycle; a successor that
  is not a node is missing.

    • `visit_spec`   — with fuel for every unseen node the search returns; it
                       either extends the finished list to a topological order
                       or reports a fault that is really there,
    • `visit_start`  — from the empty state the order is of exactly the nodes
                       that are reached,
    • `visit_fuel`   — more fuel never changes a result,
    • `Reordered.resolvable` — whether the search succeeds does not depend on
                       the order of a chain of nodes.
-/
import Shinran.DepthFirst.Basic

namespace DepthFirst

open Relation

variable {α : Type*}

/-! ## §1. The search. -/

/-- Why a search stops early. -/
inductive Fault (α : Type*) where
  /-- The successor is not a node of the graph. -/
  | missing (a : α)
  /-- The second node is a successor of the first and still being visited. -/
  | cycle (a b : α)
  deriving DecidableEq, Repr

/-- The progress of a search: finished nodes in finishing order, and every node met. -/
structure Search (α : Type*) where
  done : List α
  seen : List α
  deriving DecidableEq, Repr

/-- The outcome of a search; `none` means that the fuel ran out. -/
abbrev Outcome (α : Type*) := Option (Except (Fault α) (Search α))

variable [DecidableEq α]

/-- Visit the listed successors of `a` one after another. -/
def visitAll (g : Graph α) (visit : α → Search α → Outcome α) (a : α) :
    List α → Search α → Outcome α
  | [], s => some (.ok s)
  | b :: bs, s =>
      if b ∈ s.done then visitAll g visit a bs s
      else if b ∈ s.seen then some (.error (.cycle a b))
      else if (g b).isSome then
        match visit b s with
        | some (.ok s') => visitAll g visit a bs s'
        | r => r
      else some (.error (.missing b))

/-- Visit the node `a`. -/
def visit (g : Graph α) : Nat → α → Search α → Outcome α
  | 0, _, _ => none
  | fuel + 1, a, s =>
      match visitAll g (visit g fuel) a ((g a).getD []) { s with seen := a :: s.seen } with
      | some (.ok s') => some (.ok { s' with done := s'.done ++ [a] })
      | r => r

/-! ## §2. More fuel never changes a result. -/

theorem visitAll_congr {g : Graph α} {v w : α → Search α → Outcome α} {a : α}
    (hvw : ∀ b s r, v b s = some r → w b s = some r) :
    ∀ (bs : List α) (s : Search α) (r : Except (Fault α) (Search α)),
      visitAll g v a bs s = some r → visitAll g w a bs s = some r
  | [], s, r, h => h
  | b :: bs, s, r, h => by
      -- only the branch that visits `b` asks the two visits; the others agree as they stand
      unfold visitAll at h ⊢
      split
      · rename_i hdone
        rw [if_pos hdone] at h
        exact visitAll_congr hvw bs s r h
      · rename_i hdone
        rw [if_neg hdone] at h
        split
        · rename_i hseen
          rwa [if_pos hseen] at h
        · rename_i hseen
          rw [if_neg hseen] at h
          split
          · rename_i hnode
            rw [if_pos hnode] at h
            cases hv : v b s with
            | none => simp [hv] at h
            | some r' =>
                rw [hvw b s r' hv]
                cases r' with
                | error f => simpa [hv] using h
                | ok s' =>
                    simp only [hv] at h
                    exact visitAll_congr hvw bs s' r h
          · rename_i hnode
            rwa [if_neg hnode] at h

theorem visit_fuel_succ (g : Graph α) :
    ∀ (fuel : Nat) (a : α) (s : Search α) (r : Except (Fault α) (Search α)),
      visit g fuel a s = some r → visit g (fuel + 1) a s = some r
  | 0, _, _, _, h => by simp [visit] at h
  | fuel + 1, a, s, r, h => by
      unfold visit at h ⊢
      cases hall : visitAll g (visit g fuel) a ((g a).getD [])
          { s with seen := a :: s.seen } with
      | none => simp [hall] at h
      | some r' =>
          rw [visitAll_congr (visit_fuel_succ g fuel) _ _ r' hall]
          cases r' <;> simpa [hall] using h

/-- **More fuel never changes a result.** -/
theorem visit_fuel {g : Graph α} {fuel fuel' : Nat} (hle : fuel ≤ fuel') {a : α}
    {s : Search α} {r : Except (Fault α) (Search α)} (h : visit g fuel a s = some r) :
    visit g fuel' a s = some r := by
  induction hle with
  | refl => exact h
  | step _ ih => exact visit_fuel_succ g _ a s r ih

/-! ## §3. What a search maintains. -/

/-- The finished nodes form a topological order without repetitions, and all were met. -/
structure Sorted (g : Graph α) (s : Search α) : Prop where
  topo : TopoOrder g s.done
  nodup : s.done.Nodup
  met : ∀ a ∈ s.done, a ∈ s.seen

/-- Every node met but not finished leads to `a`: the nodes on the current path. -/
def PathTo (g : Graph α) (s : Search α) (a : α) : Prop :=
  ∀ x ∈ s.seen, x ∉ s.done → Reaches g x a

/-- `s'` continues `s`: what was finished stays so, in front; everything newly finished had
not been met and is reached from a node in `p`; no node joined the current path for good. -/
structure Extends (g : Graph α) (p : α → Prop) (s s' : Search α) : Prop where
  grow : ∃ new, s'.done = s.done ++ new
    ∧ ∀ x ∈ new, x ∉ s.seen ∧ ∃ a, p a ∧ Reaches g a x
  seen : ∀ x, x ∈ s'.seen ↔ x ∈ s.seen ∨ x ∈ s'.done

/-- The fault is really there, at nodes that `a` reaches. -/
def Genuine (g : Graph α) (a : α) : Fault α → Prop
  | .missing b => Reaches g a b ∧ (g b).isSome = false
  | .cycle x y => Reaches g a x ∧ Edge g x y ∧ Reaches g y x

omit [DecidableEq α] in
theorem Genuine.of_reaches {g : Graph α} {a b : α} (hab : Reaches g a b) {f : Fault α}
    (h : Genuine g b f) : Genuine g a f := by
  cases f with
  | missing c => exact ⟨hab.trans h.1, h.2⟩
  | cycle x y => exact ⟨hab.trans h.1, h.2⟩

omit [DecidableEq α] in
theorem Extends.refl {g : Graph α} {p : α → Prop} {s : Search α}
    (hmet : ∀ a ∈ s.done, a ∈ s.seen) : Extends g p s s where
  grow := ⟨[], by simp, by simp⟩
  seen := fun x => ⟨Or.inl, fun h => h.elim id (hmet x)⟩

omit [DecidableEq α] in
theorem Extends.trans {g : Graph α} {p : α → Prop} {s t u : Search α}
    (h₁ : Extends g p s t) (h₂ : Extends g p t u) : Extends g p s u := by
  obtain ⟨new₁, hdone₁, hfrom₁⟩ := h₁.grow
  obtain ⟨new₂, hdone₂, hfrom₂⟩ := h₂.grow
  refine ⟨⟨new₁ ++ new₂, by simp [hdone₂, hdone₁], ?_⟩, ?_⟩
  · intro x hx
    -- what the second search finishes, the first had not met either
    rcases List.mem_append.mp hx with hx | hx
    · exact hfrom₁ x hx
    · exact ⟨fun hs => (hfrom₂ x hx).1 ((h₁.seen x).mpr (Or.inl hs)), (hfrom₂ x hx).2⟩
  · intro x
    rw [h₂.seen, h₁.seen, hdone₂, List.mem_append]
    tauto

omit [DecidableEq α] in
theorem Extends.done_subset {g : Graph α} {p : α → Prop} {s t : Search α}
    (h : Extends g p s t) : ∀ x ∈ s.done, x ∈ t.done := by
  obtain ⟨new, hdone, _⟩ := h.grow
  intro x hx
  rw [hdone]
  exact List.mem_append_left _ hx

omit [DecidableEq α] in
theorem Extends.seen_subset {g : Graph α} {p : α → Prop} {s t : Search α}
    (h : Extends g p s t) : ∀ x ∈ s.seen, x ∈ t.seen :=
  fun x hx => (h.seen x).mpr (Or.inl hx)

omit [DecidableEq α] in
/-- A search that continues another has the same current path or a shorter one. -/
theorem Extends.pathTo {g : Graph α} {p : α → Prop} {s t : Search α} {a : α}
    (h : Extends g p s t) (hs : PathTo g s a) : PathTo g t a := by
  intro x hx hdone
  rcases (h.seen x).mp hx with hx | hx
  · exact hs x hx fun hd => hdone (h.done_subset x hd)
  · exact absurd hx hdone

omit [DecidableEq α] in
theorem Extends.mono {g : Graph α} {p q : α → Prop} {s t : Search α}
    (hpq : ∀ a, p a → ∃ b, q b ∧ Reaches g b a) (h : Extends g p s t) : Extends g q s t := by
  obtain ⟨new, hdone, hfrom⟩ := h.grow
  refine ⟨⟨new, hdone, fun x hx => ?_⟩, h.seen⟩
  obtain ⟨hnew, a, hpa, hax⟩ := hfrom x hx
  obtain ⟨b, hqb, hba⟩ := hpq a hpa
  exact ⟨hnew, b, hqb, hba.trans hax⟩

omit [DecidableEq α] in
/-- Meeting a node keeps what is finished in order. -/
theorem Sorted.enter {g : Graph α} {s : Search α} (h : Sorted g s) (a : α) :
    Sorted g { s with seen := a :: s.seen } :=
  ⟨h.topo, h.nodup, fun x hx => List.mem_cons_of_mem _ (h.met x hx)⟩

omit [DecidableEq α] in
theorem PathTo.enter {g : Graph α} {s : Search α} {a : α} (h : PathTo g s a) :
    PathTo g { s with seen := a :: s.seen } a := by
  intro x hx hdone
  cases List.mem_cons.mp hx with
  | inl heq => exact heq ▸ .refl
  | inr hx => exact h x hx hdone

omit [DecidableEq α] in
/-- A node may be finished once its successors are. -/
theorem Sorted.finish {g : Graph α} {s : Search α} (h : Sorted g s) {a : α}
    (hnode : (g a).isSome) (hedges : ∀ b, Edge g a b → b ∈ s.done) (hseen : a ∈ s.seen)
    (hdone : a ∉ s.done) : Sorted g { s with done := s.done ++ [a] } := by
  refine ⟨h.topo.snoc hnode hedges, List.nodup_append.mpr ⟨h.nodup, by simp, ?_⟩, ?_⟩
  · intro x hx y hy hxy
    rw [List.mem_singleton.mp hy] at hxy
    exact hdone (hxy ▸ hx)
  · intro x hx
    cases List.mem_append.mp hx with
    | inl hx => exact h.met x hx
    | inr hx => exact List.mem_singleton.mp hx ▸ hseen

omit [DecidableEq α] in
/-- From meeting a node to finishing it, the search has only gone below it. -/
theorem Extends.finish {g : Graph α} {s t : Search α} {a : α} {bs : List α} (ha : a ∉ s.seen)
    (hbs : ∀ b ∈ bs, Edge g a b) (h : Extends g (· ∈ bs) { s with seen := a :: s.seen } t) :
    Extends g (· = a) s { t with done := t.done ++ [a] } := by
  obtain ⟨new, hdone, hfrom⟩ := h.grow
  refine ⟨⟨new ++ [a], by simp [hdone], ?_⟩, ?_⟩
  · intro x hx
    cases List.mem_append.mp hx with
    | inl hx =>
        obtain ⟨hnew, b, hb, hbx⟩ := hfrom x hx
        exact ⟨fun hseen => hnew (List.mem_cons_of_mem _ hseen), a, rfl, .head (hbs b hb) hbx⟩
    | inr hx =>
        obtain rfl := List.mem_singleton.mp hx
        exact ⟨ha, x, rfl, .refl⟩
  · intro x
    show x ∈ t.seen ↔ x ∈ s.seen ∨ x ∈ t.done ++ [a]
    rw [h.seen, List.mem_append, List.mem_singleton, List.mem_cons]
    tauto

/-- What a visit of `a` from state `s` must deliver. -/
def VisitSpec (g : Graph α) (a : α) (s : Search α) (r : Outcome α) : Prop :=
  (∃ s', r = some (.ok s') ∧ Sorted g s' ∧ Extends g (· = a) s s' ∧ a ∈ s'.done)
    ∨ ∃ f, r = some (.error f) ∧ Genuine g a f

/-! ## §4. The search is correct. -/

/-- The loop over the successors of `a`, given a correct `visit` for each of them. -/
theorem visitAll_spec {g : Graph α} {v : α → Search α → Outcome α} {a : α}
    {U : List α} {fuel : Nat}
    (hv : ∀ b s, Sorted g s → b ∉ s.seen → (g b).isSome → PathTo g s b →
      unseen U s.seen ≤ fuel → VisitSpec g b s (v b s)) :
    ∀ (bs : List α), (∀ b ∈ bs, Edge g a b) → ∀ (s : Search α), Sorted g s →
      PathTo g s a → unseen U s.seen ≤ fuel →
      (∃ s', visitAll g v a bs s = some (.ok s') ∧ Sorted g s'
          ∧ Extends g (· ∈ bs) s s' ∧ ∀ b ∈ bs, b ∈ s'.done)
        ∨ ∃ f, visitAll g v a bs s = some (.error f) ∧ Genuine g a f
  | [], _, s, hs, _, _ =>
      Or.inl ⟨s, rfl, hs, Extends.refl hs.met, by simp⟩
  | b :: bs, hbs, s, hs, hpath, hfuel => by
      have hab : Edge g a b := hbs b List.mem_cons_self
      have hbs' : ∀ c ∈ bs, Edge g a c := fun c hc => hbs c (List.mem_cons_of_mem _ hc)
      unfold visitAll
      -- the four branches of the loop, in the order of the definition
      by_cases hdone : b ∈ s.done
      · rw [if_pos hdone]
        refine (visitAll_spec hv bs hbs' s hs hpath hfuel).imp ?_ id
        rintro ⟨s', hr, hs', hext, hall⟩
        refine ⟨s', hr, hs', hext.mono fun c hc => ⟨c, List.mem_cons_of_mem _ hc, .refl⟩, ?_⟩
        intro c hc
        rcases List.mem_cons.mp hc with rfl | hc
        · exact hext.done_subset _ hdone
        · exact hall c hc
      rw [if_neg hdone]
      by_cases hseen : b ∈ s.seen
      · -- `b` is on the current path, so it leads back to `a`
        rw [if_pos hseen]
        exact Or.inr ⟨_, rfl, .refl, hab, hpath b hseen hdone⟩
      rw [if_neg hseen]
      by_cases hnode : (g b).isSome
      · rw [if_pos hnode]
        have hpathb : PathTo g s b := fun x hx hxd => (hpath x hx hxd).tail hab
        rcases hv b s hs hseen hnode hpathb hfuel with
          ⟨s₁, hr₁, hs₁, hext₁, hb₁⟩ | ⟨f, hr₁, hf⟩
        · rw [hr₁]
          have hfuel₁ : unseen U s₁.seen ≤ fuel :=
            Nat.le_trans (unseen_mono hext₁.seen_subset) hfuel
          refine (visitAll_spec hv bs hbs' s₁ hs₁ (hext₁.pathTo hpath) hfuel₁).imp ?_ id
          rintro ⟨s', hr, hs', hext, hall⟩
          refine ⟨s', hr, hs', ?_, ?_⟩
          · refine (hext₁.mono ?_).trans (hext.mono ?_)
            · rintro c rfl
              exact ⟨c, List.mem_cons_self, .refl⟩
            · exact fun c hc => ⟨c, List.mem_cons_of_mem _ hc, .refl⟩
          · intro c hc
            rcases List.mem_cons.mp hc with rfl | hc
            · exact hext.done_subset _ hb₁
            · exact hall c hc
        · rw [hr₁]
          exact Or.inr ⟨f, rfl, hf.of_reaches (.single hab)⟩
      · rw [if_neg hnode]
        exact Or.inr ⟨_, rfl, .single hab, by simpa using hnode⟩

/-- **One visit is correct**, from any state whose current path leads to the visited node. -/
theorem visit_spec {g : Graph α} {U : List α} (hU : ∀ a, (g a).isSome → a ∈ U) :
    ∀ (fuel : Nat) (a : α) (s : Search α), Sorted g s → a ∉ s.seen → (g a).isSome →
      PathTo g s a → unseen U s.seen ≤ fuel → VisitSpec g a s (visit g fuel a s)
  | 0, a, s, _, hseen, hnode, _, hfuel => by
      -- an unseen node of the support needs fuel
      have hlt : unseen U (a :: s.seen) < unseen U s.seen :=
        unseen_lt (fun _ => List.mem_cons_of_mem _) (hU a hnode) hseen List.mem_cons_self
      omega
  | fuel + 1, a, s, hs, hseen, hnode, hpath, hfuel => by
      obtain ⟨bs, hbs⟩ := Option.isSome_iff_exists.mp hnode
      have hedge : ∀ b ∈ bs, Edge g a b := fun b hb => .of_mem hbs hb
      have hlt : unseen U (a :: s.seen) < unseen U s.seen :=
        unseen_lt (fun _ => List.mem_cons_of_mem _) (hU a hnode) hseen List.mem_cons_self
      have hloop := visitAll_spec (visit_spec hU fuel) bs hedge { s with seen := a :: s.seen }
        (hs.enter a) hpath.enter (by show unseen U (a :: s.seen) ≤ fuel; omega)
      unfold visit
      rw [hbs, Option.getD_some]
      rcases hloop with ⟨s', hr, hs', hext, hall⟩ | ⟨f, hr, hf⟩
      · rw [hr]
        have hedges : ∀ b, Edge g a b → b ∈ s'.done := by
          intro b hb
          obtain ⟨bs', hbs', hb⟩ := hb
          obtain rfl : bs = bs' := by simpa [hbs] using hbs'
          exact hall b hb
        -- the loop finishes only nodes it had not met, and it had met `a`
        have hnot : a ∉ s'.done := by
          obtain ⟨new, hdone, hfrom⟩ := hext.grow
          rw [hdone, List.mem_append]
          intro h
          cases h with
          | inl hold => exact hseen (hs.met a hold)
          | inr hnew => exact (hfrom a hnew).1 List.mem_cons_self
        exact Or.inl ⟨_, rfl,
          hs'.finish hnode hedges (hext.seen_subset a List.mem_cons_self) hnot,
          hext.finish hseen hedge, by simp⟩
      · rw [hr]
        exact Or.inr ⟨f, rfl, hf⟩

/-! ## §5. Searching from nothing. -/

/-- The state before anything has been met. -/
def Search.start : Search α := ⟨[], []⟩

/-- The graph below `a` is sound: `a` reaches only nodes, and no node on a cycle. -/
def Resolvable (g : Graph α) (a : α) : Prop :=
  (∀ b, Reaches g a b → (g b).isSome) ∧ ∀ b, Reaches g a b → ¬ TransGen (Edge g) b b

omit [DecidableEq α] in
theorem Resolvable.of_agreeBelow {g g' : Graph α} {a : α} (hg : AgreeBelow g g' a)
    (h : Resolvable g a) : Resolvable g' a := by
  refine ⟨fun b hab => ?_, fun b hab hcycle => ?_⟩
  · have hab' := hg.reaches_iff.mpr hab
    exact (hg b hab').1.mp (h.1 b hab')
  · have hab' := hg.reaches_iff.mpr hab
    -- a walk from `b` never leaves what `a` reaches
    have hwalk : ∀ c, TransGen (Edge g') b c → TransGen (Edge g) b c := by
      intro c hbc
      induction hbc with
      | single hbc => exact .single (((hg _ hab').2 _).mpr hbc)
      | tail _ hcd ih => exact ih.tail (((hg _ (hab'.trans ih.to_reflTransGen)).2 _).mpr hcd)
    exact h.2 b hab' (hwalk b hcycle)

omit [DecidableEq α] in
theorem Genuine.not_resolvable {g : Graph α} {a : α} {f : Fault α} (h : Genuine g a f) :
    ¬ Resolvable g a := by
  rintro ⟨hnodes, hacyclic⟩
  cases f with
  | missing b => exact absurd (hnodes b h.1) (by simp [h.2])
  | cycle x y => exact hacyclic x h.1 (TransGen.head' h.2.1 h.2.2)

/-- **A search from nothing**: it returns, and what it returns is a topological order of
exactly the nodes `a` reaches, with `a` last, or a fault that is really there. -/
theorem visit_start {g : Graph α} {U : List α} (hU : ∀ a, (g a).isSome → a ∈ U) {fuel : Nat}
    (hfuel : U.length ≤ fuel) {a : α} (hnode : (g a).isSome) :
    (∃ s, visit g fuel a .start = some (.ok s) ∧ TopoOrder g s.done ∧ s.done.Nodup
        ∧ (∀ b, b ∈ s.done ↔ Reaches g a b))
      ∨ ∃ f, visit g fuel a .start = some (.error f) ∧ Genuine g a f := by
  have hstart : Sorted g (.start : Search α) :=
    ⟨topoOrder_nil g, List.nodup_nil, by simp [Search.start]⟩
  rcases visit_spec hU fuel a .start hstart (by simp [Search.start]) hnode
      (by simp [PathTo, Search.start]) (Nat.le_trans (unseen_le_length _ _) hfuel) with
    ⟨s, hr, hs, hext, ha⟩ | hfault
  · refine Or.inl ⟨s, hr, hs.topo, hs.nodup, fun b => ⟨fun hb => ?_, fun hb => ?_⟩⟩
    -- all that is finished is new, since the search started from nothing
    · obtain ⟨new, hdone, hfrom⟩ := hext.grow
      rw [hdone] at hb
      obtain ⟨_, _, rfl, hab⟩ := hfrom b (by simpa [Search.start] using hb)
      exact hab
    · exact hs.topo.mem_of_reaches ha hb
  · exact Or.inr hfault

/-! ## §6. Some nodes in another order. -/

/-- **Two graphs that differ in a chain of nodes only**, which one of them lists in the order
`l` and the other in the order `l'`.  The chain leads nowhere else, and all of it is reached. -/
structure Reordered (g g' : Graph α) (root : α) (l l' : List α) : Prop where
  topo : TopoOrder g l
  topo' : TopoOrder g' l'
  nodup : l.Nodup
  nodup' : l'.Nodup
  mem_iff : ∀ a, a ∈ l ↔ a ∈ l'
  reaches : ∀ a ∈ l, Reaches g root a
  reaches' : ∀ a ∈ l', Reaches g' root a
  isSome_iff : ∀ a, a ∉ l → ((g a).isSome ↔ (g' a).isSome)
  edge_iff : ∀ a b, a ∉ l → b ∉ l → (Edge g a b ↔ Edge g' a b)

namespace Reordered

variable {g g' : Graph α} {root : α} {l l' : List α}

omit [DecidableEq α] in
theorem symm (h : Reordered g g' root l l') : Reordered g' g root l' l where
  topo := h.topo'
  topo' := h.topo
  nodup := h.nodup'
  nodup' := h.nodup
  mem_iff a := (h.mem_iff a).symm
  reaches := h.reaches'
  reaches' := h.reaches
  isSome_iff a ha := (h.isSome_iff a fun hmem => ha ((h.mem_iff a).mp hmem)).symm
  edge_iff a b ha hb := (h.edge_iff a b (fun hmem => ha ((h.mem_iff a).mp hmem))
    fun hmem => hb ((h.mem_iff b).mp hmem)).symm

omit [DecidableEq α] in
theorem reaches_of (h : Reordered g g' root l l') {a : α} (ha : Reaches g root a) :
    Reaches g' root a := by
  induction ha with
  | refl => exact .refl
  | @tail b c hab hbc ih =>
      by_cases hc : c ∈ l
      · exact h.reaches' c ((h.mem_iff c).mp hc)
      · -- what leads out of the chain is not in it
        have hb : b ∉ l := fun hmem => hc (h.topo.mem_of_edge hmem hbc)
        exact ih.tail ((h.edge_iff b c hb hc).mp hbc)

omit [DecidableEq α] in
theorem reaches_iff (h : Reordered g g' root l l') {a : α} :
    Reaches g root a ↔ Reaches g' root a :=
  ⟨h.reaches_of, h.symm.reaches_of⟩

omit [DecidableEq α] in
/-- **What one of them resolves, so does the other.** -/
theorem resolvable (h : Reordered g g' root l l') (hg : Resolvable g root) :
    Resolvable g' root := by
  refine ⟨fun a ha => ?_, fun a ha hcycle => ?_⟩
  · by_cases hmem : a ∈ l'
    · exact h.topo'.isSome hmem
    · rw [← h.isSome_iff a fun hl => hmem ((h.mem_iff a).mp hl)]
      exact hg.1 a (h.reaches_iff.mpr ha)
  · -- no cycle goes through the chain
    have hout : a ∉ l' := fun hmem => h.topo'.acyclic h.nodup' hmem hcycle
    have hwalk : ∀ b, TransGen (Edge g') a b → b ∉ l' → TransGen (Edge g) a b := by
      intro b hab
      induction hab with
      | single hab =>
          intro hb
          exact .single ((h.symm.edge_iff _ _ hout hb).mp hab)
      | @tail b c _ hbc ih =>
          intro hc
          have hb : b ∉ l' := fun hmem => hc (h.topo'.mem_of_edge hmem hbc)
          exact (ih hb).tail ((h.symm.edge_iff b c hb hc).mp hbc)
    exact hg.2 a (h.reaches_iff.mpr ha) (hwalk a hcycle hout)

end Reordered

end DepthFirst
