/-
  Shinran.Render.ResolveCorrect
  ─────────────────────────────
  **`resolve_evaluation_order` IS A TOPOLOGICAL SORT OF THE NEEDED VARIABLES.**

  The meaning of the order is stated on the variables themselves, with no
  node map in sight: a name denotes the local of that name, else the global
  (`resolveName`); a variable waits for the names it lists, for the names
  read by its params and for the local before it (`Requires`); the body
  needs all locals and the names it reads, and what those wait for
  (`Needed`).

    • `edge_generateNodes_iff` — the node map has exactly these edges, as long
                                 as no two locals share a name,
    • `nodup_of_resolvable`    — and two locals that do share a name close a
                                 cycle through the chain of locals,
    • `resolveEvaluationOrder_sound`, `resolveEvaluationOrder_ok_iff` — what an
                                 order is, and exactly when there is one.
-/
import Shinran.Render.Resolve

namespace Shinran

open Relation DepthFirst

variable [UnicodeTables]

/-! ## §1. What a body needs. -/

/-- A name denotes the local of that name if there is one, and the global otherwise. -/
def resolveName (localVars globalVars : List Variable) (name : String) : Option Variable :=
  (localVars.find? (fun var => var.name = name)).or
    (globalVars.find? (fun var => var.name = name))

/-- The names that have to be evaluated before the variable. -/
inductive Requires (localVars : List Variable) (var : Variable) : String → Prop
  | listed {name : String} : name ∈ var.dependsOn → Requires localVars var name
  /-- A string anywhere inside the params reads the name, and variables are injected. -/
  | injected {s name : String} : var.injectVars = true → var.params.HasString s →
      name ∈ getBodyVariableNames s → Requires localVars var name
  /-- The local listed just before. -/
  | previous {pre post : List Variable} {before : Variable} :
      localVars = pre ++ before :: var :: post → Requires localVars var before.name

/-- The variable that `name` denotes requires `name'`. -/
def DependsOn (localVars globalVars : List Variable) (name name' : String) : Prop :=
  ∃ var, resolveName localVars globalVars name = some var ∧ Requires localVars var name'

/-- The body's own dependencies: all locals, and the names read in the body. -/
def BodyDependsOn (body : String) (localVars : List Variable) (name : String) : Prop :=
  name ∈ localVars.map (·.name) ∨ name ∈ getBodyVariableNames body

/-- The names reachable from the body's dependencies. -/
def Needed (body : String) (localVars globalVars : List Variable) (name : String) : Prop :=
  ∃ first, BodyDependsOn body localVars first
    ∧ ReflTransGen (DependsOn localVars globalVars) first name

omit [UnicodeTables] in
theorem resolveName_eq_some_name {localVars globalVars : List Variable} {name : String}
    {var : Variable} (h : resolveName localVars globalVars name = some var) :
    var.name = name := by
  rw [resolveName, Option.or_eq_some_iff] at h
  rcases h with h | ⟨_, h⟩ <;> simpa using List.find?_some h

omit [UnicodeTables] in
theorem find?_name_eq_some {vars : List Variable} (hnodup : (vars.map (·.name)).Nodup)
    {var : Variable} (h : var ∈ vars) : vars.find? (fun v => v.name = var.name) = some var := by
  obtain ⟨pre, post, rfl⟩ := List.append_of_mem h
  rw [List.find?_eq_some_iff_append]
  refine ⟨by simp, pre, post, rfl, fun v hv => ?_⟩
  rw [List.map_append, List.map_cons, List.nodup_append] at hnodup
  simpa using hnodup.2.2 v.name (List.mem_map_of_mem hv) var.name List.mem_cons_self

omit [UnicodeTables] in
theorem resolveName_local {localVars : List Variable} (globalVars : List Variable)
    (hnodup : (localVars.map (·.name)).Nodup) {var : Variable} (h : var ∈ localVars) :
    resolveName localVars globalVars var.name = some var := by
  rw [resolveName, find?_name_eq_some hnodup h, Option.some_or]

omit [UnicodeTables] in
theorem find?_name_eq_none {vars : List Variable} {name : String}
    (h : name ∉ vars.map (·.name)) : vars.find? (fun v => v.name = name) = none := by
  rw [List.find?_eq_none]
  intro v hv heq
  exact h (List.mem_map.mpr ⟨v, hv, by simpa using heq⟩)

omit [UnicodeTables] in
theorem resolveName_global {localVars globalVars : List Variable}
    (hnodup : (globalVars.map (·.name)).Nodup) {var : Variable} (h : var ∈ globalVars)
    (hlocal : var.name ∉ localVars.map (·.name)) :
    resolveName localVars globalVars var.name = some var := by
  rw [resolveName, find?_name_eq_none hlocal, Option.none_or, find?_name_eq_some hnodup h]

/-! ## §2. The nodes behind the names. -/

theorem mem_injectedNames {var : Variable} {name : String} :
    name ∈ injectedNames var
      ↔ var.injectVars = true ∧ ∃ s, var.params.HasString s ∧ name ∈ getBodyVariableNames s := by
  unfold injectedNames
  split
  · rename_i h
    simp [h, mem_getParamsVariableNames]
  · rename_i h
    simp [h]

theorem localVarsNodes_append (order : HashOrder) (post : List Variable) :
    ∀ (pre : List Variable) (index : Nat) (previous : Option Variable) (var : Variable),
      localVarsNodes order index previous (pre ++ var :: post)
        = localVarsNodes order index previous pre
          ++ createLocalNode order (index + pre.length) (pre.getLast?.or previous) var
          :: localVarsNodes order (index + pre.length + 1) (some var) post
  | [], _, _, _ => rfl
  | v :: pre, index, previous, var => by
      rw [List.cons_append, localVarsNodes, localVarsNodes,
        localVarsNodes_append order post pre (index + 1) (some v) var]
      have hlast : (v :: pre).getLast?.or previous = pre.getLast?.or (some v) := by
        cases h : pre.getLast? with
        | none => simp [List.getLast?_eq_none_iff.mp h]
        | some w => simp [List.getLast?_cons, h]
      simp only [hlast, List.length_cons, List.cons_append]
      rw [show index + 1 + pre.length = index + (pre.length + 1) by omega]

/-- The last local of a name owns the node of that name. -/
theorem lookup_local (order : HashOrder) (body : String) {pre post : List Variable}
    {var : Variable} (globalVars : List Variable) (hlast : var.name ∉ post.map (·.name)) :
    (generateNodes order body (pre ++ var :: post) globalVars).lookup var.name
      = some (createLocalNode order pre.length pre.getLast? var) := by
  have hnone : (localVarsNodes order (pre.length + 1) (some var) post).reverse.find?
      (fun node => node.name = var.name) = none := by
    rw [List.find?_eq_none]
    intro node hnode heq
    have hmem := List.mem_map_of_mem (f := (·.name)) (List.mem_reverse.mp hnode)
    rw [localVarsNodes_map_name] at hmem
    simp only [decide_eq_true_eq] at heq
    exact hlast (heq ▸ hmem)
  rw [lookup_generateNodes, localVarsNodes_append, List.reverse_append, List.reverse_cons]
  simp only [List.find?_append, Nat.zero_add, hnone, Option.or_none]
  simp [createLocalNode]

theorem find?_localVarsNodes_eq_none (order : HashOrder) {localVars : List Variable}
    {name : String} (h : name ∉ localVars.map (·.name)) :
    (localVarsNodes order 0 none localVars).reverse.find? (fun node => node.name = name)
      = none := by
  rw [List.find?_eq_none]
  intro node hnode heq
  have hmem := List.mem_map_of_mem (f := (·.name)) (List.mem_reverse.mp hnode)
  rw [localVarsNodes_map_name] at hmem
  simp only [decide_eq_true_eq] at heq
  exact h (heq ▸ hmem)

theorem find?_globalNodes (order : HashOrder) (globalVars : List Variable) (name : String)
    (hnodup : (globalVars.map (·.name)).Nodup) :
    (globalVars.map (createNodeFromVar order)).reverse.find? (fun node => node.name = name)
      = (globalVars.find? (fun var => var.name = name)).map (createNodeFromVar order) := by
  by_cases h : name ∈ globalVars.map (·.name)
  · obtain ⟨var, hvar, rfl⟩ := List.mem_map.mp h
    rw [find?_name_eq_some hnodup hvar, ← List.map_reverse, List.find?_map]
    have hrev : (globalVars.reverse.map (·.name)).Nodup := by
      rw [List.map_reverse]
      exact List.nodup_reverse.mpr hnodup
    rw [show ((fun node : Node => decide (node.name = var.name)) ∘ createNodeFromVar order)
        = fun v => decide (v.name = var.name) from rfl,
      find?_name_eq_some hrev (List.mem_reverse.mpr hvar)]
  · rw [find?_name_eq_none h, Option.map_none, List.find?_eq_none]
    intro node hnode heq
    obtain ⟨var, hvar, rfl⟩ := List.mem_map.mp (List.mem_reverse.mp hnode)
    exact h (List.mem_map.mpr ⟨var, hvar, by simpa [createNodeFromVar] using heq⟩)

omit [UnicodeTables] in
theorem edge_iff_of_lookup {nodeMap : HashMap String Node} {name name' : String} {node : Node}
    (h : nodeMap.lookup name = some node) :
    Edge (nodeGraph nodeMap) name name' ↔ name' ∈ node.dependencies.getD [] := by
  simp [Edge, nodeGraph, h]

omit [UnicodeTables] in
theorem not_edge_of_lookup {nodeMap : HashMap String Node} {name name' : String}
    (h : nodeMap.lookup name = none) : ¬ Edge (nodeGraph nodeMap) name name' := by
  simp [Edge, nodeGraph, h]

/-- The local before `var`, when names are not repeated. -/
theorem requires_iff {pre post : List Variable} {var : Variable} {name : String}
    (hnodup : ((pre ++ var :: post).map (·.name)).Nodup) :
    Requires (pre ++ var :: post) var name
      ↔ name ∈ injectedNames var ∨ name ∈ var.dependsOn
        ∨ pre.getLast?.map (·.name) = some name := by
  have hnd : (pre ++ var :: post).Nodup := hnodup.of_map
  constructor
  · rintro (h | ⟨hinject, hs, hmem⟩ | @⟨pre', post', before, heq⟩)
    · exact Or.inr (Or.inl h)
    · exact Or.inl (mem_injectedNames.mpr ⟨hinject, _, hs, hmem⟩)
    -- `var` occurs once, so the two ways to split the locals at it are the same
    · have hpre : pre = pre' ++ [before] := by
        have heq' : pre ++ var :: post = (pre' ++ [before]) ++ var :: post' := by simpa using heq
        have hout : var ∉ pre := fun h =>
          (List.nodup_append.mp hnd).2.2 var h var List.mem_cons_self rfl
        have hout' : var ∉ pre' ++ [before] := fun h =>
          (List.nodup_append.mp (heq' ▸ hnd)).2.2 var h var List.mem_cons_self rfl
        rcases List.append_eq_append_iff.mp heq' with ⟨as, h₁, h₂⟩ | ⟨as, h₁, h₂⟩
        · cases as with
          | nil => simpa using h₁.symm
          | cons a as =>
              obtain ⟨rfl, _⟩ := List.cons.inj h₂
              exact absurd (h₁ ▸ by simp) hout'
        · cases as with
          | nil => simpa using h₁
          | cons a as =>
              obtain ⟨rfl, _⟩ := List.cons.inj h₂
              exact absurd (h₁ ▸ by simp) hout
      exact Or.inr (Or.inr (by simp [hpre]))
  · rintro (h | h | h)
    · obtain ⟨hinject, s, hs, hmem⟩ := mem_injectedNames.mp h
      exact .injected hinject hs hmem
    · exact .listed h
    · obtain ⟨before, hlast, rfl⟩ := Option.map_eq_some_iff.mp h
      obtain ⟨pre', rfl⟩ := List.getLast?_eq_some_iff.mp hlast
      exact @Requires.previous _ _ _ pre' post before (by simp)

/-- A variable that is not a local requires what its node lists. -/
theorem requires_global_iff {localVars : List Variable} {var : Variable} {name : String}
    (hlocal : var ∉ localVars) :
    Requires localVars var name ↔ name ∈ injectedNames var ∨ name ∈ var.dependsOn := by
  constructor
  · rintro (h | ⟨hinject, hs, hmem⟩ | ⟨heq⟩)
    · exact Or.inr h
    · exact Or.inl (mem_injectedNames.mpr ⟨hinject, _, hs, hmem⟩)
    · exact absurd (by simp [heq]) hlocal
  · rintro (h | h)
    · obtain ⟨hinject, s, hs, hmem⟩ := mem_injectedNames.mp h
      exact .injected hinject hs hmem
    · exact .listed h

theorem mem_dependencies_createLocalNode {order : HashOrder} {index : Nat}
    {previous : Option Variable} {var : Variable} {name : String} :
    name ∈ (createLocalNode order index previous var).dependencies.getD []
      ↔ name ∈ injectedNames var ∨ name ∈ var.dependsOn
        ∨ previous.map (·.name) = some name := by
  simp [createLocalNode]

theorem mem_dependencies_createNodeFromVar {order : HashOrder} {var : Variable}
    {name : String} :
    name ∈ (createNodeFromVar order var).dependencies.getD []
      ↔ name ∈ injectedNames var ∨ name ∈ var.dependsOn := by
  unfold createNodeFromVar
  by_cases h : (var.injectVars || !var.dependsOn.isEmpty) = true
  · simp [h]
  · simp only [Bool.or_eq_true, Bool.not_eq_true', not_or, Bool.not_eq_true,
      Bool.not_eq_false, List.isEmpty_iff] at h
    simp [injectedNames, h]

/-! ## §3. The node map has these edges, when no two locals share a name. -/

/-- What the callers promise about names, and what distinguishes the good case. -/
structure DistinctNames (localVars globalVars : List Variable) : Prop where
  locals : (localVars.map (·.name)).Nodup
  globals : (globalVars.map (·.name)).Nodup
  notBody : ∀ var ∈ localVars ++ globalVars, var.name ≠ matchBody

/-- **One node, read off the variables**: it is the body's, a local's, a global's or none. -/
theorem lookup_cases (order : HashOrder) (body : String) {localVars globalVars : List Variable}
    (hnames : DistinctNames localVars globalVars) (name : String) :
    (name = matchBody ∧ resolveName localVars globalVars name = none
        ∧ (generateNodes order body localVars globalVars).lookup name
          = some (createBodyNode order body localVars))
      ∨ (∃ var, resolveName localVars globalVars name = some var ∧ name ≠ matchBody
        ∧ ∃ node, (generateNodes order body localVars globalVars).lookup name = some node
          ∧ node.var = some var
          ∧ ∀ name', name' ∈ node.dependencies.getD [] ↔ Requires localVars var name')
      ∨ (name ≠ matchBody ∧ resolveName localVars globalVars name = none
        ∧ (generateNodes order body localVars globalVars).lookup name = none) := by
  -- locals first, then globals, then the body, as in the map
  by_cases hlocal : name ∈ localVars.map (·.name)
  · obtain ⟨var, hvar, rfl⟩ := List.mem_map.mp hlocal
    refine Or.inr (Or.inl ⟨var, resolveName_local globalVars hnames.locals hvar,
      hnames.notBody var (List.mem_append_left _ hvar), ?_⟩)
    obtain ⟨pre, post, rfl⟩ := List.append_of_mem hvar
    have hlast : var.name ∉ post.map (·.name) := by
      have h := hnames.locals
      rw [List.map_append, List.map_cons] at h
      exact (List.nodup_cons.mp (List.nodup_append.mp h).2.1).1
    refine ⟨_, lookup_local order body globalVars hlast, rfl, fun name' => ?_⟩
    rw [mem_dependencies_createLocalNode, requires_iff hnames.locals]
  · have hnone := find?_localVarsNodes_eq_none order hlocal
    rw [lookup_generateNodes, hnone, Option.none_or,
      find?_globalNodes order globalVars name hnames.globals]
    by_cases hglobal : name ∈ globalVars.map (·.name)
    · obtain ⟨var, hvar, rfl⟩ := List.mem_map.mp hglobal
      refine Or.inr (Or.inl ⟨var, resolveName_global hnames.globals hvar hlocal,
        hnames.notBody var (List.mem_append_right _ hvar), createNodeFromVar order var, ?_, rfl,
        fun name' => ?_⟩)
      · rw [find?_name_eq_some hnames.globals hvar, Option.map_some, Option.some_or]
      · rw [mem_dependencies_createNodeFromVar,
          requires_global_iff fun h => hlocal (List.mem_map_of_mem h)]
    · have hresolve : resolveName localVars globalVars name = none := by
        rw [resolveName, find?_name_eq_none hlocal, find?_name_eq_none hglobal, Option.none_or]
      rw [find?_name_eq_none hglobal, Option.map_none, Option.none_or]
      by_cases hname : name = matchBody
      · exact Or.inl ⟨hname, hresolve, if_pos hname.symm⟩
      · exact Or.inr (Or.inr ⟨hname, hresolve, if_neg (Ne.symm hname)⟩)

section
variable {order : HashOrder} {body : String} {localVars globalVars : List Variable}

theorem variableOf_generateNodes (hnames : DistinctNames localVars globalVars) (name : String) :
    variableOf (generateNodes order body localVars globalVars) name
      = resolveName localVars globalVars name := by
  rcases lookup_cases order body hnames name with
    ⟨_, hresolve, hlook⟩ | ⟨var, hresolve, _, node, hlook, hvar, _⟩ | ⟨_, hresolve, hlook⟩
  · simp [variableOf, hlook, hresolve, createBodyNode]
  · simp [variableOf, hlook, hresolve, hvar]
  · simp [variableOf, hlook, hresolve]

theorem isNode_generateNodes (hnames : DistinctNames localVars globalVars) (name : String) :
    (nodeGraph (generateNodes order body localVars globalVars) name).isSome
      ↔ name = matchBody ∨ (resolveName localVars globalVars name).isSome := by
  rcases lookup_cases order body hnames name with
    ⟨hname, _, hlook⟩ | ⟨var, hresolve, _, node, hlook, _⟩ | ⟨hname, hresolve, hlook⟩
  · simp [nodeGraph, hlook, hname]
  · simp [nodeGraph, hlook, hresolve]
  · simp [nodeGraph, hlook, hresolve, hname]

/-- **The edges of the node map.** -/
theorem edge_generateNodes_iff (hnames : DistinctNames localVars globalVars)
    {name name' : String} :
    Edge (nodeGraph (generateNodes order body localVars globalVars)) name name'
      ↔ (name = matchBody ∧ BodyDependsOn body localVars name')
        ∨ DependsOn localVars globalVars name name' := by
  rcases lookup_cases order body hnames name with
    ⟨hname, hresolve, hlook⟩ | ⟨var, hresolve, hname, node, hlook, _, hdeps⟩
      | ⟨hname, hresolve, hlook⟩
  · rw [edge_iff_of_lookup hlook]
    simp [createBodyNode, hname, BodyDependsOn, DependsOn, hname ▸ hresolve]
  · rw [edge_iff_of_lookup hlook, hdeps]
    simp [hname, DependsOn, hresolve]
  · simp [not_edge_of_lookup hlook, hname, DependsOn, hresolve]

omit [UnicodeTables] in
/-- The body's node has no variable, so it depends on nothing but what the body needs. -/
theorem resolveName_matchBody (hnames : DistinctNames localVars globalVars) :
    resolveName localVars globalVars matchBody = none := by
  rw [resolveName, find?_name_eq_none fun h => ?_, find?_name_eq_none fun h => ?_, Option.none_or]
  · obtain ⟨var, hvar, hname⟩ := List.mem_map.mp h
    exact hnames.notBody var (List.mem_append_right _ hvar) hname
  · obtain ⟨var, hvar, hname⟩ := List.mem_map.mp h
    exact hnames.notBody var (List.mem_append_left _ hvar) hname

theorem not_dependsOn_matchBody (hnames : DistinctNames localVars globalVars) {name : String} :
    ¬ DependsOn localVars globalVars matchBody name := by
  intro h
  obtain ⟨var, hvar, _⟩ := h
  simp [resolveName_matchBody hnames] at hvar

theorem Needed.dependsOn {name name' : String} (h : Needed body localVars globalVars name)
    (hdep : DependsOn localVars globalVars name name') :
    Needed body localVars globalVars name' := by
  obtain ⟨first, hfirst, hreach⟩ := h
  exact ⟨first, hfirst, hreach.tail hdep⟩

/-- Below the body's node lie the body's node and the needed names. -/
theorem reaches_matchBody_iff (hnames : DistinctNames localVars globalVars) {name : String} :
    Reaches (nodeGraph (generateNodes order body localVars globalVars)) matchBody name
      ↔ name = matchBody ∨ Needed body localVars globalVars name := by
  constructor
  · intro h
    -- along the path: only its first edge leaves the body's node
    induction h with
    | refl => exact Or.inl rfl
    | tail _ hedge ih =>
        refine Or.inr ?_
        cases (edge_generateNodes_iff hnames).mp hedge with
        | inl hfirst => exact ⟨_, hfirst.2, .refl⟩
        | inr hdep =>
            cases ih with
            | inl hroot => exact absurd (hroot ▸ hdep) (not_dependsOn_matchBody hnames)
            | inr hneeded => exact hneeded.dependsOn hdep
  · rintro (rfl | ⟨first, hfirst, hreach⟩)
    · exact .refl
    · have hedge : Edge (nodeGraph (generateNodes order body localVars globalVars)) matchBody
          first := (edge_generateNodes_iff hnames).mpr (Or.inl ⟨rfl, hfirst⟩)
      refine .head hedge (ReflTransGen.mono (fun a b hab => ?_) _ _ hreach)
      exact (edge_generateNodes_iff hnames).mpr (Or.inr hab)

/-- Below the body's node, a path is a path of dependencies after its first node. -/
theorem transGen_dependsOn (hnames : DistinctNames localVars globalVars) {name name' : String}
    (hname : name ≠ matchBody)
    (hneeded : ∀ a, Needed body localVars globalVars a → a ≠ matchBody)
    (hreach : Needed body localVars globalVars name)
    (h : TransGen (Edge (nodeGraph (generateNodes order body localVars globalVars))) name name') :
    TransGen (DependsOn localVars globalVars) name name'
      ∧ Needed body localVars globalVars name' := by
  induction h with
  | single hedge =>
      cases (edge_generateNodes_iff hnames).mp hedge with
      | inl hfirst => exact absurd hfirst.1 hname
      | inr hdep => exact ⟨.single hdep, hreach.dependsOn hdep⟩
  | tail _ hedge ih =>
      cases (edge_generateNodes_iff hnames).mp hedge with
      | inl hfirst => exact absurd hfirst.1 (hneeded _ ih.2)
      | inr hdep => exact ⟨ih.1.tail hdep, ih.2.dependsOn hdep⟩

/-! ## §4. Two locals of one name close a cycle. -/

theorem lookup_matchBody (hbody : ∀ var ∈ localVars ++ globalVars, var.name ≠ matchBody) :
    (generateNodes order body localVars globalVars).lookup matchBody
      = some (createBodyNode order body localVars) := by
  have hlocal : matchBody ∉ localVars.map (·.name) := by
    intro h
    obtain ⟨var, hvar, hname⟩ := List.mem_map.mp h
    exact hbody var (List.mem_append_left _ hvar) hname
  have hglobal : (globalVars.map (createNodeFromVar order)).reverse.find?
      (fun node => node.name = matchBody) = none := by
    rw [List.find?_eq_none]
    intro node hnode heq
    obtain ⟨var, hvar, rfl⟩ := List.mem_map.mp (List.mem_reverse.mp hnode)
    exact hbody var (List.mem_append_right _ hvar) (by simpa [createNodeFromVar] using heq)
  rw [lookup_generateNodes, find?_localVarsNodes_eq_none order hlocal, hglobal]
  simp

/-- The node of a name that does not occur again depends on the local before it. -/
theorem edge_previous {pre post : List Variable} {before var : Variable}
    (hlast : var.name ∉ post.map (·.name)) :
    Edge (nodeGraph (generateNodes order body (pre ++ before :: var :: post) globalVars))
      var.name before.name := by
  have hlook := @lookup_local _ order body (pre ++ [before]) post var globalVars hlast
  rw [List.append_assoc, List.singleton_append] at hlook
  rw [edge_iff_of_lookup hlook, mem_dependencies_createLocalNode]
  exact Or.inr (Or.inr (by simp))

theorem reaches_local (hbody : ∀ var ∈ localVars ++ globalVars, var.name ≠ matchBody)
    {var : Variable} (hvar : var ∈ localVars) :
    Reaches (nodeGraph (generateNodes order body localVars globalVars)) matchBody var.name := by
  refine .single ((edge_iff_of_lookup (lookup_matchBody hbody)).mpr ?_)
  simp only [createBodyNode, Option.getD_some, HashOrder.mem_collect, List.mem_append,
    List.mem_map]
  exact Or.inl ⟨var, hvar, rfl⟩

/-- **The chain of locals, from the back**: as long as the names of a suffix are distinct, its
nodes are chained to its first element; a name repeated just before the suffix would then
reach itself. -/
theorem chained_suffix (hbody : ∀ var ∈ localVars ++ globalVars, var.name ≠ matchBody)
    (h : Resolvable (nodeGraph (generateNodes order body localVars globalVars)) matchBody)
    (suffix pre : List Variable) (heq : localVars = pre ++ suffix) :
    (suffix.map (·.name)).Nodup ∧ ∀ first rest, suffix = first :: rest → ∀ var ∈ rest,
      TransGen (Edge (nodeGraph (generateNodes order body localVars globalVars)))
        var.name first.name := by
  -- the suffix grows at the front, so the names behind the new one are distinct already
  induction suffix generalizing pre with
  | nil => simp
  | cons before suffix ih =>
      obtain ⟨hnodup, hpath⟩ := ih (pre ++ [before]) (by simp [heq])
      cases suffix with
      | nil => simp
      | cons first rest =>
          have hedge : Edge (nodeGraph (generateNodes order body localVars globalVars))
              first.name before.name := by
            rw [heq]
            exact edge_previous (List.nodup_cons.mp hnodup).1
          have hall : ∀ var ∈ first :: rest,
              TransGen (Edge (nodeGraph (generateNodes order body localVars globalVars)))
                var.name before.name := by
            intro var hvar
            cases List.mem_cons.mp hvar with
            | inl hfirst => exact .single (hfirst ▸ hedge)
            | inr hrest => exact (hpath first rest rfl var hrest).tail hedge
          refine ⟨List.nodup_cons.mpr ⟨?_, hnodup⟩, ?_⟩
          · -- a variable further back with this name would depend on itself
            intro hmem
            obtain ⟨var, hvar, hname⟩ := List.mem_map.mp hmem
            dsimp only at hname
            have hcycle := hall var hvar
            rw [← hname] at hcycle
            refine h.2 var.name (reaches_local hbody ?_) hcycle
            rw [heq]
            exact List.mem_append_right _ (List.mem_cons_of_mem _ hvar)
          · intro first' rest' hcons
            obtain ⟨rfl, rfl⟩ := List.cons.inj hcons
            exact hall

/-- **No two locals share a name where the search succeeds.** -/
theorem nodup_of_resolvable (hbody : ∀ var ∈ localVars ++ globalVars, var.name ≠ matchBody)
    (h : Resolvable (nodeGraph (generateNodes order body localVars globalVars)) matchBody) :
    (localVars.map (·.name)).Nodup :=
  (chained_suffix hbody h localVars [] rfl).1

/-! ## §5. When there is an order, and what it is. -/

/-- A needed name is the body's only if the body's node lies on a cycle. -/
theorem Resolvable.ne_matchBody (hnames : DistinctNames localVars globalVars)
    (h : Resolvable (nodeGraph (generateNodes order body localVars globalVars)) matchBody)
    {name : String} (hneeded : Needed body localVars globalVars name) : name ≠ matchBody := by
  rintro rfl
  obtain ⟨first, hfirst, hreach⟩ := hneeded
  refine h.2 matchBody .refl
    (TransGen.head' ((edge_generateNodes_iff hnames).mpr (Or.inl ⟨rfl, hfirst⟩)) ?_)
  exact ReflTransGen.mono
    (fun a b hab => (edge_generateNodes_iff hnames).mpr (Or.inr hab)) _ _ hreach

/-- **Resolvability, read off the variables.** -/
theorem resolvable_iff (hglobals : (globalVars.map (·.name)).Nodup)
    (hbody : ∀ var ∈ localVars ++ globalVars, var.name ≠ matchBody) :
    Resolvable (nodeGraph (generateNodes order body localVars globalVars)) matchBody
      ↔ (localVars.map (·.name)).Nodup
        ∧ (∀ name, Needed body localVars globalVars name →
            (resolveName localVars globalVars name).isSome)
        ∧ ∀ name, Needed body localVars globalVars name →
            ¬ TransGen (DependsOn localVars globalVars) name name := by
  constructor
  · intro h
    have hnames : DistinctNames localVars globalVars :=
      ⟨nodup_of_resolvable hbody h, hglobals, hbody⟩
    -- the nodes and edges below the body, translated into names and dependencies
    refine ⟨hnames.locals, ?_, ?_⟩
    · intro name hneeded
      cases (isNode_generateNodes hnames name).mp
          (h.1 name ((reaches_matchBody_iff hnames).mpr (Or.inr hneeded))) with
      | inl hname => exact absurd hname (Resolvable.ne_matchBody hnames h hneeded)
      | inr hsome => exact hsome
    · intro name hneeded hcycle
      refine h.2 name ((reaches_matchBody_iff hnames).mpr (Or.inr hneeded)) ?_
      exact TransGen.mono (fun a b hab => (edge_generateNodes_iff hnames).mpr (Or.inr hab))
        _ _ hcycle
  · rintro ⟨hlocals, hsome, hacyclic⟩
    have hnames : DistinctNames localVars globalVars := ⟨hlocals, hglobals, hbody⟩
    have hne : ∀ a, Needed body localVars globalVars a → a ≠ matchBody := by
      rintro a hneeded rfl
      simpa [resolveName_matchBody hnames] using hsome _ hneeded
    refine ⟨?_, ?_⟩
    · intro name hreach
      cases (reaches_matchBody_iff hnames).mp hreach with
      | inl hroot => exact (isNode_generateNodes hnames _).mpr (Or.inl hroot)
      | inr hneeded => exact (isNode_generateNodes hnames _).mpr (Or.inr (hsome name hneeded))
    · intro name hreach hcycle
      -- whatever lies on a cycle is reached by an edge, so it is a needed name
      obtain ⟨c, hac, hcb⟩ := TransGen.tail'_iff.mp hcycle
      have hneeded : Needed body localVars globalVars name := by
        cases (edge_generateNodes_iff hnames).mp hcb with
        | inl hfirst => exact ⟨name, hfirst.2, .refl⟩
        | inr hdep =>
            cases (reaches_matchBody_iff hnames).mp (hreach.trans hac) with
            | inl hroot => exact absurd (hroot ▸ hdep) (not_dependsOn_matchBody hnames)
            | inr hneeded => exact hneeded.dependsOn hdep
      exact hacyclic name hneeded (transGen_dependsOn hnames (hne name hneeded) hne hneeded hcycle).1

omit [UnicodeTables] in
theorem filterMap_resolveName_locals {localVars : List Variable} (globalVars : List Variable)
    (hnodup : (localVars.map (·.name)).Nodup) :
    (localVars.map (·.name)).filterMap (resolveName localVars globalVars) = localVars := by
  rw [List.filterMap_map]
  have h : ∀ vars : List Variable, (∀ var ∈ vars, var ∈ localVars) →
      vars.filterMap (resolveName localVars globalVars ∘ (·.name)) = vars := by
    intro vars
    induction vars with
    | nil => simp
    | cons var vars ih =>
        intro hvars
        have hvar := resolveName_local globalVars hnodup (hvars var List.mem_cons_self)
        rw [List.filterMap_cons, Function.comp_apply, hvar,
          ih fun v hv => hvars v (List.mem_cons_of_mem _ hv)]
  exact h localVars fun _ => id

/-- An order is the resolution of a topological order of the needed names. -/
theorem evalOrder_of_ok {fuel : Nat} {vars : List Variable}
    (hglobals : (globalVars.map (·.name)).Nodup)
    (hbody : ∀ var ∈ localVars ++ globalVars, var.name ≠ matchBody)
    (h : resolveEvaluationOrder order fuel body localVars globalVars = some (.ok vars)) :
    DistinctNames localVars globalVars ∧ ∃ names,
      IsEvalOrder (generateNodes order body localVars globalVars) names
        ∧ vars = names.filterMap (resolveName localVars globalVars) := by
  obtain ⟨names, hnames, rfl⟩ := resolveEvaluationOrder_ok h
  have hdistinct : DistinctNames localVars globalVars :=
    ⟨nodup_of_resolvable hbody hnames.resolvable, hglobals, hbody⟩
  refine ⟨hdistinct, names, hnames, ?_⟩
  rw [funext (variableOf_generateNodes hdistinct)]

section
variable {names : List String} (hnames : DistinctNames localVars globalVars)
  (horder : IsEvalOrder (generateNodes order body localVars globalVars) names)
include hnames horder

theorem mem_evalOrder_of_needed {name : String} (h : Needed body localVars globalVars name) :
    name ∈ names :=
  (horder.mem_iff name).mpr ((reaches_matchBody_iff hnames).mpr (Or.inr h))

theorem needed_of_mem_evalOrder {name : String} {var : Variable} (hname : name ∈ names)
    (hvar : resolveName localVars globalVars name = some var) :
    Needed body localVars globalVars name := by
  cases (reaches_matchBody_iff hnames).mp ((horder.mem_iff name).mp hname) with
  | inl hroot =>
      rw [hroot, resolveName_matchBody hnames] at hvar
      cases hvar
  | inr hneeded => exact hneeded

/-- What a variable requires is listed before it. -/
theorem exists_required_before {pre post : List Variable} {var : Variable} {name : String}
    (heq : names.filterMap (resolveName localVars globalVars) = pre ++ var :: post)
    (hrequires : Requires localVars var name) :
    ∃ required ∈ pre, resolveName localVars globalVars name = some required := by
  obtain ⟨npre, x, npost, rfl, rfl, hx⟩ := filterMap_split heq
  have hneeded : Needed body localVars globalVars x :=
    needed_of_mem_evalOrder hnames horder (by simp) hx
  have hdep : DependsOn localVars globalVars x name := ⟨var, hx, hrequires⟩
  have hbefore : name ∈ npre :=
    (horder.topo npre x npost rfl).2 name ((edge_generateNodes_iff hnames).mpr (Or.inr hdep))
  -- a name that is needed denotes a variable, as the search would have failed otherwise
  have hresolvable := (resolvable_iff hnames.globals hnames.notBody).mp horder.resolvable
  obtain ⟨required, hrequired⟩ :=
    Option.isSome_iff_exists.mp (hresolvable.2.1 name (hneeded.dependsOn hdep))
  exact ⟨required, List.mem_filterMap.mpr ⟨name, hbefore, hrequired⟩, hrequired⟩

/-- The chain of locals keeps them in their order. -/
theorem sublist_evalOrder :
    localVars.Sublist (names.filterMap (resolveName localVars globalVars)) := by
  have hsub : (localVars.map (·.name)).Sublist names := by
    -- each local requires the one before it, and the body requires the last one
    refine horder.topo.sublist_of_chain ?_ ?_
    · intro pre a b post heq
      obtain ⟨lpre, lrest, rfl, rfl, hrest⟩ := List.map_eq_append_iff.mp heq
      obtain ⟨before, lrest', rfl, rfl, hrest'⟩ := List.map_eq_cons_iff.mp hrest
      obtain ⟨var, lpost, rfl, rfl, _⟩ := List.map_eq_cons_iff.mp hrest'
      refine (edge_generateNodes_iff hnames).mpr (Or.inr ⟨var, ?_, .previous rfl⟩)
      exact resolveName_local globalVars hnames.locals (by simp)
    · intro a ha
      exact mem_evalOrder_of_needed hnames horder ⟨a, Or.inl (List.mem_of_getLast? ha), .refl⟩
  have hfilter := hsub.filterMap (resolveName localVars globalVars)
  rwa [filterMap_resolveName_locals globalVars hnames.locals] at hfilter

end

/-- **Soundness.**  An order that is returned (a) repeats no name, (b) lists every variable
after whatever it requires, (c) keeps all locals in their order, and (d) consists of exactly
the variables that needed names denote. -/
theorem resolveEvaluationOrder_sound (order : HashOrder) (fuel : Nat) (body : String)
    (localVars globalVars vars : List Variable)
    (hglobals : (globalVars.map (·.name)).Nodup)
    (hbody : ∀ var ∈ localVars ++ globalVars, var.name ≠ matchBody)
    (h : resolveEvaluationOrder order fuel body localVars globalVars = some (.ok vars)) :
    (vars.map (·.name)).Nodup
      ∧ (∀ pre var post, vars = pre ++ var :: post → ∀ name, Requires localVars var name →
          ∃ required ∈ pre, resolveName localVars globalVars name = some required)
      ∧ localVars.Sublist vars
      ∧ ∀ var, var ∈ vars ↔ ∃ name, Needed body localVars globalVars name
          ∧ resolveName localVars globalVars name = some var := by
  obtain ⟨hnames, names, horder, rfl⟩ := evalOrder_of_ok hglobals hbody h
  refine ⟨?_, ?_, sublist_evalOrder hnames horder, ?_⟩
  · rw [map_name_filterMap fun _ _ => resolveName_eq_some_name]
    exact horder.nodup.filter _
  · intro pre var post heq name hrequires
    exact exists_required_before hnames horder heq hrequires
  · intro var
    rw [List.mem_filterMap]
    constructor
    · rintro ⟨name, hname, hvar⟩
      exact ⟨name, needed_of_mem_evalOrder hnames horder hname hvar, hvar⟩
    · rintro ⟨name, hneeded, hvar⟩
      exact ⟨name, mem_evalOrder_of_needed hnames horder hneeded, hvar⟩

omit [UnicodeTables] in
/-- A body reading a global, and two locals of which the second waits for another global. -/
theorem resolveEvaluationOrder_sound_greeting :
    let locals : List Variable :=
      [{ name := "greeting" }, { name := "name", dependsOn := ["user"] }]
    let globals : List Variable := [{ name := "user" }, { name := "now" }, { name := "host" }]
    let vars : List Variable :=
      [{ name := "greeting" }, { name := "user" }, { name := "name", dependsOn := ["user"] },
        { name := "host" }]
    (vars.map (·.name)).Nodup
      ∧ (∀ pre var post, vars = pre ++ var :: post →
          ∀ name, @Requires .ascii locals var name →
          ∃ required ∈ pre, resolveName locals globals name = some required)
      ∧ locals.Sublist vars
      ∧ ∀ var, var ∈ vars ↔ ∃ name, @Needed .ascii "\x7b\x7bhost\x7d\x7d" locals globals name
          ∧ resolveName locals globals name = some var :=
  @resolveEvaluationOrder_sound .ascii .canonical 6 "\x7b\x7bhost\x7d\x7d" _ _ _
    (by decide) (by decide) rfl

/-- **Exact success condition.**  With enough fuel the recursion returns, always the same
result; it is an order exactly when the local names are distinct, every needed name denotes
a variable and no needed name depends on itself.  The iteration order of the hash sets does
not occur in the condition. -/
theorem resolveEvaluationOrder_ok_iff (order : HashOrder) (body : String)
    {localVars globalVars : List Variable} (hglobals : (globalVars.map (·.name)).Nodup)
    (hbody : ∀ var ∈ localVars ++ globalVars, var.name ≠ matchBody) :
    ∃ result, (∀ fuel, resolutionFuel localVars globalVars ≤ fuel →
        resolveEvaluationOrder order fuel body localVars globalVars = some result)
      ∧ ((∃ vars, result = .ok vars)
        ↔ (localVars.map (·.name)).Nodup
          ∧ (∀ name, Needed body localVars globalVars name →
              (resolveName localVars globalVars name).isSome)
          ∧ ∀ name, Needed body localVars globalVars name →
              ¬ TransGen (DependsOn localVars globalVars) name name) := by
  have hiff := @resolvable_iff _ order body localVars globalVars hglobals hbody
  rw [← hiff]
  rcases resolveEvaluationOrder_spec order body (Nat.le_refl (resolutionFuel localVars globalVars))
    with ⟨names, hnames, heq⟩ | ⟨err, hnot, heq⟩
  · exact ⟨_, fun fuel hfuel => resolveEvaluationOrder_fuel hfuel heq,
      fun _ => hnames.resolvable, fun _ => ⟨_, rfl⟩⟩
  · refine ⟨_, fun fuel hfuel => resolveEvaluationOrder_fuel hfuel heq, ?_, fun h => absurd h hnot⟩
    rintro ⟨vars, hvars⟩
    simp at hvars

omit [UnicodeTables] in
/-- The same with a repeated local, which no order can contain. -/
theorem resolveEvaluationOrder_ok_iff_repeated :
    let locals : List Variable := [{ name := "a" }, { name := "b" }, { name := "a" }]
    ∃ result, (∀ fuel, resolutionFuel locals [] ≤ fuel →
        @resolveEvaluationOrder .ascii .canonical fuel "" locals [] = some result)
      ∧ ((∃ vars, result = .ok vars)
        ↔ (locals.map (·.name)).Nodup
          ∧ (∀ name, @Needed .ascii "" locals [] name → (resolveName locals [] name).isSome)
          ∧ ∀ name, @Needed .ascii "" locals [] name →
              ¬ TransGen (@DependsOn .ascii locals []) name name) :=
  @resolveEvaluationOrder_ok_iff .ascii .canonical "" _ [] (by decide) (by decide)

end

end Shinran
