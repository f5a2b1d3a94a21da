/-
  Shinran.Render.Resolve
  ──────────────────────
  **THE EVALUATION ORDER OF VARIABLES** (`renderer/resolve.rs`).

  A template's body, its local variables and all global variables become the
  nodes of one map keyed by name; the body is the node `__match_body`.  The
  order is the finishing order of a depth-first search from the body.

  The standard library seeds every `HashSet` afresh, so the order in which a
  node's dependencies are visited is arbitrary.  `HashOrder` is that choice;
  every result below is about an arbitrary one.

    • `generateNodes`, `resolveDependencies`, `resolveEvaluationOrder` — the
      source's functions; `fuel` bounds the depth of the recursion,
    • `resolveDependencies_refines` — the search is the depth-first search of
      the library on the graph of the node map.
-/
import Mathlib.Data.List.Dedup
import Shinran.DepthFirst.Topological
import Shinran.Render.Util

namespace Shinran

open DepthFirst (Search Fault)

/-! ## §1. The iteration order of hash sets. -/

/-- Which hash set of a call to `generate_nodes`. -/
inductive SetId where
  | local_ (index : Nat)
  | global (name : String)
  | body
  deriving DecidableEq, Repr

/-- The order in which the hash sets of one call are iterated: any permutation of each. -/
structure HashOrder where
  iter : SetId → List String → List String
  perm : ∀ id names, (iter id names).Perm names

/-- Every set iterated in one canonical order. -/
def HashOrder.canonical : HashOrder := ⟨fun _ names => names, fun _ _ => .refl _⟩

/-- A hash set built from the given insertions, as it is iterated. -/
def HashOrder.collect (order : HashOrder) (id : SetId) (names : List String) : List String :=
  order.iter id names.dedup

@[simp] theorem HashOrder.mem_collect {order : HashOrder} {id : SetId} {names : List String}
    {name : String} : name ∈ order.collect id names ↔ name ∈ names := by
  rw [HashOrder.collect, (order.perm id _).mem_iff, List.mem_dedup]

/-! ## §2. The node map. -/

structure Node where
  name : String
  var : Option Variable
  dependencies : Option (List String)

/-- The name of the body's node. -/
def matchBody : String := "__match_body"

section
variable [UnicodeTables]

/-- The names read by the params, if variables are injected into them. -/
def injectedNames (var : Variable) : List String :=
  if var.injectVars then getParamsVariableNames var.params else []

/-- The node of the local variable at `index`; it also depends on the local before it. -/
def createLocalNode (order : HashOrder) (index : Nat) (previous : Option Variable)
    (var : Variable) : Node where
  name := var.name
  var := some var
  dependencies := some (order.collect (.local_ index)
    (injectedNames var ++ var.dependsOn ++ (previous.map (·.name)).toList))

/-- The nodes of the local variables from `index` on. -/
def localVarsNodes (order : HashOrder) : Nat → Option Variable → List Variable → List Node
  | _, _, [] => []
  | index, previous, var :: vars =>
      createLocalNode order index previous var :: localVarsNodes order (index + 1) (some var) vars

/-- `create_node_from_var`. -/
def createNodeFromVar (order : HashOrder) (var : Variable) : Node where
  name := var.name
  var := some var
  dependencies :=
    if var.injectVars || !var.dependsOn.isEmpty then
      some (order.collect (.global var.name) (injectedNames var ++ var.dependsOn))
    else none

/-- The body depends on all local variables and on the variables read inside it. -/
def createBodyNode (order : HashOrder) (body : String) (localVars : List Variable) : Node where
  name := matchBody
  var := none
  dependencies := some (order.collect .body
    (localVars.map (·.name) ++ getBodyVariableNames body))

/-- `generate_nodes`: the body first, then the globals, then the locals. -/
def generateNodes (order : HashOrder) (body : String) (localVars globalVars : List Variable) :
    HashMap String Node :=
  let bodyNode := createBodyNode order body localVars
  -- what is inserted later overwrites a node of the same name
  ((HashMap.insertAll (·.name) ∅ [bodyNode]).insertAll (·.name)
      (globalVars.map (createNodeFromVar order))).insertAll (·.name)
    (localVarsNodes order 0 none localVars)

end

/-! ## §3. The search. -/

/-- The three shared cells of `resolve_dependencies`. -/
structure EvalState where
  evalOrder : List String := []
  resolved : List String := []
  seen : List String := []
  deriving DecidableEq, Repr

/-- The loop over the dependencies of `node`; `resolve` visits one of them. -/
def resolveEach (nodeMap : HashMap String Node)
    (resolve : Node → EvalState → Option (Except RendererError EvalState)) (node : Node) :
    List String → EvalState → Option (Except RendererError EvalState)
  | [], st => some (.ok st)
  | dependency :: dependencies, st =>
      -- seen but not resolved means on the path from the body to this node
      if dependency ∈ st.resolved then resolveEach nodeMap resolve node dependencies st
      else if dependency ∈ st.seen then
        some (.error (.circularDependency node.name dependency))
      else
        match nodeMap.lookup dependency with
        | some dependencyNode =>
            match resolve dependencyNode st with
            | some (.ok st') => resolveEach nodeMap resolve node dependencies st'
            | r => r
        | none => some (.error (.missingVariable dependency))

/-- `resolve_dependencies`. -/
def resolveDependencies (nodeMap : HashMap String Node) :
    Nat → Node → EvalState → Option (Except RendererError EvalState)
  | 0, _, _ => none
  | fuel + 1, node, st =>
      match resolveEach nodeMap (resolveDependencies nodeMap fuel) node
          (node.dependencies.getD []) { st with seen := node.name :: st.seen } with
      | some (.ok st') => some (.ok { st' with
          evalOrder := st'.evalOrder ++ [node.name]
          resolved := node.name :: st'.resolved })
      | r => r

/-- The variables of the nodes named in the evaluation order. -/
def orderedVariables (nodeMap : HashMap String Node) :
    List String → Except Error (List Variable)
  | [] => .ok []
  | varName :: varNames =>
      match nodeMap.lookup varName with
      | none => .error (.message
          ("could not find dependency node for variable: " ++ varName))
      | some node => (orderedVariables nodeMap varNames).map (node.var.toList ++ ·)

/-- `resolve_evaluation_order`. -/
def resolveEvaluationOrder [UnicodeTables] (order : HashOrder) (fuel : Nat) (body : String)
    (localVars globalVars : List Variable) : Option (Except Error (List Variable)) :=
  let nodeMap := generateNodes order body localVars globalVars
  match nodeMap.lookup matchBody with
  | none => some (.error (.message "missing body node"))
  | some bodyNode =>
      match resolveDependencies nodeMap fuel bodyNode {} with
      | none => none
      | some (.error err) => some (.error (.renderer err))
      | some (.ok st) => some (orderedVariables nodeMap st.evalOrder)

/-- Enough fuel for every call: one step of depth for each node. -/
def resolutionFuel (localVars globalVars : List Variable) : Nat :=
  localVars.length + globalVars.length + 1

/-! ## §4. The search is the library's depth-first search. -/

/-- The graph of a node map. -/
def nodeGraph (nodeMap : HashMap String Node) : DepthFirst.Graph String :=
  fun name => (nodeMap.lookup name).map (·.dependencies.getD [])

/-- Every node is filed under its own name. -/
def KeyedByName (nodeMap : HashMap String Node) : Prop :=
  ∀ name node, nodeMap.lookup name = some node → node.name = name

/-- The error of the source for a fault of the search. -/
def RendererError.ofFault : Fault String → RendererError
  | .missing name => .missingVariable name
  | .cycle name dependency => .circularDependency name dependency

/-- The state of the library's search: resolved means finished. -/
structure EvalState.Abstracts (st : EvalState) (s : Search String) : Prop where
  evalOrder : st.evalOrder = s.done
  seen : st.seen = s.seen
  resolved : ∀ name, name ∈ st.resolved ↔ name ∈ s.done

/-- The two searches end the same way, in matching states. -/
def SameOutcome : Option (Except RendererError EvalState) → DepthFirst.Outcome String → Prop
  | none, none => True
  | some (.error err), some (.error fault) => err = .ofFault fault
  | some (.ok st), some (.ok s) => st.Abstracts s
  | _, _ => False

/-- The three ways in which both searches end. -/
theorem SameOutcome.cases {r : Option (Except RendererError EvalState)}
    {r' : DepthFirst.Outcome String} (h : SameOutcome r r') :
    (r = none ∧ r' = none)
      ∨ (∃ fault, r = some (.error (.ofFault fault)) ∧ r' = some (.error fault))
      ∨ ∃ st s, r = some (.ok st) ∧ r' = some (.ok s) ∧ st.Abstracts s := by
  rcases r with _ | err | st
  · rcases r' with _ | fault | s
    · exact .inl ⟨rfl, rfl⟩
    · exact h.elim
    · exact h.elim
  · rcases r' with _ | fault | s
    · exact h.elim
    · exact .inr (.inl ⟨fault, congrArg (fun err => some (Except.error err)) h, rfl⟩)
    · exact h.elim
  · rcases r' with _ | fault | s
    · exact h.elim
    · exact h.elim
    · exact .inr (.inr ⟨st, s, rfl, rfl, h⟩)

theorem resolveEach_refines {nodeMap : HashMap String Node} (hkeys : KeyedByName nodeMap)
    {resolve : Node → EvalState → Option (Except RendererError EvalState)}
    {visit : String → Search String → DepthFirst.Outcome String}
    (hvisit : ∀ name node st s, nodeMap.lookup name = some node → st.Abstracts s →
      SameOutcome (resolve node st) (visit name s)) (node : Node) :
    ∀ (names : List String) (st : EvalState) (s : Search String), st.Abstracts s →
      SameOutcome (resolveEach nodeMap resolve node names st)
        (DepthFirst.visitAll (nodeGraph nodeMap) visit node.name names s)
  | [], st, s, h => h
  | name :: names, st, s, h => by
      unfold resolveEach DepthFirst.visitAll
      simp only [h.resolved, h.seen]
      split
      -- already resolved
      · exact resolveEach_refines hkeys hvisit node names st s h
      split
      · rfl
      cases hlook : nodeMap.lookup name with
      | none => simp [nodeGraph, hlook, SameOutcome, RendererError.ofFault]
      | some node' =>
          have hout := hvisit name node' st s hlook h
          simp only [nodeGraph, hlook, Option.map_some, Option.isSome_some, if_true]
          obtain ⟨hr, hv⟩ | ⟨fault, hr, hv⟩ | ⟨st', s', hr, hv, h'⟩ := hout.cases
          · simp only [hr, hv]
            trivial
          · simp only [hr, hv]
            rfl
          · simp only [hr, hv]
            exact resolveEach_refines hkeys hvisit node names st' s' h'

/-- **The source's search is the library's**, node by node and state by state. -/
theorem resolveDependencies_refines {nodeMap : HashMap String Node}
    (hkeys : KeyedByName nodeMap) :
    ∀ (fuel : Nat) (name : String) (node : Node) (st : EvalState) (s : Search String),
      nodeMap.lookup name = some node → st.Abstracts s →
      SameOutcome (resolveDependencies nodeMap fuel node st)
        (DepthFirst.visit (nodeGraph nodeMap) fuel name s)
  | 0, _, _, _, _, _, _ => trivial
  | fuel + 1, name, node, st, s, hlook, h => by
      obtain rfl := hkeys name node hlook
      have hloop := resolveEach_refines hkeys
        (fun name node st s hlook h =>
          resolveDependencies_refines hkeys fuel name node st s hlook h)
        node (node.dependencies.getD []) { st with seen := node.name :: st.seen }
        { s with seen := node.name :: s.seen } ⟨h.evalOrder, by simp [h.seen], h.resolved⟩
      unfold resolveDependencies DepthFirst.visit
      rw [show nodeGraph nodeMap node.name = some (node.dependencies.getD []) by
        simp [nodeGraph, hlook], Option.getD_some]
      generalize resolveEach nodeMap _ node _ _ = r at hloop ⊢
      generalize @DepthFirst.visitAll String _ _ _ _ _ _ = r' at hloop ⊢
      obtain ⟨rfl, rfl⟩ | ⟨fault, rfl, rfl⟩ | ⟨st', s', rfl, rfl, h'⟩ := hloop.cases
      · trivial
      · rfl
      · refine ⟨by simp [h'.evalOrder], h'.seen, fun x => ?_⟩
        simp only [List.mem_cons, List.mem_append, List.not_mem_nil, or_false]
        rw [h'.resolved]
        exact or_comm

/-! ## §5. What the evaluation order is. -/

section
variable [UnicodeTables]

theorem localVarsNodes_map_name (order : HashOrder) :
    ∀ (index : Nat) (previous : Option Variable) (vars : List Variable),
      (localVarsNodes order index previous vars).map (·.name) = vars.map (·.name)
  | _, _, [] => rfl
  | index, previous, var :: vars => by
      rw [localVarsNodes, List.map_cons, localVarsNodes_map_name order (index + 1) (some var) vars]
      rfl

/-- **Locals overwrite globals, and both overwrite the body's node.** -/
theorem lookup_generateNodes (order : HashOrder) (body : String)
    (localVars globalVars : List Variable) (name : String) :
    (generateNodes order body localVars globalVars).lookup name
      = ((localVarsNodes order 0 none localVars).reverse.find? (fun node => node.name = name)).or
          (((globalVars.map (createNodeFromVar order)).reverse.find?
              (fun node => node.name = name)).or
            (if matchBody = name then some (createBodyNode order body localVars) else none)) := by
  rw [generateNodes, HashMap.lookup_insertAll, HashMap.lookup_insertAll,
    HashMap.lookup_insertAll]
  simp only [List.reverse_cons, List.reverse_nil, List.nil_append, List.find?_cons,
    List.find?_nil, AList.lookup_empty, Option.or_none]
  by_cases h : matchBody = name
  · simp [h, createBodyNode]
  · simp [h, createBodyNode]

theorem keyedByName_generateNodes (order : HashOrder) (body : String)
    (localVars globalVars : List Variable) :
    KeyedByName (generateNodes order body localVars globalVars) := by
  intro name node h
  -- each of the three groups is searched by name
  rw [lookup_generateNodes, Option.or_eq_some_iff, Option.or_eq_some_iff] at h
  rcases h with h | ⟨_, h | ⟨_, h⟩⟩
  · simpa using List.find?_some h
  · simpa using List.find?_some h
  · split at h
    · rename_i hname
      cases h
      exact hname
    · simp at h

theorem isSome_lookup_matchBody (order : HashOrder) (body : String)
    (localVars globalVars : List Variable) :
    ((generateNodes order body localVars globalVars).lookup matchBody).isSome := by
  rw [lookup_generateNodes]
  simp

theorem length_keys_generateNodes (order : HashOrder) (body : String)
    (localVars globalVars : List Variable) :
    (generateNodes order body localVars globalVars).keys.length
      ≤ resolutionFuel localVars globalVars := by
  have hlocals : (localVarsNodes order 0 none localVars).length = localVars.length := by
    simpa using congrArg List.length (localVarsNodes_map_name order 0 none localVars)
  have h₁ := HashMap.length_insertAll_le (·.name) [createBodyNode order body localVars]
    (∅ : HashMap String Node)
  have h₂ := HashMap.length_insertAll_le (·.name) (globalVars.map (createNodeFromVar order))
    (HashMap.insertAll (·.name) ∅ [createBodyNode order body localVars])
  have h₃ := HashMap.length_insertAll_le (·.name) (localVarsNodes order 0 none localVars)
    ((HashMap.insertAll (·.name) ∅ [createBodyNode order body localVars]).insertAll (·.name)
      (globalVars.map (createNodeFromVar order)))
  simp only [AList.keys_empty, List.length_nil, List.length_cons, List.length_map,
    hlocals] at h₁ h₂ h₃
  unfold generateNodes resolutionFuel
  dsimp only
  omega

end

/-- The variable of the node of a name. -/
def variableOf (nodeMap : HashMap String Node) (name : String) : Option Variable :=
  (nodeMap.lookup name).bind (·.var)

theorem orderedVariables_eq {nodeMap : HashMap String Node} :
    ∀ {names : List String}, (∀ name ∈ names, (nodeGraph nodeMap name).isSome) →
      orderedVariables nodeMap names = .ok (names.filterMap (variableOf nodeMap))
  | [], _ => rfl
  | name :: names, h => by
      have hname := h name List.mem_cons_self
      have ih : orderedVariables nodeMap names = .ok (names.filterMap (variableOf nodeMap)) :=
        orderedVariables_eq fun x hx => h x (List.mem_cons_of_mem _ hx)
      simp only [nodeGraph, Option.isSome_map] at hname
      obtain ⟨node, hnode⟩ := Option.isSome_iff_exists.mp hname
      rw [orderedVariables, hnode, ih, List.filterMap_cons]
      cases hvar : node.var <;> simp [variableOf, hnode, hvar, Except.map]

/-- The variables of a list of names, each under its own name. -/
theorem map_name_filterMap {f : String → Option Variable}
    (hf : ∀ name var, f name = some var → var.name = name) (names : List String) :
    (names.filterMap f).map (·.name) = names.filter (fun name => (f name).isSome) := by
  induction names with
  | nil => rfl
  | cons name names ih =>
      cases h : f name with
      | none => simp [h, ih]
      | some var => simp [h, ih, hf name var h]

/-- A variable in the list of variables comes from a name in the list of names. -/
theorem filterMap_split {f : String → Option Variable} {names : List String}
    {pre post : List Variable} {var : Variable} (h : names.filterMap f = pre ++ var :: post) :
    ∃ npre name npost, names = npre ++ name :: npost ∧ pre = npre.filterMap f
      ∧ f name = some var := by
  obtain ⟨npre, nrest, rfl, rfl, hrest⟩ := List.filterMap_eq_append_iff.mp h
  obtain ⟨skipped, name, npost, rfl, hskipped, hname, _⟩ := List.filterMap_eq_cons_iff.mp hrest
  refine ⟨npre ++ skipped, name, npost, by simp, ?_, hname⟩
  -- the names skipped before it have no variable
  rw [List.filterMap_append, List.filterMap_eq_nil_iff.mpr hskipped, List.append_nil]

/-- The names are a topological order, without repetitions, of exactly the nodes below the
body's. -/
structure IsEvalOrder (nodeMap : HashMap String Node) (names : List String) : Prop where
  topo : DepthFirst.TopoOrder (nodeGraph nodeMap) names
  nodup : names.Nodup
  mem_iff : ∀ name, name ∈ names ↔ DepthFirst.Reaches (nodeGraph nodeMap) matchBody name

theorem IsEvalOrder.resolvable {nodeMap : HashMap String Node} {names : List String}
    (h : IsEvalOrder nodeMap names) : DepthFirst.Resolvable (nodeGraph nodeMap) matchBody :=
  ⟨fun name hname => h.topo.isSome ((h.mem_iff name).mpr hname),
    fun name hname => h.topo.acyclic h.nodup ((h.mem_iff name).mpr hname)⟩

/-- What a finished search of the library amounts to. -/
def searchResult (nodeMap : HashMap String Node) :
    Except (Fault String) (Search String) → Except Error (List Variable)
  | .error fault => .error (.renderer (.ofFault fault))
  | .ok s => orderedVariables nodeMap s.done

/-- The function in terms of the library's search from the body's node. -/
theorem resolveEvaluationOrder_eq [UnicodeTables] (order : HashOrder) (fuel : Nat)
    (body : String) (localVars globalVars : List Variable) :
    resolveEvaluationOrder order fuel body localVars globalVars
      = (DepthFirst.visit (nodeGraph (generateNodes order body localVars globalVars)) fuel
          matchBody .start).map
          (searchResult (generateNodes order body localVars globalVars)) := by
  obtain ⟨bodyNode, hbody⟩ := Option.isSome_iff_exists.mp
    (isSome_lookup_matchBody order body localVars globalVars)
  have href := resolveDependencies_refines
    (keyedByName_generateNodes order body localVars globalVars) fuel matchBody bodyNode {}
    Search.start hbody ⟨rfl, rfl, by simp [Search.start]⟩
  unfold resolveEvaluationOrder
  simp only [hbody]
  generalize resolveDependencies _ fuel bodyNode {} = r at href ⊢
  generalize DepthFirst.visit _ fuel matchBody .start = r' at href ⊢
  obtain ⟨rfl, rfl⟩ | ⟨fault, rfl, rfl⟩ | ⟨st, s, rfl, rfl, h⟩ := href.cases
  · rfl
  · rfl
  · show some (orderedVariables _ st.evalOrder) = some (orderedVariables _ s.done)
    rw [h.evalOrder]

/-- A result computed with little fuel is the result. -/
theorem resolveEvaluationOrder_fuel [UnicodeTables] {order : HashOrder} {fuel fuel' : Nat}
    (hle : fuel ≤ fuel') {body : String} {localVars globalVars : List Variable}
    {r : Except Error (List Variable)}
    (h : resolveEvaluationOrder order fuel body localVars globalVars = some r) :
    resolveEvaluationOrder order fuel' body localVars globalVars = some r := by
  rw [resolveEvaluationOrder_eq, Option.map_eq_some_iff] at h ⊢
  obtain ⟨outcome, hvisit, hr⟩ := h
  exact ⟨outcome, DepthFirst.visit_fuel hle hvisit, hr⟩

/-- **The outcome of `resolve_evaluation_order`** with enough fuel: the variables of an
evaluation order, or an error where the graph below the body is not resolvable. -/
theorem resolveEvaluationOrder_spec [UnicodeTables] (order : HashOrder) {fuel : Nat}
    (body : String) {localVars globalVars : List Variable}
    (hfuel : resolutionFuel localVars globalVars ≤ fuel) :
    let nodeMap := generateNodes order body localVars globalVars
    (∃ names, IsEvalOrder nodeMap names
        ∧ resolveEvaluationOrder order fuel body localVars globalVars
          = some (.ok (names.filterMap (variableOf nodeMap))))
      ∨ ∃ err, ¬ DepthFirst.Resolvable (nodeGraph nodeMap) matchBody
        ∧ resolveEvaluationOrder order fuel body localVars globalVars = some (.error err) := by
  intro nodeMap
  have hsupport : ∀ name, (nodeGraph nodeMap name).isSome → name ∈ nodeMap.keys := by
    intro name h
    simpa [nodeGraph, AList.lookup_isSome, AList.mem_keys] using h
  have hroot : (nodeGraph nodeMap matchBody).isSome := by
    rw [nodeGraph, Option.isSome_map]
    exact isSome_lookup_matchBody order body localVars globalVars
  have hlen : nodeMap.keys.length ≤ fuel :=
    Nat.le_trans (length_keys_generateNodes order body localVars globalVars) hfuel
  rw [resolveEvaluationOrder_eq]
  rcases DepthFirst.visit_start hsupport hlen hroot with
    ⟨s, hr, htopo, hnodup, hmem⟩ | ⟨fault, hr, hfault⟩
  · refine Or.inl ⟨s.done, ⟨htopo, hnodup, hmem⟩, ?_⟩
    rw [hr, Option.map_some, searchResult, orderedVariables_eq fun name h => htopo.isSome h]
  · exact Or.inr ⟨_, hfault.not_resolvable, by rw [hr, Option.map_some, searchResult]⟩

/-- Whatever the fuel, an order that is returned comes from an evaluation order. -/
theorem resolveEvaluationOrder_ok [UnicodeTables] {order : HashOrder} {fuel : Nat}
    {body : String} {localVars globalVars vars : List Variable}
    (h : resolveEvaluationOrder order fuel body localVars globalVars = some (.ok vars)) :
    ∃ names, IsEvalOrder (generateNodes order body localVars globalVars) names
      ∧ vars = names.filterMap (variableOf (generateNodes order body localVars globalVars)) := by
  have hmax := resolveEvaluationOrder_fuel (Nat.le_max_left fuel
    (resolutionFuel localVars globalVars)) h
  rcases resolveEvaluationOrder_spec order body
      (Nat.le_max_right fuel (resolutionFuel localVars globalVars)) with
    ⟨names, hnames, heq⟩ | ⟨err, _, heq⟩
  · refine ⟨names, hnames, ?_⟩
    simpa using hmax.symm.trans heq
  · simpa using hmax.symm.trans heq

end Shinran
