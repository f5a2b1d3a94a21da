/-
  Shinran.Render.Schedule
  ───────────────────────
  **THE EVALUATION LOOP ON A SCHEDULE.**

  An evaluation order is used in one way only: each variable comes after the
  variables that its params read.  Lists of variables with this property are
  schedules (`Scheduled`), and every order that is returned is one, whatever
  the variables are called (`scheduled_of_ok`).

    • `evalVariables_ok`    — on a schedule the loop cannot fail by itself:
                              only what it evaluates can,
    • `evalVariables_agree` — two loops over the same variables, scheduled in
                              any two ways, end with the same outputs.
-/
import Shinran.Render.Template

namespace Shinran

open DepthFirst (Edge Reaches)

/-! ## §1. Schedules. -/

/-- The same variables have the same names. -/
theorem mem_names_congr {vars vars' : List Variable} (hmem : ∀ var, var ∈ vars ↔ var ∈ vars')
    {name : String} : name ∈ vars.map (·.name) ↔ name ∈ vars'.map (·.name) := by
  rw [List.mem_map, List.mem_map]
  simp only [hmem]

variable [UnicodeTables]

/-- No name occurs twice, and every variable comes after those that its params read. -/
structure Scheduled (vars : List Variable) : Prop where
  nodup : (vars.map (·.name)).Nodup
  before : ∀ pre var post, vars = pre ++ var :: post → ∀ name ∈ injectedNames var,
    name ∈ vars.map (·.name) → name ∈ pre.map (·.name)

theorem exists_localNode {order : HashOrder} {node : Node} :
    ∀ {index : Nat} {previous : Option Variable} {vars : List Variable},
      node ∈ localVarsNodes order index previous vars →
      ∃ index previous, ∃ var ∈ vars, node = createLocalNode order index previous var
  | _, _, [], h => by simp [localVarsNodes] at h
  | index, previous, var :: vars, h => by
      rw [localVarsNodes, List.mem_cons] at h
      cases h with
      | inl h => exact ⟨index, previous, var, List.mem_cons_self, h⟩
      | inr h =>
          obtain ⟨index', previous', v, hv, heq⟩ := exists_localNode h
          exact ⟨index', previous', v, List.mem_cons_of_mem _ hv, heq⟩

/-- Where a node comes from, whatever the variables are called. -/
theorem node_cases {order : HashOrder} {body : String} {localVars globalVars : List Variable}
    {name : String} {node : Node}
    (h : (generateNodes order body localVars globalVars).lookup name = some node) :
    (∃ index previous, ∃ var ∈ localVars, node = createLocalNode order index previous var)
      ∨ (∃ var ∈ globalVars, node = createNodeFromVar order var)
      ∨ (name = matchBody ∧ node = createBodyNode order body localVars) := by
  rw [lookup_generateNodes, Option.or_eq_some_iff, Option.or_eq_some_iff] at h
  rcases h with hlocal | ⟨_, hglobal | ⟨_, hbody⟩⟩
  · exact Or.inl (exists_localNode (List.mem_reverse.mp (List.mem_of_find?_eq_some hlocal)))
  · obtain ⟨var, hvar, rfl⟩ :=
      List.mem_map.mp (List.mem_reverse.mp (List.mem_of_find?_eq_some hglobal))
    exact Or.inr (Or.inl ⟨var, hvar, rfl⟩)
  · by_cases hname : matchBody = name
    · rw [if_pos hname, Option.some.injEq] at hbody
      exact Or.inr (Or.inr ⟨hname.symm, hbody.symm⟩)
    · rw [if_neg hname] at hbody
      cases hbody

/-- The variable of a node is a local or a global of the node's name, and the node depends on
all it reads. -/
theorem variableOf_eq_some {order : HashOrder} {body : String}
    {localVars globalVars : List Variable} {name : String} {var : Variable}
    (h : variableOf (generateNodes order body localVars globalVars) name = some var) :
    var.name = name ∧ (var ∈ localVars ∨ var ∈ globalVars) ∧ ∀ name' ∈ injectedNames var,
      Edge (nodeGraph (generateNodes order body localVars globalVars)) name name' := by
  obtain ⟨node, hlook, hvar⟩ := Option.bind_eq_some_iff.mp h
  have hname := keyedByName_generateNodes order body localVars globalVars name node hlook
  simp only [edge_iff_of_lookup hlook]
  rcases node_cases hlook with ⟨_, _, v, hv, rfl⟩ | ⟨v, hv, rfl⟩ | ⟨_, rfl⟩
  · obtain rfl : v = var := Option.some.inj hvar
    exact ⟨hname, Or.inl hv, fun _ hmem => mem_dependencies_createLocalNode.mpr (Or.inl hmem)⟩
  · obtain rfl : v = var := Option.some.inj hvar
    exact ⟨hname, Or.inr hv, fun _ hmem => mem_dependencies_createNodeFromVar.mpr (Or.inl hmem)⟩
  · simp [createBodyNode] at hvar

/-- **Every order that is returned is a schedule**, of the variables of the nodes below the
body's. -/
theorem scheduled_of_ok {order : HashOrder} {fuel : Nat} {body : String}
    {localVars globalVars vars : List Variable}
    (h : resolveEvaluationOrder order fuel body localVars globalVars = some (.ok vars)) :
    Scheduled vars ∧ ∀ var, var ∈ vars
      ↔ Reaches (nodeGraph (generateNodes order body localVars globalVars)) matchBody var.name
        ∧ variableOf (generateNodes order body localVars globalVars) var.name = some var := by
  obtain ⟨names, hnames, rfl⟩ := resolveEvaluationOrder_ok h
  have hname : ∀ name var, variableOf (generateNodes order body localVars globalVars) name
      = some var → var.name = name := fun name var hvar => (variableOf_eq_some hvar).1
  refine ⟨⟨?_, ?_⟩, fun var => ?_⟩
  · rw [map_name_filterMap hname]
    exact hnames.nodup.filter _
  · intro pre var post heq name hinjected hmem
    -- the order of names is topological, and what has no variable drops out of it
    obtain ⟨npre, x, npost, rfl, rfl, hx⟩ := filterMap_split heq
    have hbefore := (hnames.topo npre x npost rfl).2 name ((variableOf_eq_some hx).2.2 name hinjected)
    rw [map_name_filterMap hname] at hmem ⊢
    exact List.mem_filter.mpr ⟨hbefore, (List.mem_filter.mp hmem).2⟩
  · rw [List.mem_filterMap]
    constructor
    · intro hvar
      obtain ⟨name, hmem, hvar⟩ := hvar
      obtain rfl := hname name var hvar
      exact ⟨(hnames.mem_iff _).mp hmem, hvar⟩
    · intro hvar
      exact ⟨var.name, (hnames.mem_iff _).mpr hvar.1, hvar.2⟩

/-- Only the body's own node has no variable. -/
theorem eq_matchBody_of_variableOf {order : HashOrder} {body : String}
    {localVars globalVars : List Variable} {name : String}
    (hnode : (nodeGraph (generateNodes order body localVars globalVars) name).isSome)
    (h : variableOf (generateNodes order body localVars globalVars) name = none) :
    name = matchBody := by
  simp only [nodeGraph, Option.isSome_map] at hnode
  obtain ⟨node, hlook⟩ := Option.isSome_iff_exists.mp hnode
  have hvar : node.var = none := by simpa [variableOf, hlook] using h
  rcases node_cases hlook with ⟨_, _, v, _, rfl⟩ | ⟨v, _, rfl⟩ | ⟨hname, _⟩
  · simp [createLocalNode] at hvar
  · simp [createNodeFromVar] at hvar
  · exact hname

/-- A node in the order depends only on variables in the order: a dependency on the body
would close a cycle. -/
theorem IsEvalOrder.exists_variableOf {order : HashOrder} {body : String}
    {localVars globalVars : List Variable} {names : List String}
    (h : IsEvalOrder (generateNodes order body localVars globalVars) names)
    {name name' : String} (hname : name ∈ names)
    (hedge : Edge (nodeGraph (generateNodes order body localVars globalVars)) name name') :
    name' ∈ names ∧ ∃ var,
      variableOf (generateNodes order body localVars globalVars) name' = some var := by
  have hname' : name' ∈ names := h.topo.mem_of_edge hname hedge
  refine ⟨hname', ?_⟩
  cases hvar : variableOf (generateNodes order body localVars globalVars) name' with
  | some var => exact ⟨var, rfl⟩
  | none =>
      obtain rfl := eq_matchBody_of_variableOf (h.topo.isSome hname') hvar
      exact absurd (Relation.TransGen.tail' ((h.mem_iff name).mp hname) hedge)
        (h.topo.acyclic h.nodup hname')

/-- An order lists everything that its variables read. -/
theorem closed_of_ok {order : HashOrder} {fuel : Nat} {body : String}
    {localVars globalVars vars : List Variable}
    (h : resolveEvaluationOrder order fuel body localVars globalVars = some (.ok vars)) :
    ∀ var ∈ vars, ∀ name ∈ injectedNames var, name ∈ vars.map (·.name) := by
  obtain ⟨names, hnames, rfl⟩ := resolveEvaluationOrder_ok h
  intro var hvar name hname
  obtain ⟨x, hx, hvar⟩ := List.mem_filterMap.mp hvar
  obtain ⟨hmem, var', hvar'⟩ :=
    hnames.exists_variableOf hx ((variableOf_eq_some hvar).2.2 name hname)
  exact List.mem_map.mpr ⟨var', List.mem_filterMap.mpr ⟨name, hmem, hvar'⟩,
    (variableOf_eq_some hvar').1⟩

/-- Unless a variable has taken the place of the body's node, an order lists everything that
the body reads. -/
theorem body_closed_of_ok {order : HashOrder} {fuel : Nat} {body : String}
    {localVars globalVars vars : List Variable}
    (hbody : ∀ var ∈ localVars ++ globalVars, var.name ≠ matchBody)
    (h : resolveEvaluationOrder order fuel body localVars globalVars = some (.ok vars)) :
    ∀ name ∈ getBodyVariableNames body, name ∈ vars.map (·.name) := by
  obtain ⟨names, hnames, rfl⟩ := resolveEvaluationOrder_ok h
  intro name hname
  -- the node of the body is the body's own, so it depends on what the body reads
  have hedge : Edge (nodeGraph (generateNodes order body localVars globalVars)) matchBody
      name := by
    rw [edge_iff_of_lookup (lookup_matchBody hbody)]
    simp [createBodyNode, hname]
  obtain ⟨hmem, var, hvar⟩ := hnames.exists_variableOf ((hnames.mem_iff _).mpr .refl) hedge
  exact List.mem_map.mpr ⟨var, List.mem_filterMap.mpr ⟨name, hmem, hvar⟩,
    (variableOf_eq_some hvar).1⟩

/-- The first variables of a schedule that lists all it reads are another one. -/
theorem Scheduled.of_append {pre post : List Variable} (h : Scheduled (pre ++ post))
    (hclosed : ∀ var ∈ pre ++ post, ∀ name ∈ injectedNames var,
      name ∈ (pre ++ post).map (·.name)) :
    Scheduled pre ∧ ∀ var ∈ pre, ∀ name ∈ injectedNames var, name ∈ pre.map (·.name) := by
  have hbefore : ∀ s var t, pre = s ++ var :: t → ∀ name ∈ injectedNames var,
      name ∈ s.map (·.name) := by
    intro s var t heq name hname
    exact h.before s var (t ++ post) (by simp [heq]) name hname
      (hclosed var (by simp [heq]) name hname)
  refine ⟨⟨?_, fun s var t heq name hname _ => hbefore s var t heq name hname⟩, ?_⟩
  · have hnodup := h.nodup
    rw [List.map_append, List.nodup_append] at hnodup
    exact hnodup.1
  · intro var hvar name hname
    obtain ⟨s, t, rfl⟩ := List.append_of_mem hvar
    rw [List.map_append, List.mem_append]
    exact Or.inl (hbefore s var t rfl name hname)

/-! ## §2. The loop cannot fail by itself. -/

section
variable {ren : Renderer} {ctx : Context} {render : Nat → TextEffect → Option RenderResult}

/-- What is evaluated for the variable succeeds: the nested rendering of a match, and the
extension of any other variable, if it is called at all. -/
def EvaluatesWell (ren : Renderer) (ctx : Context) (render : TextEffect → Option RenderResult)
    (scope : Scope) (var : Variable) : Prop :=
  if var.varType = .match_ then
    ∃ sub output, subTemplate ctx var = some sub ∧ render sub = some (.success output)
  else ∀ params, variableParams scope var = .ok params →
    ∃ output, calculate ren var.varType scope params = .ok output

/-- Every reference to `name` in the text picks one of several outputs. -/
def ReferencedWithSubname (text name : String) : Prop :=
  ∀ caps ∈ VarRegex.captures text, caps.name = name → caps.subname.isSome

/-- The references in the params succeed where the names are in scope. -/
theorem variableParams_ok {scope : Scope} {var : Variable}
    (hscope : ∀ name ∈ injectedNames var, (scope.lookup name).isSome)
    (hmultiple : ∀ name results, scope.lookup name = some (.multiple results) →
      var.injectVars = true → ∀ s, var.params.HasString s → ReferencedWithSubname s name) :
    ∃ params, variableParams scope var = .ok params := by
  unfold variableParams
  by_cases hinject : var.injectVars = true
  · rw [if_pos hinject, injectVariablesIntoParams_ok_iff]
    intro s hs caps hcaps
    have hname : caps.name ∈ injectedNames var :=
      mem_injectedNames.mpr ⟨hinject, s, hs, List.mem_map_of_mem hcaps⟩
    -- each reference is in scope, and picks one output where there are several
    obtain ⟨output, houtput⟩ := Option.isSome_iff_exists.mp (hscope caps.name hname)
    refine ⟨output, houtput, fun results hresults => ?_⟩
    exact hmultiple caps.name results (hresults ▸ houtput) hinject s hs caps hcaps rfl
  · rw [if_neg hinject]
    exact ⟨_, rfl⟩

theorem evalVariable_ok {render : TextEffect → Option RenderResult} {scope : Scope}
    {var : Variable} (heval : EvaluatesWell ren ctx render scope var)
    (hparams : ∃ params, variableParams scope var = .ok params) :
    ∃ output, evalVariable ren ctx render scope var = some (.ok output) := by
  unfold EvaluatesWell at heval
  simp only [evalVariable_ok_iff]
  by_cases hmatch : var.varType = .match_
  · rw [if_pos hmatch] at heval
    obtain ⟨sub, output, hsub, hrender⟩ := heval
    exact ⟨.single output, .inl ⟨hmatch, sub, output, hsub, hrender, rfl⟩⟩
  · rw [if_neg hmatch] at heval
    obtain ⟨params, hparams⟩ := hparams
    obtain ⟨output, houtput⟩ := heval params hparams
    exact ⟨output, .inr ⟨hmatch, params, hparams, houtput⟩⟩

/-- **On a schedule that lists all it reads the loop succeeds**, if everything that it
evaluates does and references to several outputs pick one. -/
theorem evalVariables_ok {vars : List Variable} (hvars : Scheduled vars)
    (hclosed : ∀ var ∈ vars, ∀ name ∈ injectedNames var, name ∈ vars.map (·.name))
    (heval : ∀ pre var post scope, vars = pre ++ var :: post →
      evalVariables ren ctx render 0 ∅ pre = some (.ok scope) →
      EvaluatesWell ren ctx (render pre.length) scope var)
    (hmultiple : ∀ pre post scope name results, vars = pre ++ post →
      evalVariables ren ctx render 0 ∅ pre = some (.ok scope) →
      scope.lookup name = some (.multiple results) →
      ∀ var ∈ vars, var.injectVars = true → ∀ s, var.params.HasString s →
        ReferencedWithSubname s name) :
    ∀ pre post, vars = pre ++ post →
      ∃ scope, evalVariables ren ctx render 0 ∅ pre = some (.ok scope) := by
  intro pre
  induction pre using List.reverseRecOn with
  | nil => exact fun _ _ => ⟨∅, rfl⟩
  | append_singleton pre var ih =>
      intro post heq
      rw [List.append_assoc, List.singleton_append] at heq
      obtain ⟨scope, hscope⟩ := ih (var :: post) heq
      have hvar : var ∈ vars := by simp [heq]
      -- all that the params read has been evaluated before
      have hparams : ∃ params, variableParams scope var = .ok params := by
        refine variableParams_ok (fun name hname => ?_) fun name results hlook =>
          hmultiple pre (var :: post) scope name results heq hscope hlook var hvar
        exact isSome_lookup_evalVariables hscope
          (hvars.before pre var post heq name hname (hclosed var hvar name hname))
      obtain ⟨output, houtput⟩ := evalVariable_ok (heval pre var post scope heq hscope) hparams
      exact ⟨_, evalVariables_snoc hscope (by simpa using houtput)⟩

end

/-! ## §3. Two loops over the same variables agree. -/

/-- The output of every extension depends on its params only. -/
structure Renderer.ScopeFree (ren : Renderer) : Prop where
  date : ∀ scope scope' params, ren.dateExtension scope params = ren.dateExtension scope' params
  echo : ∀ scope scope' params, ren.echoExtension scope params = ren.echoExtension scope' params
  shell : ∀ scope scope' params,
    ren.shellExtension scope params = ren.shellExtension scope' params
  script : ∀ scope scope' params,
    ren.scriptExtension scope params = ren.scriptExtension scope' params
  random : ∀ scope scope' params,
    ren.randomExtension scope params = ren.randomExtension scope' params
  mock : ∀ scope scope' params, ren.mockExtension scope params = ren.mockExtension scope' params

omit [UnicodeTables] in
theorem Renderer.ScopeFree.calculate_eq {ren : Renderer} (h : ren.ScopeFree)
    (varType : VarType) (scope scope' : Scope) (params : Params) :
    calculate ren varType scope params = calculate ren varType scope' params := by
  unfold calculate
  cases varType with
  | date => simp only [h.date scope scope']
  | echo => simp only [h.echo scope scope']
  | shell => simp only [h.shell scope scope']
  | script => simp only [h.script scope scope']
  | random => simp only [h.random scope scope']
  | mock => simp only [h.mock scope scope']
  | form | unresolved | match_ => rfl

section
variable {ren : Renderer} {ctx ctx' : Context}

omit [UnicodeTables] in
theorem subTemplate_congr (hmatches : ctx.matchesMap = ctx'.matchesMap) (var : Variable) :
    subTemplate ctx var = subTemplate ctx' var := by
  unfold subTemplate
  rw [hmatches]

/-- A variable has the same output in two scopes that agree on what its params read, if its
nested rendering, where it has one, does. -/
theorem evalVariable_agree (hren : ren.ScopeFree) (hmatches : ctx.matchesMap = ctx'.matchesMap)
    {render render' : TextEffect → Option RenderResult} {scope scope' : Scope} {var : Variable}
    {output : ExtensionOutput}
    (hscope : ∀ name ∈ injectedNames var, scope.lookup name = scope'.lookup name)
    (hrender : var.varType = .match_ → ∀ sub, subTemplate ctx var = some sub →
      ∀ body, render sub = some (.success body) → render' sub = some (.success body))
    (h : evalVariable ren ctx render scope var = some (.ok output)) :
    evalVariable ren ctx' render' scope' var = some (.ok output) := by
  -- the params see the scope only through the names that they read
  have hparams : variableParams scope var = variableParams scope' var := by
    unfold variableParams
    by_cases hinject : var.injectVars = true
    · rw [if_pos hinject, if_pos hinject]
      refine injectVariablesIntoParams_congr fun name hname => hscope name ?_
      unfold injectedNames
      rwa [if_pos hinject]
    · rw [if_neg hinject, if_neg hinject]
  rw [evalVariable_ok_iff] at h ⊢
  rw [← subTemplate_congr hmatches var, ← hparams]
  cases h with
  | inl h =>
      obtain ⟨hmatch, sub, body, hsub, hr, houtput⟩ := h
      exact .inl ⟨hmatch, sub, body, hsub, hrender hmatch sub hsub body hr, houtput⟩
  | inr h =>
      obtain ⟨hmatch, params, hp, houtput⟩ := h
      refine .inr ⟨hmatch, params, hp, ?_⟩
      rwa [hren.calculate_eq var.varType scope' scope]

/-- **Confluence of the loop.**  Where one schedule of some variables succeeds, so does any
other, with the same outputs.  The nested renderings need to agree only where both loops
get to them. -/
theorem evalVariables_agree (hren : ren.ScopeFree)
    (hmatches : ctx.matchesMap = ctx'.matchesMap)
    {render render' : Nat → TextEffect → Option RenderResult} {vars vars' : List Variable}
    (hvars : Scheduled vars) (hvars' : Scheduled vars')
    (hmem : ∀ var, var ∈ vars ↔ var ∈ vars') {final : Scope}
    (hrun : evalVariables ren ctx render 0 ∅ vars = some (.ok final))
    (hrender : ∀ pre var post scope pre' post' scope' sub,
      vars = pre ++ var :: post → evalVariables ren ctx render 0 ∅ pre = some (.ok scope) →
      vars' = pre' ++ var :: post' → evalVariables ren ctx' render' 0 ∅ pre' = some (.ok scope') →
      var.varType = .match_ → subTemplate ctx var = some sub →
      ∀ body, render pre.length sub = some (.success body) →
        render' pre'.length sub = some (.success body)) :
    ∀ pre' post', vars' = pre' ++ post' →
      ∃ scope', evalVariables ren ctx' render' 0 ∅ pre' = some (.ok scope')
        ∧ ∀ name ∈ pre'.map (·.name), scope'.lookup name = final.lookup name := by
  intro pre'
  -- along the second schedule; the first loop is cut where it evaluates the same variable
  induction pre' using List.reverseRecOn with
  | nil => exact fun _ _ => ⟨∅, rfl, by simp⟩
  | append_singleton pre' var ih =>
      intro post' heq'
      rw [List.append_assoc, List.singleton_append] at heq'
      obtain ⟨scope', hrun', hsame⟩ := ih (var :: post') heq'
      -- where the first loop evaluates the same variable
      have hvar : var ∈ vars := (hmem var).mpr (by simp [heq'])
      obtain ⟨pre, post, heq⟩ := List.append_of_mem hvar
      rw [heq] at hrun
      obtain ⟨scope, output, hpre, houtput, _⟩ := evalVariables_split hrun
      obtain ⟨hfinal, hfinalPre⟩ :=
        lookup_evalVariables (heq ▸ hvars.nodup) hpre houtput hrun
      have hscope : ∀ name ∈ injectedNames var, scope.lookup name = scope'.lookup name := by
        intro name hname
        by_cases hin : name ∈ vars.map (·.name)
        · -- both loops have evaluated it before
          have hin' : name ∈ vars'.map (·.name) := (mem_names_congr hmem).mp hin
          rw [hsame name (hvars'.before pre' var post' heq' name hname hin'),
            hfinalPre name (hvars.before pre var post heq name hname hin)]
        · -- neither ever does
          have hnot : name ∉ pre.map (·.name) := fun h => hin (by simp [heq, List.mem_map.mp h])
          have hnot' : name ∉ pre'.map (·.name) := by
            intro h
            apply hin
            rw [mem_names_congr hmem, heq', List.map_append]
            exact List.mem_append_left _ h
          rw [evalVariables_frame hpre hnot, evalVariables_frame hrun' hnot']
      have hvar' := evalVariable_agree hren hmatches hscope
        (fun hmatch sub hsub body hbody => by
          rw [Nat.zero_add] at hbody
          exact hrender pre var post scope pre' post' scope' sub heq hpre heq' hrun' hmatch hsub
            body hbody) houtput
      refine ⟨_, evalVariables_snoc hrun' (by simpa using hvar'), fun name hname => ?_⟩
      by_cases hne : name = var.name
      · rw [hne, AList.lookup_insert, hfinal]
      · rw [AList.lookup_insert_ne hne]
        exact hsame name (by simpa [hne] using hname)

/-- The scopes in which the two schedules end are the same function. -/
theorem exists_scope_agree (hren : ren.ScopeFree) (hmatches : ctx.matchesMap = ctx'.matchesMap)
    {render render' : Nat → TextEffect → Option RenderResult} {vars vars' : List Variable}
    (hvars : Scheduled vars) (hvars' : Scheduled vars')
    (hmem : ∀ var, var ∈ vars ↔ var ∈ vars') {final : Scope}
    (hrun : evalVariables ren ctx render 0 ∅ vars = some (.ok final))
    (hrender : ∀ pre var post scope pre' post' scope' sub,
      vars = pre ++ var :: post → evalVariables ren ctx render 0 ∅ pre = some (.ok scope) →
      vars' = pre' ++ var :: post' → evalVariables ren ctx' render' 0 ∅ pre' = some (.ok scope') →
      var.varType = .match_ → subTemplate ctx var = some sub →
      ∀ body, render pre.length sub = some (.success body) →
        render' pre'.length sub = some (.success body)) :
    ∃ final', evalVariables ren ctx' render' 0 ∅ vars' = some (.ok final')
      ∧ ∀ name, final.lookup name = final'.lookup name := by
  obtain ⟨final', hrun', hsame⟩ := evalVariables_agree hren hmatches hvars hvars' hmem hrun
    hrender vars' [] (by simp)
  refine ⟨final', hrun', fun name => ?_⟩
  by_cases hname : name ∈ vars'.map (·.name)
  · exact (hsame name hname).symm
  · -- neither schedule ever evaluates the name
    have hname' : name ∉ vars.map (·.name) := fun hin => hname ((mem_names_congr hmem).mp hin)
    rw [evalVariables_frame hrun hname', evalVariables_frame hrun' hname]

end

end Shinran
