/-
  Shinran.Render.Interference
  ───────────────────────────
  **TWO RENDERINGS OF ONE TEMPLATE.**

  When do two renderings of a template, in two contexts and under two hash
  orders, give the same text?  As soon as the two node maps agree on
  everything below the body's node (`SameBelow`), here and in every nested
  rendering that both get to: `renderTemplate_agree_of_orders`.

    • `renderTemplate_order_independent` — so the hash orders do not matter,
    • `evaluatesAt_of_alike`             — and the same variables are
                                           evaluated.
-/
import Shinran.Render.Schedule

namespace Shinran

open DepthFirst (Edge Reaches AgreeBelow Resolvable)

variable [UnicodeTables]

/-! ## §1. Node maps that agree below the body. -/

/-- The two node maps have the same variables and edges as far as the body's node reaches. -/
structure SameBelow (nodeMap nodeMap' : HashMap String Node) : Prop where
  graph : AgreeBelow (nodeGraph nodeMap) (nodeGraph nodeMap') matchBody
  var : ∀ name, Reaches (nodeGraph nodeMap) matchBody name →
    variableOf nodeMap name = variableOf nodeMap' name

omit [UnicodeTables] in
theorem SameBelow.symm {nodeMap nodeMap' : HashMap String Node}
    (h : SameBelow nodeMap nodeMap') : SameBelow nodeMap' nodeMap :=
  ⟨h.graph.symm, fun name hname => (h.var name (h.graph.reaches_iff.mpr hname)).symm⟩

/-- **Node maps that agree below the body order the same variables**, if one orders any. -/
theorem SameBelow.exists_order {order order' : HashOrder} {fuel fuel' : Nat} {body : String}
    {localVars globalVars localVars' globalVars' vars : List Variable}
    (hsame : SameBelow (generateNodes order body localVars globalVars)
      (generateNodes order' body localVars' globalVars'))
    (hfuel : resolutionFuel localVars' globalVars' ≤ fuel')
    (h : resolveEvaluationOrder order fuel body localVars globalVars = some (.ok vars)) :
    ∃ vars', resolveEvaluationOrder order' fuel' body localVars' globalVars' = some (.ok vars')
      ∧ ∀ var, var ∈ vars ↔ var ∈ vars' := by
  obtain ⟨names, hnames, _⟩ := resolveEvaluationOrder_ok h
  have hresolvable := hnames.resolvable.of_agreeBelow hsame.graph
  -- with enough fuel the second search succeeds, as its graph is resolvable too
  rcases resolveEvaluationOrder_spec order' body hfuel with
    ⟨_, _, heq⟩ | ⟨_, hnot, _⟩
  · refine ⟨_, heq, fun var => ?_⟩
    rw [(scheduled_of_ok h).2, (scheduled_of_ok heq).2, ← hsame.graph.reaches_iff]
    constructor
    · intro hvar
      exact ⟨hvar.1, hsame.var _ hvar.1 ▸ hvar.2⟩
    · intro hvar
      exact ⟨hvar.1, hsame.var _ hvar.1 ▸ hvar.2⟩
  · exact absurd hresolvable hnot

omit [UnicodeTables] in
/-- The last variable of a name. -/
theorem exists_last_name {name : String} : ∀ {vars : List Variable},
    name ∈ vars.map (·.name) →
    ∃ pre var post, vars = pre ++ var :: post ∧ var.name = name ∧ name ∉ post.map (·.name)
  | [], h => by simp at h
  | var :: vars, h => by
      by_cases hmem : name ∈ vars.map (·.name)
      · obtain ⟨pre, v, post, rfl, hv, hpost⟩ := exists_last_name hmem
        exact ⟨var :: pre, v, post, rfl, hv, hpost⟩
      · have hname : name = var.name := by simpa [hmem] using h
        exact ⟨[], var, vars, rfl, hname.symm, hmem⟩

omit [UnicodeTables] in
/-- The name has the same node in both maps, up to the order of the dependencies. -/
def NodesAgree (nodeMap nodeMap' : HashMap String Node) (name : String) : Prop :=
  (nodeMap.lookup name = none ∧ nodeMap'.lookup name = none)
    ∨ ∃ node node', nodeMap.lookup name = some node ∧ nodeMap'.lookup name = some node'
      ∧ node.var = node'.var
      ∧ ∀ x, x ∈ node.dependencies.getD [] ↔ x ∈ node'.dependencies.getD []

omit [UnicodeTables] in
theorem NodesAgree.edge_iff {nodeMap nodeMap' : HashMap String Node} {name : String}
    (h : NodesAgree nodeMap nodeMap' name) (name' : String) :
    Edge (nodeGraph nodeMap) name name' ↔ Edge (nodeGraph nodeMap') name name' := by
  rcases h with ⟨hnone, hnone'⟩ | ⟨node, node', hlook, hlook', _, hdeps⟩
  · exact iff_of_false (not_edge_of_lookup hnone) (not_edge_of_lookup hnone')
  · rw [edge_iff_of_lookup hlook, edge_iff_of_lookup hlook', hdeps]

/-- A name has the same node if it belongs to a local, or denotes the same global. -/
theorem nodesAgree_of_find?_eq {order order' : HashOrder} {body : String}
    {localVars globalVars globalVars' : List Variable} {name : String}
    (hnodup : (globalVars.map (·.name)).Nodup) (hnodup' : (globalVars'.map (·.name)).Nodup)
    (hfind : name ∉ localVars.map (·.name) → globalVars.find? (fun var => var.name = name)
      = globalVars'.find? (fun var => var.name = name)) :
    NodesAgree (generateNodes order body localVars globalVars)
      (generateNodes order' body localVars globalVars') name := by
  by_cases hlocal : name ∈ localVars.map (·.name)
  · obtain ⟨pre, var, post, rfl, rfl, hlast⟩ := exists_last_name hlocal
    refine Or.inr ⟨_, _, lookup_local order body globalVars hlast,
      lookup_local order' body globalVars' hlast, rfl, fun x => ?_⟩
    rw [mem_dependencies_createLocalNode, mem_dependencies_createLocalNode]
  · unfold NodesAgree
    rw [lookup_generateNodes, lookup_generateNodes, find?_localVarsNodes_eq_none order hlocal,
      find?_localVarsNodes_eq_none order' hlocal, find?_globalNodes order _ _ hnodup,
      find?_globalNodes order' _ _ hnodup', hfind hlocal]
    cases globalVars'.find? (fun var => var.name = name) with
    | some var =>
        refine Or.inr ⟨_, _, rfl, rfl, rfl, fun x => ?_⟩
        rw [mem_dependencies_createNodeFromVar, mem_dependencies_createNodeFromVar]
    | none =>
        by_cases hbody : matchBody = name
        · rw [if_pos hbody, if_pos hbody]
          exact Or.inr ⟨_, _, rfl, rfl, rfl, fun x => by simp [createBodyNode]⟩
        · rw [if_neg hbody, if_neg hbody]
          exact Or.inl ⟨rfl, rfl⟩

omit [UnicodeTables] in
/-- Maps whose nodes agree as far as the body's node reaches are the same there. -/
theorem sameBelow_of_nodesAgree {nodeMap nodeMap' : HashMap String Node}
    (h : ∀ name, Reaches (nodeGraph nodeMap) matchBody name →
      NodesAgree nodeMap nodeMap' name) : SameBelow nodeMap nodeMap' := by
  refine ⟨fun name hname => ⟨?_, (h name hname).edge_iff⟩, fun name hname => ?_⟩
  · rcases h name hname with ⟨hnone, hnone'⟩ | ⟨node, node', hlook, hlook', _⟩
    · simp [nodeGraph, hnone, hnone']
    · simp [nodeGraph, hlook, hlook']
  · rcases h name hname with ⟨hnone, hnone'⟩ | ⟨node, node', hlook, hlook', hvar, _⟩
    · simp [variableOf, hnone, hnone']
    · simp [variableOf, hlook, hlook', hvar]

/-- Neither the hash orders nor the order of the globals matters for the graph. -/
theorem sameBelow_of_find?_eq {order order' : HashOrder} {body : String}
    {localVars globalVars globalVars' : List Variable}
    (hnodup : (globalVars.map (·.name)).Nodup) (hnodup' : (globalVars'.map (·.name)).Nodup)
    (hfind : ∀ name, globalVars.find? (fun var => var.name = name)
      = globalVars'.find? (fun var => var.name = name)) :
    SameBelow (generateNodes order body localVars globalVars)
      (generateNodes order' body localVars globalVars') :=
  sameBelow_of_nodesAgree fun name _ =>
    nodesAgree_of_find?_eq hnodup hnodup' fun _ => hfind name

/-! ## §2. What a rendering evaluates. -/

section
variable (ren : Renderer) (ctx : Context) (style : CasingStyle)

/-- Rendering the template gets to its `index`-th variable, which is `var`. -/
def EvaluatesAt (fuel : Nat) (orders : RenderOrder) (template : TextEffect) (index : Nat)
    (var : Variable) : Prop :=
  VarRegex.isMatch template.body = true ∧ ∃ pre post scope,
    templateOrder ctx (orders []) template = some (.ok (pre ++ var :: post))
      ∧ pre.length = index ∧ templateLoop ren ctx style fuel orders pre = some (.ok scope)

/-- Rendering the template gets to the match `sub`, nested at `index`. -/
def NestedAt (fuel : Nat) (orders : RenderOrder) (template : TextEffect) (index : Nat)
    (sub : TextEffect) : Prop :=
  ∃ var, EvaluatesAt ren ctx style fuel orders template index var
    ∧ var.varType = .match_ ∧ subTemplate ctx var = some sub

/-- The templates rendered while the template is: itself, and what its nested matches render. -/
inductive Renders : Nat → RenderOrder → TextEffect → TextEffect → Prop
  | self {fuel : Nat} {orders : RenderOrder} {template : TextEffect} :
      Renders fuel orders template template
  | nested {fuel : Nat} {orders : RenderOrder} {template sub template' : TextEffect}
      {index : Nat} : NestedAt ren ctx style fuel orders template index sub →
      Renders fuel (orders.nested index) sub template' →
      Renders (fuel + 1) orders template template'

/-- The variables evaluated while the template is rendered, at any depth. -/
inductive EvaluatedIn : Nat → RenderOrder → TextEffect → Variable → Prop
  | here {fuel : Nat} {orders : RenderOrder} {template : TextEffect} {index : Nat}
      {var : Variable} : EvaluatesAt ren ctx style fuel orders template index var →
      EvaluatedIn (fuel + 1) orders template var
  | nested {fuel : Nat} {orders : RenderOrder} {template sub : TextEffect} {index : Nat}
      {var : Variable} : NestedAt ren ctx style fuel orders template index sub →
      EvaluatedIn fuel (orders.nested index) sub var →
      EvaluatedIn (fuel + 1) orders template var

end

section
variable {ren : Renderer} {ctx ctx' : Context} {style : CasingStyle}

/-- The variables that the template orders, if it orders any, ask for no form. -/
def FormFree (ctx : Context) (order : HashOrder) (template : TextEffect) : Prop :=
  ∀ vars, templateOrder ctx order template = some (.ok vars) → ∀ var ∈ vars, var.varType ≠ .form

/-- **How a rendering succeeds**: it evaluates all variables of its order, unless a form has
cut it short with an empty text. -/
theorem renderTemplate_eq_success {fuel : Nat} {orders : RenderOrder} {template : TextEffect}
    {body : String} (hform : body = "" → FormFree ctx (orders []) template)
    (h : renderTemplate ren ctx style (fuel + 1) orders template = some (.success body)) :
    (VarRegex.isMatch template.body = false ∧ finishBody style template.body = .success body)
      ∨ (VarRegex.isMatch template.body = true ∧ ∃ vars scope output,
          templateOrder ctx (orders []) template = some (.ok vars)
            ∧ templateLoop ren ctx style fuel orders vars = some (.ok scope)
            ∧ renderVariables template.body scope = .ok output
            ∧ finishBody style output = .success body) := by
  rcases renderTemplate_success_cases h with
    hplain | ⟨hmatch, vars, horder, hstop | ⟨scope, output, hloop, hrender, hbody⟩⟩
  · exact Or.inl hplain
  · obtain ⟨pre, var, post, _, rfl, _, hvar⟩ := evalVariables_error_split hstop
    obtain ⟨htype, hbody⟩ := evalVariable_eq_success hvar
    exact absurd htype (hform hbody _ horder var (by simp))
  · exact Or.inr ⟨hmatch, vars, scope, output, horder, hloop, hrender, hbody⟩

/-- A nested match that a successful rendering gets to renders as well. -/
theorem exists_nested_success {fuel : Nat} {orders : RenderOrder} {template sub : TextEffect}
    {body : String} {index : Nat} (hform : body = "" → FormFree ctx (orders []) template)
    (h : renderTemplate ren ctx style (fuel + 1) orders template = some (.success body))
    (hnested : NestedAt ren ctx style fuel orders template index sub) :
    ∃ body', renderTemplate ren ctx style fuel (orders.nested index) sub
      = some (.success body') := by
  obtain ⟨var, ⟨hmatch, pre, post, _, horder, rfl, _⟩, htype, hsub⟩ := hnested
  rcases renderTemplate_eq_success hform h with ⟨hnot, _⟩ | ⟨_, vars, scope, _, hvars, hloop, _⟩
  · simp [hmatch] at hnot
  · obtain rfl : pre ++ var :: post = vars := by simpa [horder] using hvars
    obtain ⟨before, output, _, hvar, _⟩ := evalVariables_split hloop
    rw [Nat.zero_add] at hvar
    -- the variable has been evaluated, and a match is evaluated by rendering it
    cases evalVariable_ok_iff.mp hvar with
    | inl hmatch =>
        obtain ⟨_, sub', body', hsub', hr, _⟩ := hmatch
        rw [hsub, Option.some.injEq] at hsub'
        exact ⟨body', hsub' ▸ hr⟩
    | inr hother => exact absurd htype hother.1

/-- A successful rendering gets to exactly the variables of its order. -/
theorem exists_evaluatesAt_iff {fuel : Nat} {orders : RenderOrder} {template : TextEffect}
    {body : String} (hform : body = "" → FormFree ctx (orders []) template)
    (h : renderTemplate ren ctx style (fuel + 1) orders template = some (.success body))
    {var : Variable} :
    (∃ index, EvaluatesAt ren ctx style fuel orders template index var)
      ↔ VarRegex.isMatch template.body = true
        ∧ ∃ vars, templateOrder ctx (orders []) template = some (.ok vars) ∧ var ∈ vars := by
  constructor
  · intro hvar
    obtain ⟨index, hmatch, pre, post, _, horder, _⟩ := hvar
    exact ⟨hmatch, _, horder, by simp⟩
  · intro hvar
    obtain ⟨hmatch, vars, horder, hmem⟩ := hvar
    rcases renderTemplate_eq_success hform h with
      ⟨hnot, _⟩ | ⟨_, vars', scope, _, hvars', hloop, _⟩
    · simp [hmatch] at hnot
    · obtain rfl : vars = vars' := by simpa [horder] using hvars'
      obtain ⟨pre, post, rfl⟩ := List.append_of_mem hmem
      -- the loop has succeeded on everything before the variable
      obtain ⟨before, _, hpre, _⟩ := evalVariables_split hloop
      exact ⟨pre.length, hmatch, pre, post, before, horder, rfl, hpre⟩

/-! ## §3. Agreement. -/

/-- If the first context orders the template's variables, the second orders the same ones. -/
def OrdersAlike (ctx ctx' : Context) (order order' : HashOrder) (template : TextEffect) : Prop :=
  ∀ vars, templateOrder ctx order template = some (.ok vars) →
    ∃ vars', templateOrder ctx' order' template = some (.ok vars')
      ∧ ∀ var, var ∈ vars ↔ var ∈ vars'

/-- **Agreement.**  What one template renders to, so does another with the same body, if the
two order the same variables and agree on the nested matches that both get to. -/
theorem renderTemplate_agree_of_orders (hren : ren.ScopeFree)
    (hmatches : ctx.matchesMap = ctx'.matchesMap) {fuel : Nat} {orders orders' : RenderOrder}
    {template template' : TextEffect} {body : String} (hbodies : template.body = template'.body)
    (halike : ∀ vars, templateOrder ctx (orders []) template = some (.ok vars) →
      ∃ vars', templateOrder ctx' (orders' []) template' = some (.ok vars')
        ∧ ∀ var, var ∈ vars ↔ var ∈ vars')
    (hform : FormFree ctx (orders []) template)
    (hnested : ∀ index index' sub, NestedAt ren ctx style fuel orders template index sub →
      NestedAt ren ctx' style fuel orders' template' index' sub →
      ∀ body, renderTemplate ren ctx style fuel (orders.nested index) sub = some (.success body) →
        renderTemplate ren ctx' style fuel (orders'.nested index') sub = some (.success body))
    (h : renderTemplate ren ctx style (fuel + 1) orders template = some (.success body)) :
    renderTemplate ren ctx' style (fuel + 1) orders' template' = some (.success body) := by
  rcases renderTemplate_eq_success (fun _ => hform) h with
    ⟨hnot, hbody⟩ | ⟨hmatch, vars, scope, output, horder, hloop, hrender, hbody⟩
  · rw [hbodies] at hnot hbody
    rw [renderTemplate, if_neg (by simp [hnot]), hbody]
  · have hmatch' : VarRegex.isMatch template'.body = true := hbodies ▸ hmatch
    obtain ⟨vars', horder', hmem⟩ := halike vars horder
    have hvars : Scheduled vars := (scheduled_of_ok horder).1
    have hvars' : Scheduled vars' := (scheduled_of_ok horder').1
    have hagree : ∃ scope', templateLoop ren ctx' style fuel orders' vars' = some (.ok scope')
        ∧ ∀ name, scope.lookup name = scope'.lookup name := by
      refine exists_scope_agree hren hmatches hvars hvars' hmem hloop ?_
      intro pre var post _ pre' post' _ sub heq hpre heq' hpre' htype hsub body hr
      exact hnested pre.length pre'.length sub
        ⟨var, ⟨hmatch, pre, post, _, heq ▸ horder, rfl, hpre⟩, htype, hsub⟩
        ⟨var, ⟨hmatch', pre', post', _, heq' ▸ horder', rfl, hpre'⟩, htype,
          subTemplate_congr hmatches var ▸ hsub⟩ body hr
    obtain ⟨scope', hloop', hscope⟩ := hagree
    rw [← hbody]
    refine renderTemplate_of_loop hmatch' horder' hloop' ?_
    rw [← hbodies, ← renderVariables_congr fun name _ => hscope name, hrender]

/-- One template, rendered in two contexts. -/
theorem renderTemplate_agree (hren : ren.ScopeFree) (hmatches : ctx.matchesMap = ctx'.matchesMap)
    {fuel : Nat} {orders orders' : RenderOrder} {template : TextEffect} {body : String}
    (halike : OrdersAlike ctx ctx' (orders []) (orders' []) template)
    (hform : FormFree ctx (orders []) template)
    (hnested : ∀ index index' sub, NestedAt ren ctx style fuel orders template index sub →
      NestedAt ren ctx' style fuel orders' template index' sub →
      ∀ body, renderTemplate ren ctx style fuel (orders.nested index) sub = some (.success body) →
        renderTemplate ren ctx' style fuel (orders'.nested index') sub = some (.success body))
    (h : renderTemplate ren ctx style (fuel + 1) orders template = some (.success body)) :
    renderTemplate ren ctx' style (fuel + 1) orders' template = some (.success body) :=
  renderTemplate_agree_of_orders hren hmatches rfl halike hform hnested h

/-- Renderings that both succeed get to the same variables. -/
theorem evaluatesAt_of_alike {fuel : Nat} {orders orders' : RenderOrder}
    {template : TextEffect} {body body' : String}
    (halike : OrdersAlike ctx ctx' (orders []) (orders' []) template)
    (hform : FormFree ctx (orders []) template) (hform' : FormFree ctx' (orders' []) template)
    (h : renderTemplate ren ctx style (fuel + 1) orders template = some (.success body))
    (h' : renderTemplate ren ctx' style (fuel + 1) orders' template = some (.success body'))
    {index : Nat} {var : Variable}
    (hvar : EvaluatesAt ren ctx style fuel orders template index var) :
    ∃ index', EvaluatesAt ren ctx' style fuel orders' template index' var := by
  obtain ⟨hmatch, vars, horder, hmem⟩ := (exists_evaluatesAt_iff (fun _ => hform) h).mp ⟨index, hvar⟩
  obtain ⟨vars', horder', hiff⟩ := halike vars horder
  exact (exists_evaluatesAt_iff (fun _ => hform') h').mpr ⟨hmatch, vars', horder', (hiff var).mp hmem⟩

/-- Renderings that both succeed evaluate the same variables, if the nested ones do. -/
theorem evaluatedIn_of_alike {fuel : Nat} {orders orders' : RenderOrder}
    {template : TextEffect} {body body' : String}
    (halike : OrdersAlike ctx ctx' (orders []) (orders' []) template)
    (hform : FormFree ctx (orders []) template) (hform' : FormFree ctx' (orders' []) template)
    (hmatches : ctx.matchesMap = ctx'.matchesMap)
    (h : renderTemplate ren ctx style (fuel + 1) orders template = some (.success body))
    (h' : renderTemplate ren ctx' style (fuel + 1) orders' template = some (.success body'))
    (hnested : ∀ index index' sub, NestedAt ren ctx style fuel orders template index sub →
      NestedAt ren ctx' style fuel orders' template index' sub → ∀ var,
        EvaluatedIn ren ctx style fuel (orders.nested index) sub var →
        EvaluatedIn ren ctx' style fuel (orders'.nested index') sub var) {var : Variable}
    (hvar : EvaluatedIn ren ctx style (fuel + 1) orders template var) :
    EvaluatedIn ren ctx' style (fuel + 1) orders' template var := by
  cases hvar with
  | here hat =>
      obtain ⟨index', hat'⟩ := evaluatesAt_of_alike halike hform hform' h h' hat
      exact .here hat'
  | nested hat hvar =>
      obtain ⟨caller, hcaller, htype, hsub⟩ := hat
      obtain ⟨index', hcaller'⟩ := evaluatesAt_of_alike halike hform hform' h h' hcaller
      have hat' : NestedAt ren ctx' style fuel orders' template index' _ :=
        ⟨caller, hcaller', htype, subTemplate_congr hmatches caller ▸ hsub⟩
      exact .nested hat' (hnested _ index' _ ⟨caller, hcaller, htype, hsub⟩ hat' var hvar)

end

/-! ## §4. The hash orders do not matter. -/

/-- A property of all variables that a context holds: its globals, and the variables of the
texts of its matches. -/
def Context.AllVars (p : Variable → Prop) (ctx : Context) : Prop :=
  (∀ var ∈ ctx.globalVars, p var)
    ∧ ∀ trigger m sub, ctx.matchesMap.lookup trigger = some m → m.baseMatch.effect = .text sub →
      ∀ var ∈ sub.vars, p var

omit [UnicodeTables] in
theorem allVars_default (p : Variable → Prop) : Context.default.AllVars p := by
  refine ⟨fun var hvar => ?_, fun trigger m sub hlookup => ?_⟩
  · cases hvar
  · cases hlookup

section
variable {ren : Renderer} {ctx ctx' : Context} {p : Variable → Prop}

omit [UnicodeTables] in
theorem Context.AllVars.subTemplate (h : ctx.AllVars p) {var : Variable} {sub : TextEffect}
    (hsub : subTemplate ctx var = some sub) : ∀ v ∈ sub.vars, p v := by
  unfold Shinran.subTemplate at hsub
  split at hsub
  · rename_i heffect
    obtain ⟨m, hm, heffect⟩ := Option.map_eq_some_iff.mp heffect
    obtain ⟨trigger, _, hlook⟩ := Option.bind_eq_some_iff.mp hm
    obtain rfl := Option.some.inj hsub
    exact h.2 trigger m _ hlook heffect
  · cases hsub

omit [UnicodeTables] in
theorem mem_localVariables {vars : List Variable} {var : Variable}
    (h : var ∈ localVariables ctx vars) : var ∈ vars ∨ var ∈ ctx.globalVars := by
  unfold localVariables at h
  split at h
  · obtain ⟨v, hv, hvar⟩ := List.mem_filterMap.mp h
    split at hvar
    · have hname := ctx.keyed _ _ hvar
      exact Or.inr (Context.mem_globalVars.mpr (hname ▸ hvar))
    · exact Or.inl (Option.some.inj hvar ▸ hv)
  · exact Or.inl h

/-- Everything that a template orders is one of its variables or a global. -/
theorem mem_of_templateOrder {order : HashOrder} {template : TextEffect} {vars : List Variable}
    (h : templateOrder ctx order template = some (.ok vars)) {var : Variable} (hvar : var ∈ vars) :
    var ∈ template.vars ∨ var ∈ ctx.globalVars := by
  have hof := (((scheduled_of_ok h).2 var).mp hvar).2
  cases (variableOf_eq_some hof).2.1 with
  | inl hlocal => exact mem_localVariables hlocal
  | inr hglobal => exact Or.inr hglobal

omit [UnicodeTables] in
theorem localVariables_congr
    (hlook : ∀ name, ctx.globalVarsMap.lookup name = ctx'.globalVarsMap.lookup name)
    (vars : List Variable) : localVariables ctx vars = localVariables ctx' vars := by
  unfold localVariables
  simp only [hlook]

theorem formFree_of_forall {order : HashOrder} {template : TextEffect}
    (hglobals : ∀ var ∈ ctx.globalVars, var.varType ≠ .form)
    (hvars : ∀ var ∈ template.vars, var.varType ≠ .form) : FormFree ctx order template := by
  intro vars horder var hvar
  cases mem_of_templateOrder horder hvar with
  | inl hlocal => exact hvars var hlocal
  | inr hglobal => exact hglobals var hglobal

/-- Contexts that file the same globals order the same variables, whatever the hash orders. -/
theorem ordersAlike_of_lookup
    (hlook : ∀ name, ctx.globalVarsMap.lookup name = ctx'.globalVarsMap.lookup name)
    (order order' : HashOrder) (template : TextEffect) :
    OrdersAlike ctx ctx' order order' template := by
  intro vars horder
  unfold templateOrder at horder ⊢
  rw [localVariables_congr hlook] at horder
  refine SameBelow.exists_order (sameBelow_of_find?_eq ctx.nodup_globalVars
    ctx'.nodup_globalVars fun name => ?_) (Nat.le_refl _) horder
  rw [Context.find?_globalVars, Context.find?_globalVars, hlook]

/-- **Rendering does not depend on hash orders.**  Two contexts with the same matches and the
same globals, the globals iterated in different orders, and two choices of the hash orders of
every rendering: what renders to a text under the one renders to the same text under the
other, at every depth of nesting. -/
theorem renderTemplate_order_independent (hren : ren.ScopeFree)
    (hctx : ctx.AllVars (fun var => var.varType ≠ .form))
    (hmatches : ctx.matchesMap = ctx'.matchesMap)
    (hglobals : ctx.globalVarsMap.entries.Perm ctx'.globalVarsMap.entries)
    (style : CasingStyle) :
    ∀ (fuel : Nat) (orders orders' : RenderOrder) (template : TextEffect),
      (∀ var ∈ template.vars, var.varType ≠ .form) →
      ∀ body, renderTemplate ren ctx style fuel orders template = some (.success body) →
        renderTemplate ren ctx' style fuel orders' template = some (.success body)
  | 0, _, _, _, _, _, h => by simp [renderTemplate] at h
  | fuel + 1, orders, orders', template, hvars, body, h => by
      have hlook : ∀ name, ctx.globalVarsMap.lookup name = ctx'.globalVarsMap.lookup name :=
        fun name => AList.perm_lookup hglobals
      refine renderTemplate_agree hren hmatches (ordersAlike_of_lookup hlook _ _ template)
        (formFree_of_forall hctx.1 hvars) ?_ h
      intro index index' sub hnested _ body hbody
      obtain ⟨var, _, _, hsub⟩ := hnested
      exact renderTemplate_order_independent hren hctx hmatches hglobals style fuel _ _ sub
        (hctx.subTemplate hsub) body hbody

omit [UnicodeTables] in
/-- Two globals, iterated and searched in either order. -/
theorem renderTemplate_order_independent_pair :
    let echo : Extension := fun _ params =>
      match params.get "echo" with
      | some (.string s) => .success (.single s)
      | _ => .aborted
    let x : Variable := { name := "x", varType := .echo, params := [("echo", .string "1")] }
    let y : Variable := { name := "y", varType := .echo, params := [("echo", .string "2")] }
    @renderTemplate .ascii ⟨echo, echo, echo, echo, echo, echo⟩
      ((Context.default.insertGlobal y).insertGlobal x) .none 1
      (fun _ => ⟨fun _ names => names.reverse, fun _ names => names.reverse_perm⟩)
      { body := "\x7b\x7bx\x7d\x7d and \x7b\x7by\x7d\x7d" } = some (.success "1 and 2") := by
  intro echo x y
  exact @renderTemplate_order_independent .ascii ⟨echo, echo, echo, echo, echo, echo⟩
    ((Context.default.insertGlobal x).insertGlobal y)
    ((Context.default.insertGlobal y).insertGlobal x)
    ⟨fun _ _ _ => rfl, fun _ _ _ => rfl, fun _ _ _ => rfl, fun _ _ _ => rfl, fun _ _ _ => rfl,
      fun _ _ _ => rfl⟩
    ⟨by decide, by simp [Context.insertGlobal, Context.default]⟩ rfl (List.Perm.swap _ _ _)
    .none 1 (fun _ => .canonical) _ _ (by decide) _ (by decide)

end

end Shinran
