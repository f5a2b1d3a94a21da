/-
  Shinran.Render.UnusedGlobal
  ───────────────────────────
  **WHEN AN UNUSED GLOBAL IS HARMLESS.**

  All globals of all files share one node map with the template's own
  variables and with the body's node.  The body's node is filed under the name
  `__match_body` like any other, and a variable of that name takes its place:
  then the search starts from the variable, and what it leads to is ordered
  instead of what the template needs.

    • `Apart`                — nothing leads from that name to the new global,
    • `ordersAlike_insertGlobal` — then a template orders the same variables,
                               and
    • `mem_of_leads`         — otherwise it orders the new global, if it orders
                               anything,
    • `undisturbed_iff_apart` — so no rendering is disturbed where each template
                               with a reference is apart, and each one that
                               succeeds is disturbed otherwise.
-/
import Shinran.Render.Interference

namespace Shinran

open DepthFirst (Edge Reaches)

variable [UnicodeTables]

/-! ## §1. One more global in the node map. -/

/-- Neither a form nor unresolved. -/
def Variable.Evaluable (var : Variable) : Prop :=
  var.varType ≠ .form ∧ var.varType ≠ .unresolved

instance (var : Variable) : Decidable var.Evaluable :=
  inferInstanceAs (Decidable (_ ∧ _))

/-- No name that the template needs denotes a global called `name`: a name that belongs to a
local denotes the local. -/
def OutsideClosure (ctx : Context) (template : TextEffect) (name : String) : Prop :=
  Needed template.body template.vars ctx.globalVars name → name ∈ template.vars.map (·.name)

/-- A local of the first name requires the second one, or a global of the first name that no local
hides. -/
def Leads (localVars globalVars : List Variable) (name name' : String) : Prop :=
  ∃ var, var.name = name
    ∧ (var ∈ localVars ∨ (var ∈ globalVars ∧ name ∉ localVars.map (·.name)))
    ∧ Requires localVars var name'

/-- A template with a reference does not get to a global called `name` from `__match_body`: the
name belongs to a local, or it is neither `__match_body` nor what the variables of that name lead
to, if there are any. -/
def Apart (ctx : Context) (template : TextEffect) (name : String) : Prop :=
  VarRegex.isMatch template.body = true →
    Relation.ReflTransGen (Leads template.vars ctx.globalVars) matchBody name →
    name ∈ template.vars.map (·.name)

section
variable {ctx : Context} {var : Variable}

/-- An edge of the node map leads from one name to another, unless it is one of the body's. -/
theorem leads_of_edge {order : HashOrder} {body : String} {localVars globalVars : List Variable}
    (hnodup : (globalVars.map (·.name)).Nodup) {name name' : String}
    (h : Edge (nodeGraph (generateNodes order body localVars globalVars)) name name') :
    Leads localVars globalVars name name'
      ∨ (name = matchBody ∧ ∀ v ∈ localVars ++ globalVars, v.name ≠ matchBody) := by
  by_cases hlocal : name ∈ localVars.map (·.name)
  · obtain ⟨pre, v, post, rfl, rfl, hlast⟩ := exists_last_name hlocal
    rw [edge_iff_of_lookup (lookup_local order body globalVars hlast),
      mem_dependencies_createLocalNode] at h
    refine .inl ⟨v, rfl, .inl (by simp), ?_⟩
    rcases h with hinjected | hlisted | hprevious
    · obtain ⟨hinject, s, hs, hmem⟩ := mem_injectedNames.mp hinjected
      exact .injected hinject hs hmem
    · exact .listed hlisted
    · obtain ⟨before, hbefore, rfl⟩ := Option.map_eq_some_iff.mp hprevious
      obtain ⟨pre', rfl⟩ := List.getLast?_eq_some_iff.mp hbefore
      exact @Requires.previous _ _ _ pre' post before (by simp)
  · have hlook := lookup_generateNodes order body localVars globalVars name
    rw [find?_localVarsNodes_eq_none order hlocal, find?_globalNodes order _ _ hnodup,
      Option.none_or] at hlook
    cases hglobal : globalVars.find? (fun v => v.name = name) with
    | some v =>
        rw [hglobal, Option.map_some, Option.some_or] at hlook
        rw [edge_iff_of_lookup hlook, mem_dependencies_createNodeFromVar] at h
        have hname : v.name = name := by simpa using List.find?_some hglobal
        have hmem : v ∉ localVars := fun hv => hlocal (hname ▸ List.mem_map_of_mem hv)
        exact .inl ⟨v, hname, .inr ⟨List.mem_of_find?_eq_some hglobal, hlocal⟩,
          (requires_global_iff hmem).mpr h⟩
    | none =>
        rw [hglobal, Option.map_none, Option.none_or] at hlook
        by_cases hbody : matchBody = name
        · subst hbody
          refine .inr ⟨rfl, fun v hv hname => ?_⟩
          cases List.mem_append.mp hv with
          | inl hv => exact hlocal (List.mem_map.mpr ⟨v, hv, hname⟩)
          | inr hv => exact List.find?_eq_none.mp hglobal v hv (by simp [hname])
        · rw [if_neg hbody] at hlook
          exact absurd h (not_edge_of_lookup hlook)

/-- What leads from one name to another is an edge of the node map, if no local is hidden by
another one. -/
theorem edge_of_leads {order : HashOrder} {body : String} {localVars globalVars : List Variable}
    (hlocals : (localVars.map (·.name)).Nodup) (hglobals : (globalVars.map (·.name)).Nodup)
    {name name' : String} (h : Leads localVars globalVars name name') :
    Edge (nodeGraph (generateNodes order body localVars globalVars)) name name' := by
  obtain ⟨v, rfl, hv | ⟨hv, hlocal⟩, hrequires⟩ := h
  · obtain ⟨pre, post, rfl⟩ := List.append_of_mem hv
    have hlast : v.name ∉ post.map (·.name) := by
      rw [List.map_append, List.map_cons] at hlocals
      exact (List.nodup_cons.mp (List.nodup_append.mp hlocals).2.1).1
    rw [edge_iff_of_lookup (lookup_local order body globalVars hlast),
      mem_dependencies_createLocalNode, ← requires_iff hlocals]
    exact hrequires
  · have hmem : v ∉ localVars := fun hv => hlocal (List.mem_map_of_mem hv)
    have hlook := lookup_generateNodes order body localVars globalVars v.name
    rw [find?_localVarsNodes_eq_none order hlocal, find?_globalNodes order _ _ hglobals,
      find?_name_eq_some hglobals hv, Option.none_or, Option.map_some, Option.some_or] at hlook
    rw [edge_iff_of_lookup hlook, mem_dependencies_createNodeFromVar,
      ← requires_global_iff hmem]
    exact hrequires

omit [UnicodeTables] in
theorem lookup_insertGlobal {name : String} (h : name ≠ var.name) :
    (ctx.insertGlobal var).globalVarsMap.lookup name = ctx.globalVarsMap.lookup name :=
  AList.lookup_insert_ne h

omit [UnicodeTables] in
theorem mem_globalVars_insertGlobal {v : Variable} (h : v ∈ (ctx.insertGlobal var).globalVars) :
    v = var ∨ v ∈ ctx.globalVars := by
  rw [Context.mem_globalVars] at h ⊢
  by_cases hname : v.name = var.name
  · rw [hname, show (ctx.insertGlobal var).globalVarsMap.lookup var.name = some var from
      AList.lookup_insert _, Option.some.injEq] at h
    exact Or.inl h.symm
  · rw [lookup_insertGlobal hname] at h
    exact Or.inr h

omit [UnicodeTables] in
/-- A name denotes the same variable as before, unless it denotes the new global. -/
theorem resolveName_insertGlobal {localVars : List Variable} {name : String}
    (h : name = var.name → name ∈ localVars.map (·.name)) :
    resolveName localVars (ctx.insertGlobal var).globalVars name
      = resolveName localVars ctx.globalVars name := by
  unfold resolveName
  rw [Context.find?_globalVars, Context.find?_globalVars]
  by_cases hname : name = var.name
  · have hsome : (localVars.find? (fun v => v.name = name)).isSome := by
      simpa [List.find?_isSome] using h hname
    obtain ⟨v, hv⟩ := Option.isSome_iff_exists.mp hsome
    rw [hv, Option.some_or, Option.some_or]
  · rw [lookup_insertGlobal hname]

/-- **An unneeded global changes nothing below the body's node.** -/
theorem sameBelow_insertGlobal {template : TextEffect} (order order' : HashOrder)
    (hlocals : (template.vars.map (·.name)).Nodup)
    (hbody : ∀ v ∈ template.vars ++ ctx.globalVars, v.name ≠ matchBody)
    (hvar : var.name ≠ matchBody) (hout : OutsideClosure ctx template var.name) :
    SameBelow (generateNodes order template.body template.vars ctx.globalVars)
      (generateNodes order' template.body template.vars (ctx.insertGlobal var).globalVars) := by
  have hnames : DistinctNames template.vars ctx.globalVars :=
    ⟨hlocals, ctx.nodup_globalVars, hbody⟩
  have hnames' : DistinctNames template.vars (ctx.insertGlobal var).globalVars := by
    refine ⟨hlocals, (ctx.insertGlobal var).nodup_globalVars, fun v hv => ?_⟩
    cases List.mem_append.mp hv with
    | inl hlocal => exact hbody v (List.mem_append_left _ hlocal)
    | inr hglobal =>
        cases mem_globalVars_insertGlobal hglobal with
        | inl heq => exact heq ▸ hvar
        | inr hold => exact hbody v (List.mem_append_right _ hold)
  have hresolve : ∀ name, Reaches
      (nodeGraph (generateNodes order template.body template.vars ctx.globalVars)) matchBody name →
      resolveName template.vars (ctx.insertGlobal var).globalVars name
        = resolveName template.vars ctx.globalVars name := by
    intro name hname
    refine resolveName_insertGlobal fun heq => ?_
    cases (reaches_matchBody_iff hnames).mp hname with
    | inl hroot => exact absurd (heq.symm.trans hroot) hvar
    | inr hneeded => exact heq ▸ hout (heq ▸ hneeded)
  refine ⟨fun name hname => ⟨?_, fun name' => ?_⟩, fun name hname => ?_⟩
  · rw [isNode_generateNodes hnames, isNode_generateNodes hnames', hresolve name hname]
  · rw [edge_generateNodes_iff hnames, edge_generateNodes_iff hnames']
    unfold DependsOn
    rw [hresolve name hname]
  · rw [variableOf_generateNodes hnames, variableOf_generateNodes hnames', hresolve name hname]

/-- The nodes of all other names are as before, and so is that of a name that belongs to a
local. -/
theorem nodesAgree_insertGlobal {template : TextEffect} (order order' : HashOrder) {name : String}
    (h : name = var.name → name ∈ template.vars.map (·.name)) :
    NodesAgree (generateNodes order template.body template.vars ctx.globalVars)
      (generateNodes order' template.body template.vars (ctx.insertGlobal var).globalVars)
      name := by
  refine nodesAgree_of_find?_eq ctx.nodup_globalVars (ctx.insertGlobal var).nodup_globalVars ?_
  intro hlocal
  rw [Context.find?_globalVars, Context.find?_globalVars,
    lookup_insertGlobal fun heq => hlocal (h heq)]

/-- **Where another variable is in the place of the body's node**, nothing changes below it if it
does not lead to the new global. -/
theorem sameBelow_insertGlobal_of_leads {template : TextEffect} (order order' : HashOrder)
    (hplace : ∃ v ∈ template.vars ++ ctx.globalVars, v.name = matchBody)
    (hapart : Relation.ReflTransGen (Leads template.vars ctx.globalVars) matchBody var.name →
      var.name ∈ template.vars.map (·.name)) :
    SameBelow (generateNodes order template.body template.vars ctx.globalVars)
      (generateNodes order' template.body template.vars (ctx.insertGlobal var).globalVars) := by
  refine sameBelow_of_nodesAgree fun name hname => nodesAgree_insertGlobal order order' ?_
  have hleads : Relation.ReflTransGen (Leads template.vars ctx.globalVars) matchBody name := by
    refine Relation.ReflTransGen.mono (fun a b hedge => ?_) _ _ hname
    refine (leads_of_edge ctx.nodup_globalVars hedge).resolve_right fun hbody => ?_
    obtain ⟨v, hv, hname⟩ := hplace
    exact hbody.2 v hv hname
  intro heq
  rw [heq] at hleads ⊢
  exact hapart hleads

/-- The same templates have an order, of the same variables. -/
theorem ordersAlike_insertGlobal {template : TextEffect} (order order' : HashOrder)
    (hvars : ∀ v ∈ template.vars, v.varType ≠ .unresolved)
    (hmatch : VarRegex.isMatch template.body = true) (hapart : Apart ctx template var.name)
    (hout : OutsideClosure ctx template var.name) :
    OrdersAlike ctx (ctx.insertGlobal var) order order' template
      ∧ OrdersAlike (ctx.insertGlobal var) ctx order' order template := by
  have hlocal : ∀ c : Context, localVariables c template.vars = template.vars := fun _ =>
    localVariables_eq hvars
  unfold OrdersAlike templateOrder
  rw [hlocal, hlocal]
  by_cases hplace : ∃ v ∈ template.vars ++ ctx.globalVars, v.name = matchBody
  · have hsame := sameBelow_insertGlobal_of_leads order order' hplace (hapart hmatch)
    exact ⟨fun vars horder => hsame.exists_order (Nat.le_refl _) horder,
      fun vars horder => hsame.symm.exists_order (Nat.le_refl _) horder⟩
  · -- the body's node is in its place, and stays there
    have hbody : ∀ v ∈ template.vars ++ ctx.globalVars, v.name ≠ matchBody :=
      fun v hv hname => hplace ⟨v, hv, hname⟩
    have hvar : var.name ≠ matchBody := by
      intro heq
      obtain ⟨v, hv, hname⟩ := List.mem_map.mp (hapart hmatch (heq ▸ .refl))
      exact hplace ⟨v, List.mem_append_left _ hv, hname.trans heq⟩
    have hbody' : ∀ v ∈ template.vars ++ (ctx.insertGlobal var).globalVars,
        v.name ≠ matchBody := by
      intro v hv
      cases List.mem_append.mp hv with
      | inl hv => exact hbody v (List.mem_append_left _ hv)
      | inr hv =>
          cases mem_globalVars_insertGlobal hv with
          | inl heq => exact heq ▸ hvar
          | inr hold => exact hbody v (List.mem_append_right _ hold)
    constructor
    · intro vars horder
      have hlocals := (evalOrder_of_ok ctx.nodup_globalVars hbody horder).1.locals
      exact (sameBelow_insertGlobal order order' hlocals hbody hvar hout).exists_order
        (Nat.le_refl _) horder
    · intro vars horder
      have hlocals :=
        (evalOrder_of_ok (ctx.insertGlobal var).nodup_globalVars hbody' horder).1.locals
      exact (sameBelow_insertGlobal order order' hlocals hbody hvar hout).symm.exists_order
        (Nat.le_refl _) horder

/-- **A template that is not apart orders the new global**, if it orders anything. -/
theorem mem_of_leads {template : TextEffect} {order : HashOrder} {vars : List Variable}
    (hlocals : (template.vars.map (·.name)).Nodup)
    (hvars : ∀ v ∈ template.vars, v.varType ≠ .unresolved)
    (hleads : Relation.ReflTransGen (Leads template.vars ctx.globalVars) matchBody var.name)
    (hlocal : var.name ∉ template.vars.map (·.name))
    (h : templateOrder (ctx.insertGlobal var) order template = some (.ok vars)) : var ∈ vars := by
  unfold templateOrder at h
  rw [localVariables_eq hvars] at h
  -- up to its name every edge is one of the new map as well
  have hreach : ∀ name, Relation.ReflTransGen (Leads template.vars ctx.globalVars) matchBody name →
      Reaches (nodeGraph (generateNodes order template.body template.vars
          (ctx.insertGlobal var).globalVars)) matchBody name
        ∨ Reaches (nodeGraph (generateNodes order template.body template.vars
          (ctx.insertGlobal var).globalVars)) matchBody var.name := by
    intro name hname
    induction hname with
    | refl => exact .inl .refl
    | @tail b c _ hbc ih =>
        refine or_iff_not_imp_right.mpr fun hnot => ?_
        have hb := ih.resolve_right hnot
        have hne : b = var.name → b ∈ template.vars.map (·.name) :=
          fun heq => absurd (heq ▸ hb) hnot
        have hedge := @edge_of_leads _ order template.body _ _ hlocals ctx.nodup_globalVars _ _
          hbc
        exact hb.tail (((nodesAgree_insertGlobal order order hne).edge_iff c).mp hedge)
  refine ((scheduled_of_ok h).2 var).mpr ⟨(hreach _ hleads).elim id id, ?_⟩
  unfold variableOf
  rw [lookup_generateNodes, find?_localVarsNodes_eq_none order hlocal,
    find?_globalNodes order _ _ (ctx.insertGlobal var).nodup_globalVars, Context.find?_globalVars,
    show (ctx.insertGlobal var).globalVarsMap.lookup var.name = some var from
      AList.lookup_insert _]
  rfl

end

/-! ## §2. Undisturbed renderings. -/

/-- The two renderings succeed alike, with the same text, and then evaluate the same
variables. -/
structure Undisturbed (ren : Renderer) (ctx ctx' : Context) (style : CasingStyle) (fuel : Nat)
    (orders orders' : RenderOrder) (template : TextEffect) : Prop where
  success : ∀ body, renderTemplate ren ctx style fuel orders template = some (.success body)
    ↔ renderTemplate ren ctx' style fuel orders' template = some (.success body)
  evaluated : ∀ body, renderTemplate ren ctx style fuel orders template = some (.success body) →
    ∀ var, EvaluatedIn ren ctx style fuel orders template var
      ↔ EvaluatedIn ren ctx' style fuel orders' template var

/-- A body without a reference is rendered as it is, in any context. -/
theorem undisturbed_of_verbatim {ren : Renderer} {ctx ctx' : Context} {style : CasingStyle}
    {fuel : Nat} {orders orders' : RenderOrder} {template : TextEffect}
    (hmatch : VarRegex.isMatch template.body ≠ true) :
    Undisturbed ren ctx ctx' style fuel orders orders' template := by
  have hnot : ∀ {c : Context} {orders : RenderOrder} {var : Variable},
      ¬ EvaluatedIn ren c style fuel orders template var := by
    intro c orders var h
    cases h with
    | here hat => exact hmatch hat.1
    | nested hat _ =>
        obtain ⟨_, hat, _⟩ := hat
        exact hmatch hat.1
  refine ⟨fun body => ?_, fun _ _ var => iff_of_false hnot hnot⟩
  cases fuel with
  | zero => simp [renderTemplate]
  | succ fuel => rw [renderTemplate, renderTemplate, if_neg hmatch, if_neg hmatch]

section
variable {ren : Renderer} {ctx : Context} {var : Variable} {style : CasingStyle}

/-- **An unneeded global disturbs nothing** where each template is apart, at any depth. -/
theorem undisturbed_insertGlobal (hren : ren.ScopeFree) (hctx : ctx.AllVars Variable.Evaluable) :
    ∀ (fuel : Nat) (orders orders' : RenderOrder) (template : TextEffect),
      (∀ v ∈ template.vars, v.Evaluable) →
      (∀ t, Renders ren ctx style fuel orders template t → OutsideClosure ctx t var.name) →
      (∀ t, Renders ren ctx style fuel orders template t → Apart ctx t var.name) →
      Undisturbed ren ctx (ctx.insertGlobal var) style fuel orders orders' template
  | 0, _, _, _, _, _, _ => ⟨by simp [renderTemplate], by simp [renderTemplate]⟩
  | fuel + 1, orders, orders', template, hvars, hout, hapart => by
      by_cases hmatch : VarRegex.isMatch template.body = true
      swap
      · exact undisturbed_of_verbatim hmatch
      obtain ⟨halike, halike'⟩ := ordersAlike_insertGlobal (orders []) (orders' [])
        (fun v hv => (hvars v hv).2) hmatch (hapart template .self) (hout template .self)
      have hform : FormFree ctx (orders []) template :=
        formFree_of_forall (fun v hv => (hctx.1 v hv).1) fun v hv => (hvars v hv).1
      have hform' : FormFree (ctx.insertGlobal var) (orders' []) template := by
        intro vars horder v hv
        obtain ⟨vars', horder', hmem⟩ := halike' vars horder
        exact hform vars' horder' v ((hmem v).mp hv)
      -- the nested matches that the first rendering gets to are undisturbed
      have ih : ∀ index index' sub, NestedAt ren ctx style fuel orders template index sub →
          Undisturbed ren ctx (ctx.insertGlobal var) style fuel (orders.nested index)
            (orders'.nested index') sub := by
        intro index index' sub hnested
        refine undisturbed_insertGlobal hren hctx fuel _ _ sub ?_
          (fun t ht => hout t (.nested hnested ht)) fun t ht => hapart t (.nested hnested ht)
        obtain ⟨v, _, _, hsub⟩ := hnested
        exact hctx.subTemplate hsub
      have hmatches : ctx.matchesMap = (ctx.insertGlobal var).matchesMap := rfl
      have hsuccess : ∀ body,
          renderTemplate ren ctx style (fuel + 1) orders template = some (.success body)
            ↔ renderTemplate ren (ctx.insertGlobal var) style (fuel + 1) orders' template
              = some (.success body) := by
        intro body
        constructor
        · refine renderTemplate_agree hren hmatches halike hform ?_
          intro index index' sub hnested _ body'
          exact ((ih index index' sub hnested).success body').mp
        · refine renderTemplate_agree hren hmatches.symm halike' hform' ?_
          intro index' index sub _ hnested body'
          exact ((ih index index' sub hnested).success body').mpr
      refine ⟨hsuccess, ?_⟩
      intro body hbody v
      have hbody' := (hsuccess body).mp hbody
      -- a nested match that the first rendering gets to has succeeded, so the two agree on it
      have hnested : ∀ index index' sub, NestedAt ren ctx style fuel orders template index sub →
          ∀ w, EvaluatedIn ren ctx style fuel (orders.nested index) sub w
            ↔ EvaluatedIn ren (ctx.insertGlobal var) style fuel (orders'.nested index') sub w := by
        intro index index' sub hat w
        obtain ⟨body', hsub⟩ := exists_nested_success (fun _ => hform) hbody hat
        exact (ih index index' sub hat).evaluated body' hsub w
      constructor
      · refine evaluatedIn_of_alike halike hform hform' hmatches hbody hbody' ?_
        intro index index' sub hat _ w
        exact (hnested index index' sub hat w).mp
      · refine evaluatedIn_of_alike halike' hform' hform hmatches.symm hbody' hbody ?_
        intro index' index sub _ hat w
        exact (hnested index index' sub hat w).mpr

/-! ## §3. A template that is not apart. -/

/-- What a rendering evaluates is a variable of the context or of the template. -/
theorem EvaluatedIn.all {p : Variable → Prop} (hctx : ctx.AllVars p) {fuel : Nat}
    {orders : RenderOrder} {template : TextEffect} (hvars : ∀ v ∈ template.vars, p v)
    (h : EvaluatedIn ren ctx style fuel orders template var) : p var := by
  induction h with
  | here hat =>
      obtain ⟨_, pre, post, _, horder, _⟩ := hat
      exact (mem_of_templateOrder horder (by simp)).elim (hvars _) (hctx.1 _)
  | nested hat _ ih =>
      obtain ⟨_, _, _, hsub⟩ := hat
      exact ih (hctx.subTemplate hsub)

/-- A template that orders the new global, and renders, has evaluated it. -/
theorem apart_of_not_evaluatedIn {fuel : Nat} {orders : RenderOrder} {template : TextEffect}
    {body : String} (hglobal : var.Evaluable) (hctx : ∀ v ∈ ctx.globalVars, v.Evaluable)
    (hvars : ∀ v ∈ template.vars, v.Evaluable) (hlocals : (template.vars.map (·.name)).Nodup)
    (h : renderTemplate ren (ctx.insertGlobal var) style (fuel + 1) orders template
      = some (.success body))
    (hnot : ¬ EvaluatedIn ren (ctx.insertGlobal var) style (fuel + 1) orders template var) :
    Apart ctx template var.name := by
  intro hmatch hleads
  by_contra hlocal
  have hform : FormFree (ctx.insertGlobal var) (orders []) template := by
    refine formFree_of_forall (fun v hv => ?_) fun v hv => (hvars v hv).1
    cases mem_globalVars_insertGlobal hv with
    | inl heq => exact heq ▸ hglobal.1
    | inr hold => exact (hctx v hold).1
  rcases renderTemplate_eq_success (fun _ => hform) h with
    ⟨hverbatim, _⟩ | ⟨_, vars, _, _, horder, _⟩
  · rw [hverbatim] at hmatch
    cases hmatch
  · have hmem := mem_of_leads hlocals (fun v hv => (hvars v hv).2) hleads hlocal horder
    obtain ⟨index, hat⟩ :=
      (exists_evaluatesAt_iff (fun _ => hform) h).mpr ⟨hmatch, vars, horder, hmem⟩
    exact hnot (.here hat)

/-- **Renderings that succeed without evaluating the new global** render templates that are
apart. -/
theorem apart_of_renders (hglobal : var.Evaluable) (hctx : ctx.AllVars Variable.Evaluable)
    {fuel : Nat} {orders orders' : RenderOrder} {template t : TextEffect} {body body' : String}
    (hrenders : Renders ren ctx style fuel orders template t)
    (hvars : ∀ v ∈ template.vars, v.Evaluable)
    (hout : ∀ t, Renders ren ctx style fuel orders template t → OutsideClosure ctx t var.name)
    (hlocals : ∀ t, Renders ren ctx style fuel orders template t → (t.vars.map (·.name)).Nodup)
    (h : renderTemplate ren ctx style fuel orders template = some (.success body))
    (h' : renderTemplate ren (ctx.insertGlobal var) style fuel orders' template
      = some (.success body'))
    (hnot : ¬ EvaluatedIn ren (ctx.insertGlobal var) style fuel orders' template var) :
    Apart ctx t var.name := by
  induction hrenders generalizing orders' body body' with
  | @self fuel orders template =>
      cases fuel with
      | zero => simp [renderTemplate] at h
      | succ fuel =>
          exact apart_of_not_evaluatedIn hglobal hctx.1 hvars (hlocals _ .self) h' hnot
  | @nested fuel orders template sub t index hat hinner ih =>
      obtain ⟨caller, hcaller, htype, hsub⟩ := hat
      have hmatch := hcaller.1
      have hapart := apart_of_not_evaluatedIn hglobal hctx.1 hvars (hlocals _ .self) h' hnot
      obtain ⟨halike, halike'⟩ := ordersAlike_insertGlobal (orders []) (orders' [])
        (fun v hv => (hvars v hv).2) hmatch hapart (hout template .self)
      have hform : FormFree ctx (orders []) template :=
        formFree_of_forall (fun v hv => (hctx.1 v hv).1) fun v hv => (hvars v hv).1
      have hform' : FormFree (ctx.insertGlobal var) (orders' []) template := by
        intro vars horder v hv
        obtain ⟨vars', horder', hmem⟩ := halike' vars horder
        exact hform vars' horder' v ((hmem v).mp hv)
      -- the template is apart, so the second rendering gets to the same nested match
      obtain ⟨index', hcaller'⟩ := evaluatesAt_of_alike halike hform hform' h h' hcaller
      have hat' : NestedAt ren (ctx.insertGlobal var) style fuel orders' template index' sub :=
        ⟨caller, hcaller', htype, hsub⟩
      obtain ⟨_, hinner⟩ := exists_nested_success (fun _ => hform) h ⟨caller, hcaller, htype, hsub⟩
      obtain ⟨_, hinner'⟩ := exists_nested_success (fun _ => hform') h' hat'
      exact ih (hctx.subTemplate hsub)
        (fun t ht => hout t (.nested ⟨caller, hcaller, htype, hsub⟩ ht))
        (fun t ht => hlocals t (.nested ⟨caller, hcaller, htype, hsub⟩ ht)) hinner hinner'
        fun heval => hnot (.nested hat' heval)

/-- **When an unneeded global disturbs nothing.**  Let neither a template nor the context ask for a
form or for something unresolved, and let no template that is rendered need the new global.  Then
the global disturbs nothing where every template that is rendered is apart from it.  If the
rendering succeeds, and the global is not one of the variables that there are already, this is also
necessary. -/
theorem undisturbed_iff_apart {orders orders' : RenderOrder} {fuel : Nat} {template : TextEffect}
    (hren : ren.ScopeFree) (hctx : ctx.AllVars Variable.Evaluable)
    (hvars : ∀ v ∈ template.vars, v.Evaluable)
    (hout : ∀ t, Renders ren ctx style fuel orders template t → OutsideClosure ctx t var.name) :
    ((∀ t, Renders ren ctx style fuel orders template t → Apart ctx t var.name) →
        Undisturbed ren ctx (ctx.insertGlobal var) style fuel orders orders' template)
      ∧ ((∃ body, renderTemplate ren ctx style fuel orders template = some (.success body)) →
        var.Evaluable → ctx.AllVars (· ≠ var) → (∀ v ∈ template.vars, v ≠ var) →
        (∀ t, Renders ren ctx style fuel orders template t → (t.vars.map (·.name)).Nodup) →
        (Undisturbed ren ctx (ctx.insertGlobal var) style fuel orders orders' template
          ↔ ∀ t, Renders ren ctx style fuel orders template t → Apart ctx t var.name)) := by
  have henough := @undisturbed_insertGlobal _ ren ctx var style hren hctx fuel orders orders' template
    hvars hout
  refine ⟨henough, fun hsuccess hglobal hnew hnew' hlocals => ⟨fun h t ht => ?_, henough⟩⟩
  obtain ⟨body, hbody⟩ := hsuccess
  refine apart_of_renders hglobal hctx ht hvars hout hlocals hbody ((h.success body).mp hbody) ?_
  -- the new global would have been evaluated before it was there
  intro heval
  exact ((h.evaluated body hbody var).mpr heval).all hnew hnew' rfl

end

/-! ## §4. A global with the name of the body's node. -/

/-- The body `{{x}}`, with `x` a local that reads nothing. -/
def readX : TextEffect :=
  { body := "\x7b\x7bx\x7d\x7d", vars := [{ name := "x", varType := .mock, injectVars := false }] }

omit [UnicodeTables] in
/-- In the empty context the order is the local alone. -/
theorem templateOrder_readX :
    @templateOrder .ascii Context.default .canonical readX = some (.ok readX.vars) := rfl

omit [UnicodeTables] in
/-- Nothing else is rendered. -/
theorem renders_readX {fuel : Nat} {t : TextEffect}
    (h : @Renders .ascii (.answering "v") Context.default .none fuel (fun _ => .canonical) readX t) :
    t = readX := by
  cases h with
  | self => rfl
  | nested hat _ =>
      obtain ⟨var, ⟨_, pre, post, _, horder, _⟩, htype, _⟩ := hat
      rw [templateOrder_readX, Option.some.injEq, Except.ok.injEq] at horder
      have hvar : var ∈ readX.vars := by simp [horder]
      rw [List.mem_singleton.mp hvar] at htype
      cases htype

omit [UnicodeTables] in
/-- The template needs its local and nothing else. -/
theorem eq_of_needed_readX {name : String}
    (h : @Needed .ascii readX.body readX.vars Context.default.globalVars name) : name = "x" := by
  obtain ⟨first, hfirst, hreach⟩ := h
  have hx : first = "x" := by
    cases hfirst with
    | inl hlocal => exact List.mem_singleton.mp hlocal
    | inr hbody => exact List.mem_singleton.mp hbody
  subst hx
  cases Relation.ReflTransGen.cases_head hreach with
  | inl heq => exact heq.symm
  | inr hstep =>
      obtain ⟨next, ⟨var, hvar, hrequires⟩, _⟩ := hstep
      obtain rfl : readX.vars.head (by decide) = var := by simpa [resolveName, readX] using hvar
      -- its params are not read, nothing is listed, and no local comes before it
      cases hrequires with
      | listed h => cases h
      | injected h => cases h
      | @previous pre post before h =>
          have hlength := congrArg List.length h
          simp [readX] at hlength
          omega

omit [UnicodeTables] in
/-- Nothing is called like the body's node. -/
theorem not_leads_readX {name : String} :
    ¬ @Leads .ascii readX.vars Context.default.globalVars matchBody name := by
  rintro ⟨var, hname, hvar | ⟨hvar, _⟩, _⟩
  · rw [List.mem_singleton.mp hvar] at hname
    exact absurd hname (by decide)
  · cases hvar

omit [UnicodeTables] in
theorem outsideClosure_readX {name : String} (hname : name ≠ "x") {fuel : Nat} {t : TextEffect}
    (h : @Renders .ascii (.answering "v") Context.default .none fuel (fun _ => .canonical) readX t) :
    @OutsideClosure .ascii Context.default t name := by
  rw [renders_readX h]
  exact fun hneeded => absurd (eq_of_needed_readX hneeded) hname

omit [UnicodeTables] in
/-- A global called `now` leaves the template alone, one called `__match_body` does not. -/
theorem undisturbed_iff_apart_now :
    @Undisturbed .ascii (.answering "v") Context.default
        (Context.default.insertGlobal { name := "now", varType := .date }) .none 1
        (fun _ => .canonical) (fun _ => .canonical) readX
      ∧ ¬ @Undisturbed .ascii (.answering "v") Context.default
        (Context.default.insertGlobal { name := "__match_body", varType := .echo }) .none 1
        (fun _ => .canonical) (fun _ => .canonical) readX := by
  have hren : (Renderer.answering "v").ScopeFree :=
    ⟨fun _ _ _ => rfl, fun _ _ _ => rfl, fun _ _ _ => rfl, fun _ _ _ => rfl, fun _ _ _ => rfl,
      fun _ _ _ => rfl⟩
  obtain ⟨hnow, _⟩ := @undisturbed_iff_apart .ascii (.answering "v") Context.default
    { name := "now", varType := .date } .none (fun _ => .canonical) (fun _ => .canonical) 1 readX
    hren (allVars_default _) (by decide) fun _ => outsideClosure_readX (by decide)
  obtain ⟨_, hbody⟩ := @undisturbed_iff_apart .ascii (.answering "v") Context.default
    { name := "__match_body", varType := .echo } .none (fun _ => .canonical) (fun _ => .canonical) 1
    readX hren (allVars_default _) (by decide) fun _ => outsideClosure_readX (by decide)
  constructor
  · refine hnow fun t ht _ hleads => ?_
    rw [renders_readX ht] at hleads
    cases Relation.ReflTransGen.cases_head hleads with
    | inl heq => exact absurd heq (by decide)
    | inr hstep =>
        obtain ⟨_, hstep, _⟩ := hstep
        exact absurd hstep not_leads_readX
  · intro h
    have hnew : ∀ v ∈ readX.vars, v ≠ { name := "__match_body", varType := .echo } := by
      intro v hv heq
      rw [List.mem_singleton.mp hv] at heq
      exact absurd (congrArg (·.name) heq) (by decide)
    have hapart := (hbody ⟨"v", by decide⟩ (by decide) (allVars_default _) hnew
      fun t ht => renders_readX ht ▸ by decide).mp h readX (@Renders.self .ascii _ _ _ _ _ _)
    exact absurd (hapart (by decide) .refl) (by decide)

omit [UnicodeTables] in
/-- **An unneeded global that breaks a template.**  The template `{{x}}` has its own `x`; after
a global `__match_body` has been added, no matter where, only that global is evaluated. -/
theorem matchBody_disturbs :
    (∀ t, @Renders .ascii (.answering "v") Context.default .none 1 (fun _ => .canonical) readX t →
        @OutsideClosure .ascii Context.default t "__match_body")
      ∧ @renderTemplate .ascii (.answering "v") Context.default .none 1 (fun _ => .canonical) readX
        = some (.success "v")
      ∧ @renderTemplate .ascii (.answering "v")
          (Context.default.insertGlobal { name := "__match_body", varType := .echo }) .none 1
          (fun _ => .canonical) readX
        = some (.error (.renderer (.missingVariable "variable 'x' is missing"))) :=
  ⟨fun _ => outsideClosure_readX (by decide), by decide, by decide⟩

end Shinran
