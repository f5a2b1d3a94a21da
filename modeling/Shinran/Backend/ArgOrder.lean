/-
  Shinran.Backend.ArgOrder
  ────────────────────────
  **THE ORDER OF THE CAPTURED ARGUMENTS** (`render`).

  The captured groups of a regex match come out of a hash map, in any order,
  and each is put in front of the variables of the text.  As every local
  depends on the one before it, the order changes the node map.  It changes
  the chain of the arguments only: they read nothing, and everything behind
  them still waits for all of them.

    • `reordered_generateNodes` — the two node maps differ in that chain only,
    • `exists_order_of_perm`    — so they order the same variables,
    • `render_arg_order`        — and the renderings have the same text.
-/
import Shinran.Backend.Adapter
import Shinran.Render.Interference

namespace Shinran

open DepthFirst (Edge Reaches Resolvable TopoOrder)

/-! ## §1. Variables that read nothing, in front of the others. -/

/-- Neither a form nor unresolved, and not under the name of the body's node. -/
def Variable.Ordinary (var : Variable) : Prop :=
  var.varType ≠ .form ∧ var.varType ≠ .unresolved ∧ var.name ≠ matchBody

instance (var : Variable) : Decidable var.Ordinary :=
  inferInstanceAs (Decidable (_ ∧ _ ∧ _))

theorem ne_matchBody_of_ordinary {vars globalVars : List Variable}
    (hglobals : ∀ v ∈ globalVars, v.name ≠ matchBody) (hvars : ∀ v ∈ vars, v.Ordinary) :
    ∀ v ∈ vars ++ globalVars, v.name ≠ matchBody := by
  intro v hv
  cases List.mem_append.mp hv with
  | inl hlocal => exact (hvars v hlocal).2.2
  | inr hglobal => exact hglobals v hglobal

/-- It reads no other variable. -/
def Variable.Inert (var : Variable) : Prop := var.injectVars = false ∧ var.dependsOn = []

/-- The variable for a captured group. -/
def argVariable (name value : String) : Variable :=
  { name := name, varType := .echo, params := [("echo", .string value)], injectVars := false }

theorem inert_argVariable (name value : String) : (argVariable name value).Inert := ⟨rfl, rfl⟩

section
variable [UnicodeTables]

variable {args args' vars globalVars : List Variable}

/-- Behind the arguments nothing changes but the name before the first variable. -/
theorem requires_append {var : Variable} {name : String} (hname : name ∉ args.map (·.name))
    (h : Requires (args ++ vars) var name) : Requires (args' ++ vars) var name := by
  cases h with
  | listed h => exact .listed h
  | injected hinject hs hmem => exact .injected hinject hs hmem
  | @previous pre post before heq =>
      rcases List.append_eq_append_iff.mp heq with ⟨as, _, hvars⟩ | ⟨bs, hargs, hcons⟩
      · exact @Requires.previous _ _ _ (args' ++ as) post before (by rw [hvars, List.append_assoc])
      · cases bs with
        | nil => exact @Requires.previous _ _ _ args' post before (by rw [hcons, List.nil_append])
        | cons b bs =>
            obtain ⟨rfl, _⟩ := List.cons.inj hcons
            exact absurd (List.mem_map.mpr ⟨before, by simp [hargs], rfl⟩) hname

omit [UnicodeTables] in
theorem distinctNames_perm (hperm : args.Perm args')
    (hnames : DistinctNames (args ++ vars) globalVars) :
    DistinctNames (args' ++ vars) globalVars := by
  have hlocals : (args ++ vars).Perm (args' ++ vars) := hperm.append_right vars
  refine ⟨(hlocals.map _).nodup_iff.mp hnames.locals, hnames.globals, fun var hvar => ?_⟩
  exact hnames.notBody var ((hlocals.append_right globalVars).mem_iff.mpr hvar)

omit [UnicodeTables] in
/-- With distinct names, no name changes its meaning. -/
theorem resolveName_perm {localVars localVars' : List Variable}
    (hperm : localVars.Perm localVars') (hnodup : (localVars.map (·.name)).Nodup)
    (name : String) :
    resolveName localVars globalVars name = resolveName localVars' globalVars name := by
  have hnodup' : (localVars'.map (·.name)).Nodup := (hperm.map _).nodup_iff.mp hnodup
  by_cases hname : name ∈ localVars.map (·.name)
  · obtain ⟨var, hvar, rfl⟩ := List.mem_map.mp hname
    rw [resolveName_local globalVars hnodup hvar,
      resolveName_local globalVars hnodup' (hperm.mem_iff.mp hvar)]
  · have hname' : name ∉ localVars'.map (·.name) := fun h => hname ((hperm.map _).mem_iff.mpr h)
    rw [resolveName, resolveName, find?_name_eq_none hname, find?_name_eq_none hname']

/-- The arguments are a chain that leads nowhere else. -/
theorem topoOrder_args (order : HashOrder) (body : String)
    (hnames : DistinctNames (args ++ vars) globalVars) (hargs : ∀ var ∈ args, var.Inert) :
    TopoOrder (nodeGraph (generateNodes order body (args ++ vars) globalVars))
      (args.map (·.name)) := by
  intro npre name npost heq
  obtain ⟨pre, rest, rfl, rfl, hrest⟩ := List.map_eq_append_iff.mp heq
  obtain ⟨var, post, rfl, rfl, _⟩ := List.map_eq_cons_iff.mp hrest
  have hvar : resolveName ((pre ++ var :: post) ++ vars) globalVars var.name = some var :=
    resolveName_local globalVars hnames.locals (by simp)
  refine ⟨(isNode_generateNodes hnames _).mpr (Or.inr (by rw [hvar]; rfl)), fun name' hedge => ?_⟩
  cases (edge_generateNodes_iff hnames).mp hedge with
  | inl hbody => exact absurd hbody.1 (hnames.notBody var (by simp))
  | inr hdep =>
      obtain ⟨var', hvar', hrequires⟩ := hdep
      obtain rfl : var = var' := Option.some.inj (hvar.symm.trans hvar')
      -- an argument requires the one before it
      have hlocals := hnames.locals
      rw [List.append_assoc, List.cons_append] at hlocals hrequires
      rcases (requires_iff hlocals).mp hrequires with h | h | h
      · simp [injectedNames, (hargs var (by simp)).1] at h
      · simp [(hargs var (by simp)).2] at h
      · obtain ⟨before, hlast, rfl⟩ := Option.map_eq_some_iff.mp h
        exact List.mem_map_of_mem (List.mem_of_getLast? hlast)

/-- **The node maps differ in the chain of the arguments only.** -/
theorem reordered_generateNodes (order order' : HashOrder) (body : String)
    (hperm : args.Perm args') (hargs : ∀ var ∈ args, var.Inert)
    (hnames : DistinctNames (args ++ vars) globalVars) :
    DepthFirst.Reordered (nodeGraph (generateNodes order body (args ++ vars) globalVars))
      (nodeGraph (generateNodes order' body (args' ++ vars) globalVars)) matchBody
      (args.map (·.name)) (args'.map (·.name)) := by
  have hnames' := distinctNames_perm hperm hnames
  have hargs' : ∀ var ∈ args', var.Inert := fun var hvar => hargs var (hperm.mem_iff.mpr hvar)
  have hlocals : (args ++ vars).Perm (args' ++ vars) := hperm.append_right vars
  have hmem : ∀ name, name ∈ args.map (·.name) ↔ name ∈ args'.map (·.name) := fun _ =>
    (hperm.map _).mem_iff
  have hresolve := fun name => @resolveName_perm globalVars _ _ hlocals hnames.locals name
  have hreaches : ∀ (order : HashOrder) {as : List Variable},
      DistinctNames (as ++ vars) globalVars → ∀ name ∈ as.map (·.name),
      Reaches (nodeGraph (generateNodes order body (as ++ vars) globalVars)) matchBody name := by
    intro order as hdistinct name hname
    obtain ⟨var, hvar, rfl⟩ := List.mem_map.mp hname
    exact reaches_local hdistinct.notBody (List.mem_append_left _ hvar)
  refine ⟨topoOrder_args order body hnames hargs, topoOrder_args order' body hnames' hargs', ?_, ?_,
    hmem, hreaches order hnames, hreaches order' hnames', fun name _ => ?_, ?_⟩
  · exact (List.map_append ▸ hnames.locals).of_append_left
  · exact (List.map_append ▸ hnames'.locals).of_append_left
  · rw [isNode_generateNodes hnames, isNode_generateNodes hnames', hresolve]
  · intro name name' _ hname'
    have hname'' : name' ∉ args'.map (·.name) := fun h => hname' ((hmem name').mpr h)
    rw [edge_generateNodes_iff hnames, edge_generateNodes_iff hnames']
    unfold BodyDependsOn DependsOn
    rw [hresolve, (hlocals.map (·.name)).mem_iff]
    -- past the chain a variable requires the same names
    have hrequires : ∀ var, Requires (args ++ vars) var name'
        ↔ Requires (args' ++ vars) var name' := fun _ =>
      ⟨requires_append hname', requires_append hname''⟩
    simp only [hrequires]

/-- **Whatever their order, the same variables are evaluated.** -/
theorem exists_order_of_perm {order order' : HashOrder} {fuel fuel' : Nat} {body : String}
    {ordered : List Variable} (hperm : args.Perm args') (hargs : ∀ var ∈ args, var.Inert)
    (hglobals : (globalVars.map (·.name)).Nodup)
    (hbody : ∀ var ∈ (args ++ vars) ++ globalVars, var.name ≠ matchBody)
    (hfuel : resolutionFuel (args' ++ vars) globalVars ≤ fuel')
    (h : resolveEvaluationOrder order fuel body (args ++ vars) globalVars = some (.ok ordered)) :
    ∃ ordered', resolveEvaluationOrder order' fuel' body (args' ++ vars) globalVars
        = some (.ok ordered')
      ∧ ∀ var, var ∈ ordered ↔ var ∈ ordered' := by
  obtain ⟨names, horder, _⟩ := resolveEvaluationOrder_ok h
  -- an argument with the name of another local would lie on a cycle
  have hnames : DistinctNames (args ++ vars) globalVars :=
    ⟨nodup_of_resolvable hbody horder.resolvable, hglobals, hbody⟩
  have hnames' := distinctNames_perm hperm hnames
  have hreordered := reordered_generateNodes order order' body hperm hargs hnames
  have hresolve := @resolveName_perm globalVars _ _ (hperm.append_right vars) hnames.locals
  rcases resolveEvaluationOrder_spec order' body hfuel with
    ⟨_, _, heq⟩ | ⟨_, hnot, _⟩
  · refine ⟨_, heq, fun var => ?_⟩
    rw [(scheduled_of_ok h).2, (scheduled_of_ok heq).2, hreordered.reaches_iff,
      variableOf_generateNodes hnames, variableOf_generateNodes hnames', hresolve]
  · exact absurd (hreordered.resolvable horder.resolvable) hnot

/-! ## §2. The rendering. -/

/-- The text effect with the arguments in front. -/
def TextEffect.withArgs (effect : TextEffect) (args : List Variable) : TextEffect :=
  { effect with vars := args ++ effect.vars }

omit [UnicodeTables] in
theorem augment_eq (argOrder : ArgOrder) (triggerVars : HashMap String String)
    (effect : TextEffect) :
    augment argOrder triggerVars effect = effect.withArgs
      ((argOrder.iter (triggerVars.entries.map fun entry => (entry.1, entry.2))).map
        fun entry => argVariable entry.1 entry.2).reverse := by
  have hfold : ∀ (entries : List (String × String)) (vars : List Variable),
      entries.foldl (fun vars entry => argVariable entry.1 entry.2 :: vars) vars
        = (entries.map fun entry => argVariable entry.1 entry.2).reverse ++ vars := by
    intro entries
    induction entries with
    | nil => intro vars; rfl
    | cons entry entries ih =>
        intro vars
        rw [List.foldl_cons, ih, List.map_cons, List.reverse_cons, List.append_assoc]
        rfl
  exact congrArg (fun vars => { effect with vars := vars }) (hfold _ _)

variable {ren : Renderer} {ctx : Context} {style : CasingStyle} {effect : TextEffect}

/-- **What renders with the arguments in one order does so in any other.** -/
theorem renderTemplate_withArgs (hren : ren.ScopeFree) (hctx : ctx.AllVars Variable.Ordinary)
    (hvars : ∀ var ∈ effect.vars, var.Ordinary) (hperm : args.Perm args')
    (hargs : ∀ var ∈ args, var.Inert ∧ var.Ordinary) {fuel : Nat} {orders orders' : RenderOrder}
    {body : String}
    (h : renderTemplate ren ctx style fuel orders (effect.withArgs args) = some (.success body)) :
    renderTemplate ren ctx style fuel orders' (effect.withArgs args') = some (.success body) := by
  cases fuel with
  | zero => simp [renderTemplate] at h
  | succ fuel =>
      have hall : ∀ var ∈ args ++ effect.vars, var.Ordinary := fun var hvar =>
        (List.mem_append.mp hvar).elim (fun harg => (hargs var harg).2) (hvars var)
      have hall' : ∀ var ∈ args' ++ effect.vars, var.Ordinary := fun var hvar =>
        hall var ((hperm.append_right _).mem_iff.mpr hvar)
      have hform : ctx.AllVars (fun var => var.varType ≠ .form) :=
        ⟨fun var hvar => (hctx.1 var hvar).1, fun trigger m sub hm heffect var hvar =>
          (hctx.2 trigger m sub hm heffect var hvar).1⟩
      have hfree : FormFree ctx (orders []) (effect.withArgs args) :=
        formFree_of_forall hform.1 fun var hvar => (hall var hvar).1
      have hbodies : (effect.withArgs args).body = (effect.withArgs args').body := rfl
      refine renderTemplate_agree_of_orders hren rfl hbodies ?_ hfree ?_ h
      · intro vars horder
        unfold templateOrder TextEffect.withArgs at horder ⊢
        rw [localVariables_eq fun var hvar => (hall var hvar).2.1] at horder
        rw [localVariables_eq fun var hvar => (hall' var hvar).2.1]
        exact exists_order_of_perm hperm (fun var hvar => (hargs var hvar).1) ctx.nodup_globalVars
          (ne_matchBody_of_ordinary (fun var hvar => (hctx.1 var hvar).2.2) hall)
          (Nat.le_refl _) horder
      · -- a nested match is the same under both
        intro index index' sub hnested _ body hbody
        obtain ⟨var, _, _, hsub⟩ := hnested
        exact renderTemplate_order_independent hren hform rfl (List.Perm.refl _) style fuel _ _ sub
          (hform.subTemplate hsub) body hbody

end

section
variable [CaseTables]

/-- What is rendered for a regex match does not depend on the typed text. -/
theorem prepareRender_regex {m : RegexMatch} {effect : TextEffect}
    (heffect : m.baseMatch.effect = .text effect) (argOrder : ArgOrder) (trigger : Option String)
    (args : HashMap String String) :
    prepareRender argOrder (.regex m) trigger args = .ok (augment argOrder args effect, .none) := by
  unfold prepareRender
  simp only [bind, Except.bind, heffect]
  cases trigger <;> rfl

/-- **The order of the captured arguments does not matter.**  A regex match with a text effect
expands to the same text under all iteration orders of its arguments and of the hash sets, or
fails under all of them. -/
theorem RendererAdapter.render_arg_order (adapter : RendererAdapter)
    (hren : adapter.runtime.renderer.ScopeFree)
    (hctx : adapter.context.AllVars Variable.Ordinary) (m : RegexMatch) (effect : TextEffect)
    (heffect : m.baseMatch.effect = .text effect) (hvars : ∀ var ∈ effect.vars, var.Ordinary)
    (trigger : Option String) (args : HashMap String String)
    (hargs : ∀ name ∈ args.keys, name ≠ matchBody) (fuel : Nat) (orders orders' : RenderOrder)
    (argOrder argOrder' : ArgOrder) :
    (∃ body, adapter.render fuel orders argOrder (.regex m) trigger args = .ok body
        ∧ adapter.render fuel orders' argOrder' (.regex m) trigger args = .ok body)
      ∨ ∃ err err', adapter.render fuel orders argOrder (.regex m) trigger args = .error err
        ∧ adapter.render fuel orders' argOrder' (.regex m) trigger args = .error err' := by
  -- what succeeds under one choice succeeds under any other
  have hone : ∀ {orders orders' : RenderOrder} {argOrder argOrder' : ArgOrder} {body : String},
      adapter.render fuel orders argOrder (.regex m) trigger args = .ok body →
      adapter.render fuel orders' argOrder' (.regex m) trigger args = .ok body := by
    intro orders orders' argOrder argOrder' body h
    unfold render at h ⊢
    rw [prepareRender_regex heffect, augment_eq] at h ⊢
    refine outcome_eq_ok.mpr (renderTemplate_withArgs hren hctx hvars ?_ ?_ (outcome_eq_ok.mp h))
    · refine (List.reverse_perm _).trans (.trans ?_ (List.reverse_perm _).symm)
      exact ((argOrder.perm _).trans (argOrder'.perm _).symm).map _
    · intro var hvar
      obtain ⟨entry, hentry, rfl⟩ := List.mem_map.mp (List.mem_reverse.mp hvar)
      obtain ⟨e, he, rfl⟩ := List.mem_map.mp ((argOrder.perm _).mem_iff.mp hentry)
      exact ⟨inert_argVariable _ _, by simp [argVariable], by simp [argVariable],
        hargs e.1 (List.mem_map_of_mem he)⟩
  cases hrender : adapter.render fuel orders argOrder (.regex m) trigger args with
  | ok body => exact Or.inl ⟨body, rfl, hone hrender⟩
  | error err =>
      cases hrender' : adapter.render fuel orders' argOrder' (.regex m) trigger args with
      | ok body =>
          have hbody : adapter.render fuel orders argOrder (.regex m) trigger args = .ok body :=
            hone hrender'
          rw [hrender] at hbody
          cases hbody
      | error err' => exact Or.inr ⟨err, err', rfl, rfl⟩

end

/-- Two captured groups, read in the body. -/
theorem RendererAdapter.render_arg_order_pair :
    let echo : Extension := fun _ params =>
      match params.get "echo" with
      | some (.string s) => .success (.single s)
      | _ => .aborted
    let adapter : RendererAdapter := .ofCollection ⟨⟨fun _ => true, fun _ _ => false, fun _ => [],
      fun _ _ => none⟩, (·.length), true, ⟨echo, echo, echo, echo, echo, echo⟩⟩ 0 ⟨[], [], []⟩
    let effect : TextEffect := { body := "\x7b\x7ba\x7d\x7d, \x7b\x7bb\x7d\x7d" }
    let args : HashMap String String := (AList.insert "a" "1" ∅).insert "b" "2"
    @RendererAdapter.render .ascii adapter 1 (fun _ => .canonical) ⟨List.reverse, List.reverse_perm⟩
      (.regex { baseMatch := { effect := .text effect }, regex := "" }) none args
        = .ok "1, 2" := by
  intro echo adapter effect args
  have hlookup : ∀ trigger, adapter.context.matchesMap.lookup trigger = none := fun _ => rfl
  have hsome : @RendererAdapter.render .ascii adapter 1 (fun _ => .canonical) .canonical
      (.regex { baseMatch := { effect := .text effect }, regex := "" }) none args
        = .ok "1, 2" := by decide
  rcases @RendererAdapter.render_arg_order .ascii adapter
    ⟨fun _ _ _ => rfl, fun _ _ _ => rfl, fun _ _ _ => rfl, fun _ _ _ => rfl, fun _ _ _ => rfl,
      fun _ _ _ => rfl⟩ ⟨by decide, fun trigger m sub h => by simp [hlookup] at h⟩
    { baseMatch := { effect := .text effect }, regex := "" } effect rfl (by decide) none args
    (by decide) 1 (fun _ => .canonical) (fun _ => .canonical) .canonical
    ⟨List.reverse, List.reverse_perm⟩ with ⟨body, h, h'⟩ | ⟨err, _, h, _⟩
  · rw [hsome] at h
    exact h' ▸ h.symm ▸ rfl
  · rw [hsome] at h
    cases h

end Shinran
