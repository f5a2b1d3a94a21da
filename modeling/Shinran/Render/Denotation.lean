/-
  Shinran.Render.Denotation
  ─────────────────────────
  **WHAT A TEMPLATE STANDS FOR.**

  A template can be read without any order of evaluation: a name has an
  output if its variable has one, given outputs of all that the variable
  requires.  `render_template` sorts the variables, evaluates one after
  another and substitutes what it has got; it comes to the same text.

    • `Denotes`, `HasOutput`      — the text of a template, the output of a name,
    • `Denotes.unique`            — there is at most one,
    • `denotes_of_renderTemplate` — what is rendered is what the template stands
                                    for, if the variables are regular,
    • `Denotes.exists_depth`      — and that is rendered, whatever the hash
                                    orders, where the stack is deep enough.
-/
import Shinran.DepthFirst.Walks
import Shinran.Render.Interference

namespace Shinran

open Relation (ReflTransGen TransGen)

variable [UnicodeTables]

/-! ## §1. Templates and names. -/

section
variable (ren : Renderer) (ctx : Context) (style : CasingStyle)

mutual
/-- The text that the template stands for. -/
inductive Denotes : TextEffect → String → Prop
  | plain {template : TextEffect} {text : String} : VarRegex.isMatch template.body = false →
      finishBody style template.body = .success text → Denotes template text
  /-- Each local has an output, and so has each name in the body. -/
  | filled {template : TextEffect} {scope : Scope} {output text : String} :
      VarRegex.isMatch template.body = true →
      DistinctNames (localVariables ctx template.vars) ctx.globalVars →
      (∀ name, BodyDependsOn template.body (localVariables ctx template.vars) name →
        (scope.lookup name).isSome) →
      (∀ name output, scope.lookup name = some output →
        HasOutput (localVariables ctx template.vars) name output) →
      renderVariables template.body scope = .ok output →
      finishBody style output = .success text → Denotes template text
/-- The output of the name among these locals: that of its variable, in a scope with outputs of
all that the variable requires. -/
inductive HasOutput : List Variable → String → ExtensionOutput → Prop
  | intro {locals : List Variable} {name : String} {var : Variable} {scope : Scope}
      {output : ExtensionOutput} :
      resolveName locals ctx.globalVars name = some var →
      (∀ name', Requires locals var name' → (scope.lookup name').isSome) →
      (∀ name' output', scope.lookup name' = some output' → HasOutput locals name' output') →
      VariableOutput scope var output → HasOutput locals name output
/-- The output of the variable in the scope.  An extension has to give this answer in all scopes
with the same outputs for what the variable lists and reads. -/
inductive VariableOutput : Scope → Variable → ExtensionOutput → Prop
  | nested {scope : Scope} {var : Variable} {sub : TextEffect} {text : String} :
      var.varType = .match_ → subTemplate ctx var = some sub → Denotes sub text →
      VariableOutput scope var (.single text)
  | answered {scope : Scope} {var : Variable} {params : Params} {output : ExtensionOutput} :
      var.varType ≠ .match_ → variableParams scope var = .ok params →
      (∀ scope' : Scope, (∀ name, name ∈ var.dependsOn ∨ name ∈ injectedNames var →
          scope.lookup name = scope'.lookup name) →
        calculate ren var.varType scope' params = .ok output) →
      VariableOutput scope var output
end

end

/-- What the extension makes of the params depends on the scope only through what the variable
lists and reads. -/
def Variable.Steady (ren : Renderer) (var : Variable) : Prop :=
  ∀ scope scope' params,
    (∀ name, name ∈ var.dependsOn ∨ name ∈ injectedNames var →
      scope.lookup name = scope'.lookup name) →
    calculate ren var.varType scope params = calculate ren var.varType scope' params

/-- A variable whose output is determined: not a form, not taken for the body's own node, and
with an extension that sees no more than it has to. -/
structure Variable.Regular (ren : Renderer) (var : Variable) : Prop where
  noForm : var.varType ≠ .form
  notBody : var.name ≠ matchBody
  steady : var.Steady ren

section
variable {ren : Renderer} {ctx : Context} {style : CasingStyle} {locals : List Variable}
  {name : String}

/-! ## §2. What a name has to do with its variable. -/

/-- A variable requires what it lists and reads. -/
theorem requires_of_reads {var : Variable}
    (h : name ∈ var.dependsOn ∨ name ∈ injectedNames var) : Requires locals var name := by
  cases h with
  | inl hlisted => exact .listed hlisted
  | inr hinjected =>
      obtain ⟨hinject, s, hs, hmem⟩ := mem_injectedNames.mp hinjected
      exact .injected hinject hs hmem

/-- A variable has the same params in two scopes that agree on what it reads. -/
theorem variableParams_congr {scope scope' : Scope} {var : Variable}
    (h : ∀ name ∈ injectedNames var, scope.lookup name = scope'.lookup name) :
    variableParams scope var = variableParams scope' var := by
  unfold variableParams injectedNames at *
  split_ifs with hinject
  · rw [if_pos hinject] at h
    exact injectVariablesIntoParams_congr h
  · rfl

/-- **Names with outputs depend on each other in finitely many steps.** -/
theorem HasOutput.acc : ∀ {name : String} {output : ExtensionOutput},
    HasOutput ren ctx style locals name output →
    Acc (fun a b => DependsOn locals ctx.globalVars b a) name
  | name, _, .intro hvar hsome hscope _ => by
      constructor
      rintro name' ⟨var', hvar', hrequires⟩
      obtain rfl := Option.some.inj (hvar.symm.trans hvar')
      obtain ⟨output', houtput'⟩ := Option.isSome_iff_exists.mp (hsome name' hrequires)
      exact (hscope name' output' houtput').acc

/-! ## §3. A template stands for one text. -/

omit [UnicodeTables] in
/-- Two scopes agree where both have an output, if those of the one are the only ones. -/
theorem scope_agree {outputs : String → ExtensionOutput → Prop} {scope scope' : Scope}
    (hunique : ∀ name output, scope.lookup name = some output → ∀ output', outputs name output' →
      output = output')
    (hscope' : ∀ name output, scope'.lookup name = some output → outputs name output)
    {name : String} (hsome : (scope.lookup name).isSome) (hsome' : (scope'.lookup name).isSome) :
    scope.lookup name = scope'.lookup name := by
  obtain ⟨output, houtput⟩ := Option.isSome_iff_exists.mp hsome
  obtain ⟨output', houtput'⟩ := Option.isSome_iff_exists.mp hsome'
  rw [houtput, houtput', hunique name output houtput output' (hscope' name output' houtput')]

mutual
/-- **A template stands for one text.** -/
theorem Denotes.unique : ∀ {template : TextEffect} {text text' : String},
    Denotes ren ctx style template text → Denotes ren ctx style template text' → text = text'
  | _, _, _, .plain hplain hbody, h' => by
      cases h' with
      | plain _ hbody' =>
          rw [hbody] at hbody'
          exact RenderResult.success.inj hbody'
      | filled hmatch => simp [hplain] at hmatch
  | _, _, _, .filled hmatch _ hsome hscope houtput hbody, h' => by
      cases h' with
      | plain hplain _ => simp [hplain] at hmatch
      | filled _ _ hsome' hscope' houtput' hbody' =>
          -- both scopes have the outputs of the names in the body
          rw [renderVariables_congr fun name hname =>
            scope_agree (fun name output h _ => (hscope name output h).unique) hscope'
              (hsome name (.inr hname)) (hsome' name (.inr hname)), houtput'] at houtput
          obtain rfl := Except.ok.inj houtput
          rw [hbody] at hbody'
          exact RenderResult.success.inj hbody'
/-- A name has one output. -/
theorem HasOutput.unique : ∀ {locals : List Variable} {name : String}
    {output output' : ExtensionOutput}, HasOutput ren ctx style locals name output →
    HasOutput ren ctx style locals name output' → output = output'
  | locals, _, _, _, .intro hvar hsome hscope houtput, .intro hvar' hsome' hscope' houtput' => by
      obtain rfl := Option.some.inj (hvar.symm.trans hvar')
      have hagree := fun name' (hrequires : Requires locals _ name') =>
        scope_agree (fun name output h _ => (hscope name output h).unique) hscope'
          (hsome name' hrequires) (hsome' name' hrequires)
      exact houtput.unique (fun name' hname' => hagree name' (requires_of_reads hname')) houtput'
/-- A variable has one output in scopes that agree on what it lists and reads. -/
theorem VariableOutput.unique : ∀ {scope scope' : Scope} {var : Variable}
    {output output' : ExtensionOutput},
    VariableOutput ren ctx style scope var output →
    (∀ name, name ∈ var.dependsOn ∨ name ∈ injectedNames var →
      scope.lookup name = scope'.lookup name) →
    VariableOutput ren ctx style scope' var output' → output = output'
  | _, _, _, _, _, .nested htype hsub hdenotes, _, h' => by
      cases h' with
      | nested _ hsub' hdenotes' =>
          obtain rfl := Option.some.inj (hsub.symm.trans hsub')
          rw [hdenotes.unique hdenotes']
      | answered htype' => exact absurd htype htype'
  | _, scope', _, _, _, .answered htype hparams hanswer, hscope, h' => by
      cases h' with
      | nested htype' => exact absurd htype' htype
      | answered _ hparams' hanswer' =>
          rw [variableParams_congr fun name hname => hscope name (.inr hname), hparams'] at hparams
          obtain rfl := Except.ok.inj hparams
          exact Except.ok.inj ((hanswer scope' hscope).symm.trans (hanswer' scope' fun _ _ => rfl))
end

/-! ## §4. What is rendered is what the template stands for. -/

section Order

variable {order : HashOrder} {template : TextEffect} {vars : List Variable}
  (hnames : DistinctNames (localVariables ctx template.vars) ctx.globalVars)
  (horder : templateOrder ctx order template = some (.ok vars))
include hnames horder

/-- The variables of the order are those that needed names denote. -/
theorem mem_order_iff {var : Variable} : var ∈ vars
    ↔ Needed template.body (localVariables ctx template.vars) ctx.globalVars var.name
      ∧ resolveName (localVariables ctx template.vars) ctx.globalVars var.name = some var := by
  obtain ⟨_, names, heval, rfl⟩ := evalOrder_of_ok hnames.globals hnames.notBody horder
  rw [List.mem_filterMap]
  constructor
  · rintro ⟨name, hname, hvar⟩
    obtain rfl := resolveName_eq_some_name hvar
    exact ⟨needed_of_mem_evalOrder hnames heval hname hvar, hvar⟩
  · rintro ⟨hneeded, hvar⟩
    exact ⟨var.name, mem_evalOrder_of_needed hnames heval hneeded, hvar⟩

/-- What a variable of the order requires comes before it. -/
theorem required_before {pre post : List Variable} {var : Variable}
    (heq : vars = pre ++ var :: post) {name : String}
    (hrequires : Requires (localVariables ctx template.vars) var name) :
    name ∈ pre.map (·.name) := by
  obtain ⟨_, names, heval, rfl⟩ := evalOrder_of_ok hnames.globals hnames.notBody horder
  obtain ⟨required, hmem, hrequired⟩ := exists_required_before hnames heval heq hrequires
  exact List.mem_map.mpr ⟨required, hmem, resolveName_eq_some_name hrequired⟩

/-- Every name on which the body depends is one of the order. -/
theorem mem_order_of_bodyDependsOn {name : String}
    (h : BodyDependsOn template.body (localVariables ctx template.vars) name) :
    name ∈ vars.map (·.name) := by
  obtain ⟨_, names, heval, _⟩ := evalOrder_of_ok hnames.globals hnames.notBody horder
  have hneeded : Needed template.body (localVariables ctx template.vars) ctx.globalVars name :=
    ⟨name, h, .refl⟩
  have hresolvable := (resolvable_iff hnames.globals hnames.notBody).mp heval.resolvable
  obtain ⟨var, hvar⟩ := Option.isSome_iff_exists.mp (hresolvable.2.1 name hneeded)
  obtain rfl := resolveName_eq_some_name hvar
  exact List.mem_map_of_mem ((mem_order_iff hnames horder).mpr ⟨hneeded, hvar⟩)

/-- **The loop finds outputs of names**, if the nested renderings find texts of templates. -/
theorem hasOutput_of_loop {fuel : Nat} {orders : RenderOrder}
    (hsteady : ∀ var ∈ vars, var.Steady ren)
    (hnested : ∀ index var sub text, subTemplate ctx var = some sub →
      renderTemplate ren ctx style fuel (orders.nested index) sub = some (.success text) →
      Denotes ren ctx style sub text) :
    ∀ pre post, vars = pre ++ post → ∀ scope,
      templateLoop ren ctx style fuel orders pre = some (.ok scope) →
      ∀ name output, scope.lookup name = some output →
        HasOutput ren ctx style (localVariables ctx template.vars) name output := by
  intro pre
  -- along the order; the scope of a variable is that of the variables before it
  induction pre using List.reverseRecOn with
  | nil =>
      intro _ _ scope hloop name output hlook
      simp only [templateLoop, evalVariables, Option.some.injEq, Except.ok.injEq] at hloop
      rw [← hloop, AList.lookup_empty] at hlook
      cases hlook
  | append_singleton pre var ih =>
      intro post heq scope hloop name output hlook
      rw [List.append_assoc, List.singleton_append] at heq
      unfold templateLoop at hloop
      obtain ⟨before, output', hpre, hvar, rfl⟩ := evalVariables_last hloop
      have hbefore := ih (var :: post) heq before hpre
      by_cases hname : name = var.name
      · subst hname
        rw [AList.lookup_insert, Option.some.injEq] at hlook
        subst hlook
        have hmem : var ∈ vars := by simp [heq]
        refine .intro ((mem_order_iff hnames horder).mp hmem).2 (fun name' hrequires => ?_)
          hbefore ?_
        · exact isSome_lookup_evalVariables hpre (required_before hnames horder heq hrequires)
        · rcases evalVariable_ok_iff.mp hvar with
            ⟨htype, sub, text, hsub, hrender, rfl⟩ | ⟨htype, params, hparams, hanswer⟩
          · exact .nested htype hsub (hnested _ var sub text hsub hrender)
          · refine .answered htype hparams fun scope' hscope' => ?_
            rw [← hsteady var hmem before scope' params hscope', hanswer]
      · rw [AList.lookup_insert_ne hname] at hlook
        exact hbefore name output hlook

end Order

/-- **What is rendered is what the template stands for.** -/
theorem denotes_of_renderTemplate (hctx : ctx.AllVars (Variable.Regular ren)) :
    ∀ {fuel : Nat} {orders : RenderOrder} {template : TextEffect} {text : String},
      (∀ var ∈ template.vars, var.Regular ren) →
      renderTemplate ren ctx style fuel orders template = some (.success text) →
      Denotes ren ctx style template text
  | 0, _, _, _, _, h => by simp [renderTemplate] at h
  | fuel + 1, orders, template, text, hvars, h => by
      have hform : FormFree ctx (orders []) template :=
        formFree_of_forall (fun var hvar => (hctx.1 var hvar).noForm) fun var hvar =>
          (hvars var hvar).noForm
      rcases renderTemplate_eq_success (fun _ => hform) h with
        ⟨hplain, hbody⟩ | ⟨hmatch, vars, scope, output, horder, hloop, houtput, hbody⟩
      · exact .plain hplain hbody
      · have hbodyName : ∀ var ∈ localVariables ctx template.vars ++ ctx.globalVars,
            var.name ≠ matchBody := by
          intro var hvar
          rcases List.mem_append.mp hvar with hlocal | hglobal
          · exact (mem_localVariables hlocal).elim (fun h => (hvars var h).notBody)
              fun h => (hctx.1 var h).notBody
          · exact (hctx.1 var hglobal).notBody
        have hnames := (evalOrder_of_ok ctx.nodup_globalVars hbodyName horder).1
        have hsteady : ∀ var ∈ vars, var.Steady ren := fun var hvar =>
          (mem_of_templateOrder horder hvar).elim (fun h => (hvars var h).steady)
            fun h => (hctx.1 var h).steady
        have houtputs := hasOutput_of_loop hnames horder hsteady
          (fun _ _ _ _ hsub hrender =>
            denotes_of_renderTemplate hctx (hctx.subTemplate hsub) hrender)
          vars [] (by simp) scope hloop
        refine .filled hmatch hnames (fun name hname => ?_) houtputs houtput hbody
        exact isSome_lookup_evalVariables hloop (mem_order_of_bodyDependsOn hnames horder hname)

/-! ## §5. What the template stands for is rendered. -/

section Complete

variable (ren ctx style locals) in
/-- From this depth on, the variable of the name evaluates to its output, wherever what it
requires is in scope. -/
def EvaluatesFrom (depth : Nat) (name : String) : Prop :=
  ∃ var output, resolveName locals ctx.globalVars name = some var
    ∧ HasOutput ren ctx style locals name output
    ∧ ∀ fuel orders scope, depth ≤ fuel →
      (∀ name', Requires locals var name' → ∀ output', HasOutput ren ctx style locals name' output' →
        scope.lookup name' = some output') →
      evalVariable ren ctx (renderTemplate ren ctx style fuel orders) scope var
        = some (.ok output)

theorem EvaluatesFrom.mono {depth depth' : Nat} (hle : depth ≤ depth')
    (h : EvaluatesFrom ren ctx style locals depth name) :
    EvaluatesFrom ren ctx style locals depth' name := by
  obtain ⟨var, output, hvar, houtput, heval⟩ := h
  exact ⟨var, output, hvar, houtput, fun fuel orders scope hfuel =>
    heval fuel orders scope (Nat.le_trans hle hfuel)⟩

omit [UnicodeTables] in
/-- One bound for all elements of a list. -/
theorem exists_bound {α : Type} {p : Nat → α → Prop}
    (hmono : ∀ {n n' : Nat} {a : α}, n ≤ n' → p n a → p n' a) {l : List α}
    (h : ∀ a ∈ l, ∃ n, p n a) : ∃ n, ∀ a ∈ l, p n a := by
  induction l with
  | nil => exact ⟨0, by simp⟩
  | cons a l ih =>
      obtain ⟨n, hn⟩ := h a List.mem_cons_self
      obtain ⟨n', hn'⟩ := ih fun b hb => h b (List.mem_cons_of_mem a hb)
      refine ⟨max n n', fun b hb => ?_⟩
      cases List.mem_cons.mp hb with
      | inl hb => exact hb ▸ hmono (Nat.le_max_left n n') hn
      | inr hb => exact hmono (Nat.le_max_right n n') (hn' b hb)

variable {template : TextEffect}
  (hnames : DistinctNames (localVariables ctx template.vars) ctx.globalVars)

include hnames in
/-- A template is ordered if all that it needs can be evaluated. -/
theorem exists_templateOrder_of_evaluatesFrom
    (hneeded : ∀ name,
      Needed template.body (localVariables ctx template.vars) ctx.globalVars name →
      ∃ depth, EvaluatesFrom ren ctx style (localVariables ctx template.vars) depth name)
    (order : HashOrder) : ∃ vars, templateOrder ctx order template = some (.ok vars) := by
  rcases resolveEvaluationOrder_spec order template.body
      (Nat.le_refl (resolutionFuel (localVariables ctx template.vars) ctx.globalVars)) with
    ⟨_, _, heq⟩ | ⟨_, hnot, _⟩
  · exact ⟨_, heq⟩
  · refine absurd ((resolvable_iff hnames.globals hnames.notBody).mpr
      ⟨hnames.locals, fun name h => ?_, fun name h => ?_⟩) hnot
    · obtain ⟨_, var, _, hvar, _⟩ := hneeded name h
      rw [hvar]
      rfl
    · obtain ⟨_, _, _, _, houtput, _⟩ := hneeded name h
      exact DepthFirst.not_transGen_of_acc houtput.acc

include hnames in
/-- **The loop comes to the outputs of its variables.** -/
theorem loop_of_evaluatesFrom {vars : List Variable} {depth fuel : Nat} {orders : RenderOrder}
    (horder : templateOrder ctx (orders []) template = some (.ok vars)) (hfuel : depth ≤ fuel)
    (hall : ∀ var ∈ vars,
      EvaluatesFrom ren ctx style (localVariables ctx template.vars) depth var.name) :
    ∀ pre post, vars = pre ++ post → ∃ scope,
      templateLoop ren ctx style fuel orders pre = some (.ok scope)
      ∧ ∀ name ∈ pre.map (·.name), ∃ output,
        HasOutput ren ctx style (localVariables ctx template.vars) name output
          ∧ scope.lookup name = some output := by
  intro pre
  induction pre using List.reverseRecOn with
  | nil => exact fun _ _ => ⟨∅, rfl, by simp⟩
  | append_singleton pre var ih =>
      intro post heq
      rw [List.append_assoc, List.singleton_append] at heq
      obtain ⟨scope, hloop, hscope⟩ := ih (var :: post) heq
      have hmem : var ∈ vars := by simp [heq]
      obtain ⟨var', output, hvar', houtput, heval⟩ := hall var hmem
      obtain rfl := Option.some.inj (((mem_order_iff hnames horder).mp hmem).2.symm.trans hvar')
      -- what it requires has been evaluated before, to the only output that there is
      have hvar := heval fuel (orders.nested pre.length) scope hfuel
        fun name' hrequires output' houtput' => by
          obtain ⟨found, hfound, hlook⟩ :=
            hscope name' (required_before hnames horder heq hrequires)
          rw [hlook, hfound.unique houtput']
      refine ⟨scope.insert var.name output, evalVariables_snoc hloop (by simpa using hvar),
        fun name hname => ?_⟩
      by_cases hne : name = var.name
      · subst hne
        exact ⟨output, houtput, AList.lookup_insert scope⟩
      · rw [AList.lookup_insert_ne hne]
        exact hscope name (by simpa [hne] using hname)

mutual
/-- **What the template stands for is rendered**, whatever the hash orders, where the stack is
deep enough. -/
theorem Denotes.exists_depth : ∀ {template : TextEffect} {text : String},
    Denotes ren ctx style template text →
    ∃ depth, ∀ fuel orders, depth ≤ fuel →
      renderTemplate ren ctx style fuel orders template = some (.success text)
  | _, _, .plain hplain hbody => by
      refine ⟨1, fun fuel orders hfuel => ?_⟩
      obtain ⟨fuel, rfl⟩ := Nat.exists_eq_add_of_le' hfuel
      rw [renderTemplate, if_neg (by simp [hplain]), hbody]
  | template, text, .filled hmatch hnames hsome hscope houtput hbody => by
      have hneeded : ∀ name,
          Needed template.body (localVariables ctx template.vars) ctx.globalVars name →
          ∃ depth, EvaluatesFrom ren ctx style (localVariables ctx template.vars) depth name := by
        rintro name ⟨first, hfirst, hreach⟩
        obtain ⟨output, hlook⟩ := Option.isSome_iff_exists.mp (hsome first hfirst)
        exact (hscope first output hlook).exists_depth hreach
      have horder := exists_templateOrder_of_evaluatesFrom hnames hneeded
      -- the same variables are evaluated in every order
      obtain ⟨vars, hvars⟩ := horder .canonical
      obtain ⟨depth, hdepth⟩ : ∃ depth, ∀ var ∈ vars,
          EvaluatesFrom ren ctx style (localVariables ctx template.vars) depth var.name :=
        exists_bound (fun hle h => h.mono hle) fun var hvar =>
          hneeded var.name ((mem_order_iff hnames hvars).mp hvar).1
      refine ⟨depth + 1, fun fuel orders hfuel => ?_⟩
      obtain ⟨fuel, rfl⟩ := Nat.exists_eq_add_of_le' (Nat.le_trans (Nat.le_add_left 1 depth) hfuel)
      obtain ⟨vars', hvars'⟩ := horder (orders [])
      obtain ⟨scope', hloop, hscope'⟩ := loop_of_evaluatesFrom hnames hvars'
        (Nat.le_of_succ_le_succ hfuel) (fun var hvar => hdepth var
          ((mem_order_iff hnames hvars).mpr ((mem_order_iff hnames hvars').mp hvar))) vars' []
        (by simp)
      rw [← hbody]
      refine renderTemplate_of_loop hmatch hvars' hloop ?_
      rw [← houtput]
      refine renderVariables_congr fun name hname => ?_
      obtain ⟨found, hfound, hlook⟩ :=
        hscope' name (mem_order_of_bodyDependsOn hnames hvars' (.inr hname))
      obtain ⟨output, hlook'⟩ := Option.isSome_iff_exists.mp (hsome name (.inr hname))
      rw [hlook, hlook', hfound.unique (hscope name output hlook')]
/-- A name with an output is evaluated to it, and so is all that it depends on. -/
theorem HasOutput.exists_depth : ∀ {locals : List Variable} {name : String}
    {output : ExtensionOutput}, HasOutput ren ctx style locals name output →
    ∀ {name' : String}, ReflTransGen (DependsOn locals ctx.globalVars) name name' →
      ∃ depth, EvaluatesFrom ren ctx style locals depth name'
  | locals, name, output, @HasOutput.intro _ _ _ _ _ _ var scope _ hvar hsome hscope houtput,
      name', hreach => by
      rcases hreach.cases_head with rfl | ⟨next, ⟨var', hvar', hrequires⟩, hreach⟩
      · obtain ⟨depth, hdepth⟩ := houtput.exists_depth
        refine ⟨depth, var, output, hvar, .intro hvar hsome hscope houtput,
          fun fuel orders scope' hfuel hscope' => ?_⟩
        refine hdepth fuel orders scope' hfuel fun name' hname' => ?_
        obtain ⟨output', hlook⟩ :=
          Option.isSome_iff_exists.mp (hsome name' (requires_of_reads hname'))
        rw [hlook, hscope' name' (requires_of_reads hname') output' (hscope name' output' hlook)]
      · obtain rfl := Option.some.inj (hvar.symm.trans hvar')
        obtain ⟨output', hlook⟩ := Option.isSome_iff_exists.mp (hsome next hrequires)
        exact (hscope next output' hlook).exists_depth hreach
theorem VariableOutput.exists_depth : ∀ {scope : Scope} {var : Variable}
    {output : ExtensionOutput}, VariableOutput ren ctx style scope var output →
    ∃ depth, ∀ fuel orders scope', depth ≤ fuel →
      (∀ name, name ∈ var.dependsOn ∨ name ∈ injectedNames var →
        scope.lookup name = scope'.lookup name) →
      evalVariable ren ctx (renderTemplate ren ctx style fuel orders) scope' var
        = some (.ok output)
  | _, _, _, .nested htype hsub hdenotes => by
      obtain ⟨depth, hdepth⟩ := hdenotes.exists_depth
      refine ⟨depth, fun fuel orders scope' hfuel _ => evalVariable_ok_iff.mpr ?_⟩
      exact .inl ⟨htype, _, _, hsub, hdepth fuel orders hfuel, rfl⟩
  | _, _, _, .answered htype hparams hanswer => by
      refine ⟨0, fun fuel orders scope' hfuel hscope => evalVariable_ok_iff.mpr ?_⟩
      rw [variableParams_congr fun name hname => hscope name (.inr hname)] at hparams
      exact .inr ⟨htype, _, hparams, hanswer scope' hscope⟩
end

end Complete

/-! ## §6. Renderings and what templates stand for. -/

/-- **A rendering computes what the template stands for.**  What the template stands for is one
text, and is rendered under all hash orders, as soon as the stack is deep enough.  If all variables
are regular (there are no forms, none is named as the node of the body is, and each extension sees
no more of the scope than what its variable lists and reads), then whatever is rendered under any
hash orders is what the template stands for. -/
theorem renderTemplate_denotes (template : TextEffect) :
    (∀ text, Denotes ren ctx style template text →
      (∃ depth, ∀ fuel orders, depth ≤ fuel →
        renderTemplate ren ctx style fuel orders template = some (.success text))
      ∧ ∀ text', Denotes ren ctx style template text' → text' = text)
    ∧ (ctx.AllVars (Variable.Regular ren) → (∀ var ∈ template.vars, var.Regular ren) →
      ∀ fuel orders text,
        renderTemplate ren ctx style fuel orders template = some (.success text) →
        Denotes ren ctx style template text) :=
  ⟨fun _ h => ⟨h.exists_depth, fun _ h' => h'.unique h⟩,
    fun hctx hvars _ _ _ h => denotes_of_renderTemplate hctx hvars h⟩

end

/-- An extension that reads the variable `x` from its environment, beside ones that echo. -/
def shouting : Renderer :=
  let echo : Extension := fun _ params =>
    match params.get "echo" with
    | some (.string s) => .success (.single s)
    | _ => .aborted
  let shout : Extension := fun scope _ =>
    match scope.lookup "x" with
    | some (.single s) => .success (.single (s ++ "!"))
    | _ => .aborted
  { dateExtension := echo, echoExtension := echo, shellExtension := shout,
    scriptExtension := echo, randomExtension := echo, mockExtension := echo }

/-- A variable that is shouted, and the one that it lists. -/
def shoutedContext : Context :=
  (Context.default.insertGlobal { name := "y", varType := .shell, dependsOn := ["x"] }).insertGlobal
    { name := "x", varType := .echo, params := [("echo", .string "hi")] }

omit [UnicodeTables] in
/-- What is rendered under one choice of the hash orders is rendered under all of them. -/
theorem renderTemplate_denotes_shout : ∃ depth, ∀ fuel orders, depth ≤ fuel →
    @renderTemplate .ascii shouting shoutedContext .none fuel orders
      { body := "\x7b\x7by\x7d\x7d, \x7b\x7bx\x7d\x7d" } = some (.success "hi!, hi") := by
  have hctx : shoutedContext.AllVars (@Variable.Regular .ascii shouting) := by
    refine ⟨fun var hvar => ?_, fun trigger m sub hm => by cases hm⟩
    rcases List.mem_pair.mp (show var ∈ [_, _] from hvar) with rfl | rfl
    · exact @Variable.Regular.mk .ascii _ _ (by decide) (by decide) fun _ _ _ _ => rfl
    · refine @Variable.Regular.mk .ascii _ _ (by decide) (by decide) fun scope scope' params h => ?_
      simp only [calculate, shouting, h "x" (.inl (List.mem_singleton_self _))]
  obtain ⟨hcomplete, hsound⟩ := @renderTemplate_denotes .ascii shouting shoutedContext .none
    { body := "\x7b\x7by\x7d\x7d, \x7b\x7bx\x7d\x7d" }
  exact (hcomplete _ (hsound hctx (by simp) 1 (fun _ => .canonical) "hi!, hi" (by decide))).1

end Shinran
