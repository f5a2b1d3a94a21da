/-
  Shinran.Render.Template
  ───────────────────────
  **RENDERING A TEMPLATE** (`renderer/mod.rs`).

  A template whose body holds a reference is rendered in four steps: its
  variables are put into an evaluation order, evaluated one after another
  into a scope, substituted into the body, and the casing style is applied.
  A variable of type `Match` is evaluated by rendering another template.

    • `Renderer`, `Context` — the extensions (arbitrary functions), and the
                              maps that the templates share,
    • `renderTemplate`      — the source's function; `fuel` bounds the depth
                              of the nested renderings,
    • `renderTemplate_fuel` — more fuel never changes a result,
    • `evalVariables_append`, `evalVariables_frame` — the evaluation loop, cut
                              at any point, and what it leaves alone.
-/
import Shinran.Render.ResolveCorrect

namespace Shinran

/-! ## §1. Extensions, contexts and results. -/

/-- `ExtensionResult`. -/
inductive ExtensionResult where
  | success (output : ExtensionOutput)
  | aborted
  | error (err : Error)

/-- `Extension::calculate` of one extension. -/
abbrev Extension := Scope → Params → ExtensionResult

/-- `Renderer`: one extension for every type of variable that has one. -/
structure Renderer where
  dateExtension : Extension
  echoExtension : Extension
  shellExtension : Extension
  scriptExtension : Extension
  randomExtension : Extension
  mockExtension : Extension

/-- A renderer all of whose extensions answer with one text. -/
def Renderer.answering (text : String) : Renderer :=
  let answer : Extension := fun _ _ => .success (.single text)
  ⟨answer, answer, answer, answer, answer, answer⟩

/-- `Context`, in which every global is filed under its own name. -/
structure Context where
  matchesMap : HashMap String TriggerMatch
  globalVarsMap : HashMap String Variable
  keyed : ∀ name var, globalVarsMap.lookup name = some var → var.name = name

inductive CasingStyle where
  | none
  | capitalize
  | capitalizeWords
  | uppercase
  deriving DecidableEq, Repr

/-- `RenderResult`, or a panic. -/
inductive RenderResult where
  | success (body : String)
  | aborted
  | error (err : Error)
  | panicked
  deriving DecidableEq, Repr

/-- The iteration orders of a rendering and of the renderings nested in it, each found under
the indices of the variables that lead to it. -/
abbrev RenderOrder := List Nat → HashOrder

/-- The orders of the rendering nested at the variable with this index. -/
def RenderOrder.nested (orders : RenderOrder) (index : Nat) : RenderOrder :=
  fun path => orders (index :: path)

/-- `Context::default()`. -/
def Context.default : Context := ⟨∅, ∅, by simp⟩

/-- The context with one more global. -/
def Context.insertGlobal (ctx : Context) (var : Variable) : Context where
  matchesMap := ctx.matchesMap
  globalVarsMap := ctx.globalVarsMap.insert var.name var
  keyed name v h := by
    by_cases hname : name = var.name
    · subst hname
      rw [AList.lookup_insert, Option.some.injEq] at h
      rw [h]
    · rw [AList.lookup_insert_ne hname] at h
      exact ctx.keyed name v h

/-- An order for a rendering, and orders for those nested in it. -/
def RenderOrder.node (order : HashOrder) (nested : Nat → RenderOrder) : RenderOrder
  | [] => order
  | index :: path => nested index path

/-- The globals in the order in which the map is iterated. -/
def Context.globalVars (ctx : Context) : List Variable := ctx.globalVarsMap.values

theorem Context.mem_globalVars {ctx : Context} {var : Variable} :
    var ∈ ctx.globalVars ↔ ctx.globalVarsMap.lookup var.name = some var := by
  have hentry : ∀ name v, ⟨name, v⟩ ∈ ctx.globalVarsMap.entries
      ↔ ctx.globalVarsMap.lookup name = some v := fun _ _ => AList.mem_lookup_iff.symm
  unfold Context.globalVars HashMap.values
  rw [List.mem_map]
  constructor
  · intro h
    obtain ⟨⟨name, v⟩, hmem, rfl⟩ := h
    have hlook := (hentry name v).mp hmem
    rwa [ctx.keyed name v hlook]
  · intro h
    exact ⟨⟨var.name, var⟩, (hentry _ _).mpr h, rfl⟩

theorem Context.nodup_globalVars (ctx : Context) : (ctx.globalVars.map (·.name)).Nodup := by
  have hkeys : ctx.globalVars.map (·.name) = ctx.globalVarsMap.keys := by
    unfold Context.globalVars HashMap.values AList.keys List.keys
    rw [List.map_map]
    refine List.map_congr_left fun entry hentry => ?_
    exact ctx.keyed entry.1 entry.2 (AList.mem_lookup_iff.mpr hentry)
  rw [hkeys]
  exact ctx.globalVarsMap.nodupKeys

/-- The global of a name, found in the list or in the map. -/
theorem Context.find?_globalVars (ctx : Context) (name : String) :
    ctx.globalVars.find? (fun var => var.name = name) = ctx.globalVarsMap.lookup name := by
  cases hlook : ctx.globalVarsMap.lookup name with
  | some var =>
      obtain rfl := ctx.keyed name var hlook
      exact find?_name_eq_some ctx.nodup_globalVars (Context.mem_globalVars.mpr hlook)
  | none =>
      refine find?_name_eq_none fun hname => ?_
      obtain ⟨var, hvar, rfl⟩ := List.mem_map.mp hname
      rw [Context.mem_globalVars, hlook] at hvar
      cases hvar

/-! ## §2. Casing. -/

section
variable [UnicodeTables]

open UnicodeTables (isWord toUppercase)

/-- `c.to_uppercase().next().unwrap()`. -/
def upperFirst (c : Char) : Char :=
  (toUppercase c).head (UnicodeTables.toUppercase_ne_nil c)

/-- Every maximal run of word characters with its first one in upper case. -/
def capitalizeWords : (inWord : Bool) → List Char → List Char
  | _, [] => []
  | inWord, c :: cs =>
      if isWord c then (if inWord then c else upperFirst c) :: capitalizeWords true cs
      else c :: capitalizeWords false cs

/-- The body in a casing style; `none` is the panic of `v[0]` on an empty body. -/
def applyCasing : CasingStyle → String → Option String
  | .none, body => some body
  | .uppercase, body => some (String.ofList (body.toList.flatMap toUppercase))
  | .capitalize, body =>
      match body.toList with
      | [] => none
      | c :: cs => some (String.ofList (upperFirst c :: cs))
  | .capitalizeWords, body => some (String.ofList (capitalizeWords false body.toList))

/-- The last step: unescape, then apply the casing style. -/
def finishBody (style : CasingStyle) (body : String) : RenderResult :=
  match applyCasing style (unescapeVariableInections body) with
  | some body => .success body
  | none => .panicked

/-! ## §3. One variable. -/

omit [UnicodeTables] in
/-- `get_trigger_from_var`. -/
def getTriggerFromVar (var : Variable) : Option String :=
  match var.params.get "trigger" with
  | some (.string trigger) => some trigger
  | _ => none

omit [UnicodeTables] in
/-- The text of the match that a variable of type `Match` names. -/
def subTemplate (ctx : Context) (var : Variable) : Option TextEffect :=
  match ((getTriggerFromVar var).bind ctx.matchesMap.lookup).map (·.baseMatch.effect) with
  | some (MatchEffect.text sub) => some sub
  | _ => none

/-- The params that an extension receives. -/
def variableParams (scope : Scope) (var : Variable) : Except Error Params :=
  if var.injectVars then injectVariablesIntoParams var.params scope else .ok var.params

omit [UnicodeTables] in
/-- An output, or the result with which the whole rendering stops. -/
def ExtensionResult.output : ExtensionResult → Except RenderResult ExtensionOutput
  | .success output => .ok output
  | .aborted => .error .aborted
  | .error err => .error (.error err)

omit [UnicodeTables] in
/-- Dispatch on the type of the variable. -/
def calculate (ren : Renderer) (varType : VarType) (scope : Scope) (params : Params) :
    Except RenderResult ExtensionOutput :=
  match varType with
  | .date => (ren.dateExtension scope params).output
  | .echo => (ren.echoExtension scope params).output
  | .shell => (ren.shellExtension scope params).output
  | .script => (ren.scriptExtension scope params).output
  | .random => (ren.randomExtension scope params).output
  | .mock => (ren.mockExtension scope params).output
  -- nothing is done, and the whole template renders to nothing
  | .form => .error (.success "")
  | .unresolved | .match_ => .error .panicked

/-- Evaluate one variable; `render` renders a nested template. -/
def evalVariable (ren : Renderer) (ctx : Context) (render : TextEffect → Option RenderResult)
    (scope : Scope) (var : Variable) : Option (Except RenderResult ExtensionOutput) :=
  if var.varType = .match_ then
    match subTemplate ctx var with
    | none => some (.error (.error (.renderer .missingSubMatch)))
    | some sub =>
        match render sub with
        | none => none
        | some (.success output) => some (.ok (.single output))
        | some result => some (.error result)
  else
    match variableParams scope var with
    | .error err => some (.error (.error err))
    | .ok params => some (calculate ren var.varType scope params)

/-- Evaluate the variables from `index` on; `render` renders the template nested at an index. -/
def evalVariables (ren : Renderer) (ctx : Context)
    (render : Nat → TextEffect → Option RenderResult) :
    Nat → Scope → List Variable → Option (Except RenderResult Scope)
  | _, scope, [] => some (.ok scope)
  | index, scope, var :: vars =>
      match evalVariable ren ctx (render index) scope var with
      | none => none
      | some (.error result) => some (.error result)
      | some (.ok output) =>
          evalVariables ren ctx render (index + 1) (scope.insert var.name output) vars

/-! ## §4. One template. -/

omit [UnicodeTables] in
/-- The local variables; an unresolved one stands for the global of its name, if there is one. -/
def localVariables (ctx : Context) (vars : List Variable) : List Variable :=
  if vars.any (fun var => var.varType = .unresolved) then
    vars.filterMap fun var =>
      if var.varType = .unresolved then ctx.globalVarsMap.lookup var.name else some var
  else vars

omit [UnicodeTables] in
theorem localVariables_eq {ctx : Context} {vars : List Variable}
    (h : ∀ var ∈ vars, var.varType ≠ .unresolved) : localVariables ctx vars = vars := by
  unfold localVariables
  rw [if_neg (by simpa using h)]

/-- The variables that a template evaluates, in order, or why there is no order. -/
def templateOrder (ctx : Context) (order : HashOrder) (template : TextEffect) :
    Option (Except Error (List Variable)) :=
  resolveEvaluationOrder order
    (resolutionFuel (localVariables ctx template.vars) ctx.globalVars)
    template.body (localVariables ctx template.vars) ctx.globalVars

/-- There is always an order, or a reason why there is none. -/
theorem exists_templateOrder (ctx : Context) (order : HashOrder) (template : TextEffect) :
    ∃ result, templateOrder ctx order template = some result := by
  unfold templateOrder
  rcases resolveEvaluationOrder_spec order template.body (Nat.le_refl _) with
    ⟨_, _, heq⟩ | ⟨_, _, heq⟩
  · exact ⟨_, heq⟩
  · exact ⟨_, heq⟩

/-- `render_template`. -/
def renderTemplate (ren : Renderer) (ctx : Context) (style : CasingStyle) :
    Nat → RenderOrder → TextEffect → Option RenderResult
  | 0, _, _ => none
  | fuel + 1, orders, template =>
      if VarRegex.isMatch template.body then
        match templateOrder ctx (orders []) template with
        | none => none
        | some (.error err) => some (.error err)
        | some (.ok vars) =>
            match evalVariables ren ctx
                (fun index => renderTemplate ren ctx style fuel (orders.nested index))
                0 ∅ vars with
            | none => none
            | some (.error result) => some result
            | some (.ok scope) =>
                match renderVariables template.body scope with
                | .error err => some (.error err)
                | .ok body => some (finishBody style body)
      else some (finishBody style template.body)

/-- The evaluation loop of a template, with its nested renderings. -/
def templateLoop (ren : Renderer) (ctx : Context) (style : CasingStyle) (fuel : Nat)
    (orders : RenderOrder) (vars : List Variable) : Option (Except RenderResult Scope) :=
  evalVariables ren ctx (fun index => renderTemplate ren ctx style fuel (orders.nested index))
    0 ∅ vars

/-! ## §5. The evaluation loop. -/

section
variable {ren : Renderer} {ctx : Context} {render : Nat → TextEffect → Option RenderResult}

/-- The loop, cut after any number of variables. -/
theorem evalVariables_append (post : List Variable) :
    ∀ (pre : List Variable) (index : Nat) (scope : Scope),
      evalVariables ren ctx render index scope (pre ++ post)
        = match evalVariables ren ctx render index scope pre with
          | some (.ok scope') => evalVariables ren ctx render (index + pre.length) scope' post
          | r => r
  | [], _, _ => rfl
  | var :: pre, index, scope => by
      rw [List.cons_append, evalVariables, evalVariables]
      cases heval : evalVariable ren ctx (render index) scope var with
      | none => rfl
      | some r =>
          cases r with
          | error result => rfl
          | ok output =>
              show evalVariables ren ctx render (index + 1) _ (pre ++ post) = _
              rw [evalVariables_append post pre (index + 1), List.length_cons,
                show index + 1 + pre.length = index + (pre.length + 1) by omega]

/-- A loop that succeeds evaluated every variable, in the scope of those before it. -/
theorem evalVariables_split {pre post : List Variable} {var : Variable} {index : Nat}
    {scope final : Scope}
    (h : evalVariables ren ctx render index scope (pre ++ var :: post) = some (.ok final)) :
    ∃ before output, evalVariables ren ctx render index scope pre = some (.ok before)
      ∧ evalVariable ren ctx (render (index + pre.length)) before var = some (.ok output)
      ∧ evalVariables ren ctx render (index + pre.length + 1) (before.insert var.name output) post
        = some (.ok final) := by
  rw [evalVariables_append] at h
  cases hpre : evalVariables ren ctx render index scope pre with
  | none => simp [hpre] at h
  | some r =>
      cases r with
      | error result => simp [hpre] at h
      | ok before =>
          simp only [hpre] at h
          unfold evalVariables at h
          cases heval : evalVariable ren ctx (render (index + pre.length)) before var with
          | none => simp [heval] at h
          | some r =>
              cases r with
              | error result => simp [heval] at h
              | ok output =>
                  simp only [heval] at h
                  exact ⟨before, output, rfl, heval, h⟩

/-- A loop that stops has succeeded up to the variable at which it stops. -/
theorem evalVariables_error_split {result : RenderResult} :
    ∀ {vars : List Variable} {index : Nat} {scope : Scope},
      evalVariables ren ctx render index scope vars = some (.error result) →
      ∃ pre var post before, vars = pre ++ var :: post
        ∧ evalVariables ren ctx render index scope pre = some (.ok before)
        ∧ evalVariable ren ctx (render (index + pre.length)) before var = some (.error result)
  | [], _, _, h => by simp [evalVariables] at h
  | var :: vars, index, scope, h => by
      unfold evalVariables at h
      cases heval : evalVariable ren ctx (render index) scope var with
      | none => simp [heval] at h
      | some r =>
          cases r with
          | error result' =>
              simp only [heval, Option.some.injEq, Except.error.injEq] at h
              exact ⟨[], var, vars, scope, rfl, rfl, h ▸ heval⟩
          | ok output =>
              simp only [heval] at h
              obtain ⟨pre, v, post, before, rfl, hpre, hv⟩ := evalVariables_error_split h
              refine ⟨var :: pre, v, post, before, rfl, ?_, ?_⟩
              · rw [evalVariables, heval]
                exact hpre
              · rwa [List.length_cons, Nat.add_comm pre.length, ← Nat.add_assoc]

/-- One more variable at the end of a loop that succeeded. -/
theorem evalVariables_snoc {pre : List Variable} {var : Variable} {index : Nat}
    {scope before : Scope} {output : ExtensionOutput}
    (hpre : evalVariables ren ctx render index scope pre = some (.ok before))
    (hvar : evalVariable ren ctx (render (index + pre.length)) before var = some (.ok output)) :
    evalVariables ren ctx render index scope (pre ++ [var])
      = some (.ok (before.insert var.name output)) := by
  rw [evalVariables_append, hpre]
  simp [evalVariables, hvar]

/-- What the last variable of a loop that succeeded does. -/
theorem evalVariables_last {pre : List Variable} {var : Variable} {index : Nat}
    {scope final : Scope}
    (h : evalVariables ren ctx render index scope (pre ++ [var]) = some (.ok final)) :
    ∃ before output, evalVariables ren ctx render index scope pre = some (.ok before)
      ∧ evalVariable ren ctx (render (index + pre.length)) before var = some (.ok output)
      ∧ final = before.insert var.name output := by
  obtain ⟨before, output, hpre, hvar, hlast⟩ := evalVariables_split h
  simp only [evalVariables, Option.some.injEq, Except.ok.injEq] at hlast
  exact ⟨before, output, hpre, hvar, hlast.symm⟩

/-- **Frame**: the loop writes only under the names of its variables. -/
theorem evalVariables_frame {name : String} {vars : List Variable} {index : Nat}
    {scope final : Scope}
    (h : evalVariables ren ctx render index scope vars = some (.ok final))
    (hname : name ∉ vars.map (·.name)) : final.lookup name = scope.lookup name := by
  -- from the back: the last variable writes under its own name only
  induction vars using List.reverseRecOn generalizing final with
  | nil =>
      simp only [evalVariables, Option.some.injEq, Except.ok.injEq] at h
      rw [h]
  | append_singleton vars var ih =>
      obtain ⟨before, output, hpre, _, rfl⟩ := evalVariables_last h
      simp only [List.map_append, List.map_cons, List.map_nil, List.mem_append,
        List.mem_singleton, not_or] at hname
      rw [AList.lookup_insert_ne hname.2, ih hpre hname.1]

/-- After the loop every variable of it is in scope. -/
theorem isSome_lookup_evalVariables {name : String} {vars : List Variable} {index : Nat}
    {scope final : Scope}
    (h : evalVariables ren ctx render index scope vars = some (.ok final))
    (hname : name ∈ vars.map (·.name)) : (final.lookup name).isSome := by
  induction vars using List.reverseRecOn generalizing final with
  | nil => simp at hname
  | append_singleton vars var ih =>
      obtain ⟨before, output, hpre, _, rfl⟩ := evalVariables_last h
      by_cases heq : name = var.name
      · rw [heq, AList.lookup_insert]
        rfl
      · rw [AList.lookup_insert_ne heq]
        refine ih hpre ?_
        simpa [heq] using hname

/-- The output of a variable whose name does not occur again stays in scope. -/
theorem lookup_evalVariables {pre post : List Variable} {var : Variable} {index : Nat}
    {scope before final : Scope} {output : ExtensionOutput}
    (hnodup : ((pre ++ var :: post).map (·.name)).Nodup)
    (hpre : evalVariables ren ctx render index scope pre = some (.ok before))
    (hvar : evalVariable ren ctx (render (index + pre.length)) before var = some (.ok output))
    (h : evalVariables ren ctx render index scope (pre ++ var :: post) = some (.ok final)) :
    final.lookup var.name = some output
      ∧ ∀ name ∈ pre.map (·.name), final.lookup name = before.lookup name := by
  obtain ⟨before', output', hpre', hvar', hpost⟩ := evalVariables_split h
  obtain rfl : before = before' := by simpa [hpre] using hpre'
  obtain rfl : output = output' := by simpa [hvar] using hvar'
  rw [List.map_append, List.map_cons, List.nodup_append, List.nodup_cons] at hnodup
  obtain ⟨_, ⟨hnotPost, _⟩, hdisjoint⟩ := hnodup
  refine ⟨?_, fun name hname => ?_⟩
  · rw [evalVariables_frame hpost hnotPost, AList.lookup_insert]
  -- a name before the variable is neither its own nor one behind it
  · have hne : name ≠ var.name := hdisjoint name hname var.name List.mem_cons_self
    have hnot : name ∉ post.map (·.name) := fun hmem =>
      hdisjoint name hname name (List.mem_cons_of_mem _ hmem) rfl
    rw [evalVariables_frame hpost hnot, AList.lookup_insert_ne hne]

/-- Only a form stops the loop with a success, an empty one. -/
theorem evalVariable_eq_success {render : TextEffect → Option RenderResult} {scope : Scope}
    {var : Variable} {body : String}
    (h : evalVariable ren ctx render scope var = some (.error (.success body))) :
    var.varType = .form ∧ body = "" := by
  -- an extension that fails or aborts does not count as a success
  have houtput : ∀ r : ExtensionResult, r.output ≠ .error (.success body) := by
    intro r hr
    cases r <;> simp [ExtensionResult.output] at hr
  unfold evalVariable at h
  split at h
  · cases hsub : subTemplate ctx var with
    | none => simp [hsub] at h
    | some sub =>
        simp only [hsub] at h
        cases hr : render sub with
        | none => simp [hr] at h
        | some r => cases r <;> simp [hr] at h
  · cases hparams : variableParams scope var with
    | error err => simp [hparams] at h
    | ok params =>
        simp only [hparams, Option.some.injEq] at h
        unfold calculate at h
        cases htype : var.varType with
        | form =>
            rw [htype] at h
            cases h
            exact ⟨rfl, rfl⟩
        | unresolved | match_ => simp [htype] at h
        | _ => exact absurd (by simpa [htype] using h) (houtput _)

/-- **The two ways to evaluate a variable**: by the rendering of the nested match, or by the
extension of its type. -/
theorem evalVariable_ok_iff {render : TextEffect → Option RenderResult} {scope : Scope}
    {var : Variable} {output : ExtensionOutput} :
    evalVariable ren ctx render scope var = some (.ok output)
      ↔ (var.varType = .match_ ∧ ∃ sub body, subTemplate ctx var = some sub
          ∧ render sub = some (.success body) ∧ output = .single body)
        ∨ (var.varType ≠ .match_ ∧ ∃ params, variableParams scope var = .ok params
          ∧ calculate ren var.varType scope params = .ok output) := by
  unfold evalVariable
  by_cases hmatch : var.varType = .match_
  · rw [if_pos hmatch]
    cases hsub : subTemplate ctx var with
    | none => simp [hmatch]
    | some sub =>
        cases hr : render sub with
        | none => simp [hmatch, hr]
        | some result => cases result <;> simp [hmatch, hr, eq_comm]
  · rw [if_neg hmatch]
    cases hparams : variableParams scope var with
    | error err => simp [hmatch]
    | ok params => simp [hmatch]

/-! ## §6. More fuel never changes a result. -/

theorem evalVariable_mono {render render' : TextEffect → Option RenderResult}
    (hrender : ∀ sub r, render sub = some r → render' sub = some r) {scope : Scope}
    {var : Variable} {r : Except RenderResult ExtensionOutput}
    (h : evalVariable ren ctx render scope var = some r) :
    evalVariable ren ctx render' scope var = some r := by
  unfold evalVariable at h ⊢
  split
  · rename_i hmatch
    rw [if_pos hmatch] at h
    -- only a nested match is rendered, and there the fuel matters
    cases hsub : subTemplate ctx var with
    | none => simpa [hsub] using h
    | some sub =>
        simp only [hsub] at h ⊢
        cases hr : render sub with
        | none => simp [hr] at h
        | some result =>
            rw [hr] at h
            rw [hrender sub result hr]
            exact h
  · rename_i hmatch
    rwa [if_neg hmatch] at h

theorem evalVariables_mono {render' : Nat → TextEffect → Option RenderResult}
    (hrender : ∀ index sub r, render index sub = some r → render' index sub = some r) :
    ∀ {vars : List Variable} {index : Nat} {scope : Scope} {r : Except RenderResult Scope},
      evalVariables ren ctx render index scope vars = some r →
      evalVariables ren ctx render' index scope vars = some r
  | [], _, _, _, h => h
  | var :: vars, index, scope, r, h => by
      unfold evalVariables at h ⊢
      cases heval : evalVariable ren ctx (render index) scope var with
      | none => simp [heval] at h
      | some result =>
          rw [evalVariable_mono (hrender index) heval]
          cases result with
          | error _ => simpa [heval] using h
          | ok output =>
              simp only [heval] at h
              exact evalVariables_mono hrender h

/-- A successful loop, substituted into the body. -/
theorem renderTemplate_of_loop {style : CasingStyle} {fuel : Nat} {orders : RenderOrder}
    {template : TextEffect} {vars : List Variable} {scope : Scope} {body : String}
    (hmatch : VarRegex.isMatch template.body = true)
    (horder : templateOrder ctx (orders []) template = some (.ok vars))
    (hloop : templateLoop ren ctx style fuel orders vars = some (.ok scope))
    (hbody : renderVariables template.body scope = .ok body) :
    renderTemplate ren ctx style (fuel + 1) orders template = some (finishBody style body) := by
  unfold templateLoop at hloop
  rw [renderTemplate, if_pos hmatch]
  simp only [horder, hloop, hbody]

/-- A loop that stops decides the rendering. -/
theorem renderTemplate_of_stop {style : CasingStyle} {fuel : Nat} {orders : RenderOrder}
    {template : TextEffect} {vars : List Variable} {result : RenderResult}
    (hmatch : VarRegex.isMatch template.body = true)
    (horder : templateOrder ctx (orders []) template = some (.ok vars))
    (hloop : templateLoop ren ctx style fuel orders vars = some (.error result)) :
    renderTemplate ren ctx style (fuel + 1) orders template = some result := by
  unfold templateLoop at hloop
  rw [renderTemplate, if_pos hmatch]
  simp only [horder, hloop]

/-- A rendering that succeeds: there is nothing to evaluate, the loop stops with a success, or
it ends and the body is substituted. -/
theorem renderTemplate_success_cases {style : CasingStyle} {fuel : Nat} {orders : RenderOrder}
    {template : TextEffect} {body : String}
    (h : renderTemplate ren ctx style (fuel + 1) orders template = some (.success body)) :
    (VarRegex.isMatch template.body = false ∧ finishBody style template.body = .success body)
      ∨ (VarRegex.isMatch template.body = true ∧ ∃ vars,
          templateOrder ctx (orders []) template = some (.ok vars)
            ∧ (templateLoop ren ctx style fuel orders vars = some (.error (.success body))
              ∨ ∃ scope output, templateLoop ren ctx style fuel orders vars = some (.ok scope)
                ∧ renderVariables template.body scope = .ok output
                ∧ finishBody style output = .success body)) := by
  unfold renderTemplate at h
  by_cases hmatch : VarRegex.isMatch template.body = true
  · rw [if_pos hmatch] at h
    refine Or.inr ⟨hmatch, ?_⟩
    cases horder : templateOrder ctx (orders []) template with
    | none => simp [horder] at h
    | some result =>
        cases result with
        | error err => simp [horder] at h
        | ok vars =>
            refine ⟨vars, rfl, ?_⟩
            unfold templateLoop
            simp only [horder] at h
            cases hloop : evalVariables ren ctx
                (fun index => renderTemplate ren ctx style fuel (orders.nested index))
                0 ∅ vars with
            | none => simp [hloop] at h
            | some result =>
                cases result with
                | error r =>
                    simp only [hloop, Option.some.injEq] at h
                    exact Or.inl (by rw [h])
                | ok scope =>
                    simp only [hloop] at h
                    cases hbody : renderVariables template.body scope with
                    | error err => simp [hbody] at h
                    | ok output =>
                        simp only [hbody, Option.some.injEq] at h
                        exact Or.inr ⟨scope, output, rfl, hbody, h⟩
  · rw [if_neg hmatch, Option.some.injEq] at h
    exact Or.inl ⟨by simpa using hmatch, h⟩

end

theorem renderTemplate_fuel_succ (ren : Renderer) (ctx : Context) (style : CasingStyle) :
    ∀ (fuel : Nat) (orders : RenderOrder) (template : TextEffect) (r : RenderResult),
      renderTemplate ren ctx style fuel orders template = some r →
      renderTemplate ren ctx style (fuel + 1) orders template = some r
  | 0, _, _, _, h => by simp [renderTemplate] at h
  | fuel + 1, orders, template, r, h => by
      -- the order does not depend on the fuel, the loop does through its nested matches
      unfold renderTemplate at h ⊢
      split
      · rename_i hmatch
        rw [if_pos hmatch] at h
        cases horder : templateOrder ctx (orders []) template with
        | none => simp [horder] at h
        | some result =>
            cases result with
            | error err => simpa [horder] using h
            | ok vars =>
                simp only [horder] at h ⊢
                cases heval : evalVariables ren ctx
                    (fun index => renderTemplate ren ctx style fuel (orders.nested index))
                    0 ∅ vars with
                | none => simp [heval] at h
                | some result =>
                    rw [evalVariables_mono (fun index sub r hr =>
                      renderTemplate_fuel_succ ren ctx style fuel _ sub r hr) heval]
                    rwa [heval] at h
      · rename_i hmatch
        rwa [if_neg hmatch] at h

/-- **More fuel never changes a result.** -/
theorem renderTemplate_fuel {ren : Renderer} {ctx : Context} {style : CasingStyle}
    {fuel fuel' : Nat} (hle : fuel ≤ fuel') {orders : RenderOrder} {template : TextEffect}
    {r : RenderResult} (h : renderTemplate ren ctx style fuel orders template = some r) :
    renderTemplate ren ctx style fuel' orders template = some r := by
  induction hle with
  | refl => exact h
  | step _ ih => exact renderTemplate_fuel_succ ren ctx style _ orders template r ih

end

end Shinran
