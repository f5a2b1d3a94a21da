/-
  Shinran.Render.Calls
  ────────────────────
  **WHAT A RENDERING CALLS.**

  Extensions run commands, ask for the time or roll dice: what they answer may
  differ from call to call, and each call may have effects.  Here a rendering is
  a program whose questions are its calls of extensions, each at a position: the
  indices of the nested matches that lead to it, and that of its own variable.

    • `Rendering.renderTemplate`  — `render_template`, with calls for questions,
    • `eval_renderTemplate`       — on extensions that are functions it is
                                    `renderTemplate`,
    • `orderly_renderTemplate`    — calls come in the order of their positions,
                                    and stop with the first that does not succeed,
    • `explained_renderTemplate`  — each is for a variable that the text needs,
                                    with the outputs of those before it,
    • `complete_renderTemplate`   — and a rendering that succeeds makes them all.
-/
import Shinran.Inquiry
import Shinran.Render.Interference

namespace Shinran

open Inquiry

variable [UnicodeTables]

/-! ## §1. Renderings that call extensions. -/

/-- A call of the extension of a variable: the scope and the params that it gets to see. -/
structure ExtensionCall where
  position : List Nat
  varType : VarType
  scope : Scope
  params : Params

abbrev Rendering := Program ExtensionCall fun _ => ExtensionResult

/-- The calls that have been made, with their results. -/
abbrev CallLog := Transcript ExtensionCall fun _ => ExtensionResult

namespace Rendering

omit [UnicodeTables] in
/-- Dispatch on the type of the variable. -/
def calculate (position : List Nat) (varType : VarType) (scope : Scope) (params : Params) :
    Rendering (Except RenderResult ExtensionOutput) :=
  match varType with
  | .form => pure (.error (.success ""))
  | .unresolved | .match_ => pure (.error .panicked)
  | .date | .echo | .shell | .script | .random | .mock =>
      ExtensionResult.output <$> Program.question ⟨position, varType, scope, params⟩

omit [UnicodeTables] in
/-- What a nested rendering contributes: an output, or the result of the whole rendering. -/
def nestedOutput : RenderResult → Except RenderResult ExtensionOutput
  | .success output => .ok (.single output)
  | result => .error result

/-- Evaluate one variable. -/
def evalVariable (ctx : Context) (render : TextEffect → Rendering (Option RenderResult))
    (position : List Nat) (scope : Scope) (var : Variable) :
    Rendering (Option (Except RenderResult ExtensionOutput)) :=
  if var.varType = .match_ then
    match subTemplate ctx var with
    | none => pure (some (.error (.error (.renderer .missingSubMatch))))
    | some sub => Option.map nestedOutput <$> render sub
  else
    match variableParams scope var with
    | .error err => pure (some (.error (.error err)))
    | .ok params => some <$> calculate position var.varType scope params

/-- Evaluate the variables from `index` on, for the template at `base`. -/
def evalVariables (ctx : Context) (render : Nat → TextEffect → Rendering (Option RenderResult))
    (base : List Nat) :
    Nat → Scope → List Variable → Rendering (Option (Except RenderResult Scope))
  | _, scope, [] => pure (some (.ok scope))
  | index, scope, var :: vars => do
      let result ← evalVariable ctx (render index) (base ++ [index]) scope var
      match result with
      | none => pure none
      | some (.error result) => pure (some (.error result))
      | some (.ok output) =>
          evalVariables ctx render base (index + 1) (scope.insert var.name output) vars

/-- The result of a template, once its variables are evaluated. -/
def finishLoop (style : CasingStyle) (body : String) : Except RenderResult Scope → RenderResult
  | .error result => result
  | .ok scope =>
      match renderVariables body scope with
      | .error err => .error err
      | .ok body => finishBody style body

/-- `render_template`, of the template at `base`. -/
def renderTemplate (ctx : Context) (style : CasingStyle) :
    Nat → List Nat → RenderOrder → TextEffect → Rendering (Option RenderResult)
  | 0, _, _, _ => pure none
  | fuel + 1, base, orders, template =>
      if VarRegex.isMatch template.body then
        match templateOrder ctx (orders []) template with
        | none => pure none
        | some (.error err) => pure (some (.error err))
        | some (.ok vars) =>
            Option.map (finishLoop style template.body) <$>
              evalVariables ctx
                (fun index => renderTemplate ctx style fuel (base ++ [index])
                  (orders.nested index))
                base 0 ∅ vars
      else pure (some (finishBody style template.body))

end Rendering

omit [UnicodeTables] in
/-- The answers of extensions that are functions. -/
def Renderer.answer (ren : Renderer) (call : ExtensionCall) : ExtensionResult :=
  match call.varType with
  | .date => ren.dateExtension call.scope call.params
  | .echo => ren.echoExtension call.scope call.params
  | .shell => ren.shellExtension call.scope call.params
  | .script => ren.scriptExtension call.scope call.params
  | .random => ren.randomExtension call.scope call.params
  | .mock => ren.mockExtension call.scope call.params
  -- there is no extension for these, and they are not asked
  | .form | .unresolved | .match_ => .aborted

/-! ## §2. Extensions that are functions. -/

namespace Rendering

section Eval

variable {ren : Renderer} {ctx : Context}

omit [UnicodeTables] in
theorem eval_calculate (position : List Nat) (varType : VarType) (scope : Scope)
    (params : Params) : (calculate position varType scope params).eval ren.answer
      = Shinran.calculate ren varType scope params := by
  cases varType <;> rfl

theorem eval_evalVariable {render : TextEffect → Rendering (Option RenderResult)}
    {render' : TextEffect → Option RenderResult}
    (hrender : ∀ sub, (render sub).eval ren.answer = render' sub) (position : List Nat)
    (scope : Scope) (var : Variable) :
    (evalVariable ctx render position scope var).eval ren.answer
      = Shinran.evalVariable ren ctx render' scope var := by
  unfold evalVariable Shinran.evalVariable
  split
  · cases subTemplate ctx var with
    | none => rfl
    | some sub =>
        simp only [Program.eval_map, hrender]
        cases render' sub with
        | none => rfl
        | some result => cases result <;> rfl
  · cases variableParams scope var with
    | error err => rfl
    | ok params => simp only [Program.eval_map, eval_calculate]

theorem eval_evalVariables {render : Nat → TextEffect → Rendering (Option RenderResult)}
    {render' : Nat → TextEffect → Option RenderResult}
    (hrender : ∀ index sub, (render index sub).eval ren.answer = render' index sub)
    (base : List Nat) (vars : List Variable) (index : Nat) (scope : Scope) :
    (evalVariables ctx render base index scope vars).eval ren.answer
      = Shinran.evalVariables ren ctx render' index scope vars := by
  induction vars generalizing index scope with
  | nil => rfl
  | cons var vars ih =>
      unfold evalVariables Shinran.evalVariables
      rw [Program.eval_bind, eval_evalVariable (hrender index)]
      cases Shinran.evalVariable ren ctx (render' index) scope var with
      | none => rfl
      | some result =>
          cases result with
          | error stop => rfl
          | ok output => exact ih (index + 1) _

/-- **On extensions that are functions** a rendering is that of `renderTemplate`. -/
theorem eval_renderTemplate (ren : Renderer) (ctx : Context) (style : CasingStyle) (fuel : Nat)
    (base : List Nat) (orders : RenderOrder) (template : TextEffect) :
    (renderTemplate ctx style fuel base orders template).eval ren.answer
      = Shinran.renderTemplate ren ctx style fuel orders template := by
  induction fuel generalizing base orders template with
  | zero => rfl
  | succ fuel ih =>
      unfold renderTemplate Shinran.renderTemplate
      split
      · cases templateOrder ctx (orders []) template with
        | none => rfl
        | some result =>
            cases result with
            | error err => rfl
            | ok vars =>
                simp only [Program.eval_map]
                rw [eval_evalVariables fun index sub => ih _ _ sub]
                cases Shinran.evalVariables ren ctx _ 0 ∅ vars with
                | none => rfl
                | some result =>
                    cases result with
                    | error stop => rfl
                    | ok scope =>
                        simp only [Option.map_some, finishLoop]
                        cases renderVariables template.body scope <;> rfl
      · rfl

end Eval

/-! ## §3. The rules of the three functions. -/

section Rules

variable {ctx : Context}

/-- **A variable** renders its nested match, or calls its extension, or stops by itself, with a
success only if it is a form, whose params have been injected. -/
theorem ensures_evalVariable {render : TextEffect → Rendering (Option RenderResult)}
    {position : List Nat} {scope : Scope} {var : Variable}
    {post : CallLog → Option (Except RenderResult ExtensionOutput) → Prop}
    (hnested : ∀ sub, var.varType = .match_ → subTemplate ctx var = some sub →
      (render sub).Ensures fun calls result => post calls (result.map nestedOutput))
    (hcall : ∀ params answer, var.varType ≠ .match_ → variableParams scope var = .ok params →
      post [⟨⟨position, var.varType, scope, params⟩, answer⟩] (some answer.output))
    (hstop : ∀ result, (∀ body, result = .success body → body = "" ∧ var.varType = .form
        ∧ ∃ params, variableParams scope var = .ok params) →
      post [] (some (.error result))) :
    (evalVariable ctx render position scope var).Ensures post := by
  unfold evalVariable
  split
  · rename_i hmatch
    cases hsub : subTemplate ctx var with
    | none => exact Program.ensures_pure_iff.mpr (hstop _ nofun)
    | some sub =>
        intro calls result hreturns
        obtain ⟨result, hrender, rfl⟩ := Program.returns_map_iff.mp hreturns
        exact hnested sub hmatch hsub calls result hrender
  · rename_i hmatch
    cases hparams : variableParams scope var with
    | error err => exact Program.ensures_pure_iff.mpr (hstop _ nofun)
    | ok params =>
        intro calls result hreturns
        obtain ⟨result, hcalculate, rfl⟩ := Program.returns_map_iff.mp hreturns
        cases htype : var.varType with
        | form =>
            rw [htype] at hcalculate
            obtain ⟨rfl, rfl⟩ := Program.returns_pure_iff.mp hcalculate
            exact hstop _ fun _ hbody => ⟨(RenderResult.success.inj hbody).symm, htype, params, hparams⟩
        | unresolved | match_ =>
            rw [htype] at hcalculate
            obtain ⟨rfl, rfl⟩ := Program.returns_pure_iff.mp hcalculate
            exact hstop _ nofun
        | _ =>
            rw [htype] at hcalculate
            obtain ⟨answer, hanswer, rfl⟩ := Program.returns_map_iff.mp hcalculate
            obtain rfl := Program.returns_question_iff.mp hanswer
            rw [← htype]
            exact hcall params answer hmatch hparams

/-- **The loop** goes on from what its first variable ensures, if that has an output. -/
theorem ensures_evalVariables_cons {render : Nat → TextEffect → Rendering (Option RenderResult)}
    {base : List Nat} {index : Nat} {scope : Scope} {var : Variable} {vars : List Variable}
    {mid : CallLog → Option (Except RenderResult ExtensionOutput) → Prop}
    {post : CallLog → Option (Except RenderResult Scope) → Prop}
    (hvar : (evalVariable ctx (render index) (base ++ [index]) scope var).Ensures mid)
    (hnone : ∀ first, mid first none → post first none)
    (hstop : ∀ first result, mid first (some (.error result)) → post first (some (.error result)))
    (hrest : ∀ first output, mid first (some (.ok output)) →
      (evalVariables ctx render base (index + 1) (scope.insert var.name output) vars).Ensures
        fun second result => post (first ++ second) result) :
    (evalVariables ctx render base index scope (var :: vars)).Ensures post := by
  refine hvar.bind fun first result hmid => ?_
  cases result with
  | none =>
      rw [Program.ensures_pure_iff, List.append_nil]
      exact hnone first hmid
  | some result =>
      cases result with
      | error stop =>
          rw [Program.ensures_pure_iff, List.append_nil]
          exact hstop first stop hmid
      | ok output => exact hrest first output hmid

/-- **A template** with a reference runs its loop; otherwise there is nothing to call. -/
theorem ensures_renderTemplate_succ {style : CasingStyle} {fuel : Nat} {base : List Nat}
    {orders : RenderOrder} {template : TextEffect} {post : CallLog → Option RenderResult → Prop}
    (hverbatim : VarRegex.isMatch template.body = false →
      post [] (some (finishBody style template.body)))
    (herror : ∀ err, post [] (some (.error err)))
    (hloop : ∀ vars, VarRegex.isMatch template.body = true →
      templateOrder ctx (orders []) template = some (.ok vars) →
      (evalVariables ctx (fun index => renderTemplate ctx style fuel (base ++ [index])
          (orders.nested index)) base 0 ∅ vars).Ensures
        fun calls result => post calls (result.map (finishLoop style template.body))) :
    (renderTemplate ctx style (fuel + 1) base orders template).Ensures post := by
  unfold renderTemplate
  split
  · rename_i hmatch
    obtain ⟨result, horder⟩ := exists_templateOrder ctx (orders []) template
    rw [horder]
    cases result with
    | error err => exact Program.ensures_pure_iff.mpr (herror err)
    | ok vars =>
        intro calls result hreturns
        obtain ⟨result, hevaluate, rfl⟩ := Program.returns_map_iff.mp hreturns
        exact hloop vars hmatch horder calls result hevaluate
  · rename_i hmatch
    exact Program.ensures_pure_iff.mpr (hverbatim (by simpa using hmatch))

end Rules

/-! ## §4. The order of the calls. -/

section Orderly

/-- All calls succeed, or the last one does not, and is why the rendering stops as it does. -/
def StopsAtFailure (calls : CallLog) (stopped : RenderResult → Prop) : Prop :=
  (∀ entry ∈ calls, ∃ output, entry.2 = .success output)
    ∨ ∃ before entry result, calls = before ++ [entry]
      ∧ (∀ entry ∈ before, ∃ output, entry.2 = .success output)
      ∧ entry.2.output = .error result ∧ stopped result

/-- The calls are made in the order of their positions, no two of them at the same one, and stop
with the first that does not succeed.  All of them are below `base`. -/
structure Orderly (base : List Nat) (calls : CallLog) (stopped : RenderResult → Prop) : Prop where
  sorted : (calls.map (·.1.position)).Pairwise (· < ·)
  below : ∀ entry ∈ calls, ∃ rest, entry.1.position = base ++ rest
  stops : StopsAtFailure calls stopped

/-- The calls of a loop from `index` on. -/
structure OrderlyFrom (base : List Nat) (index : Nat) (calls : CallLog)
    (stopped : RenderResult → Prop) : Prop extends Orderly base calls stopped where
  later : ∀ entry ∈ calls, ∃ i rest, index ≤ i ∧ entry.1.position = base ++ i :: rest

omit [UnicodeTables] in
theorem orderly_nil {base : List Nat} {stopped : RenderResult → Prop} :
    Orderly base [] stopped :=
  ⟨.nil, nofun, .inl nofun⟩

omit [UnicodeTables] in
/-- An extension does not stop a rendering with a success. -/
theorem nestedOutput_of_output {answer : ExtensionResult} {result : RenderResult}
    (h : answer.output = .error result) : nestedOutput result = .error result := by
  cases answer with
  | success output => cases h
  | aborted => cases h; rfl
  | error err => cases h; rfl

variable {ctx : Context}

theorem orderly_evalVariable {render : TextEffect → Rendering (Option RenderResult)}
    {position : List Nat} {scope : Scope} {var : Variable}
    (hrender : ∀ sub, (render sub).Ensures fun calls result =>
      Orderly position calls fun stop => result = some stop) :
    (evalVariable ctx render position scope var).Ensures fun calls result =>
      Orderly position calls fun stop => result = some (.error stop) := by
  refine ensures_evalVariable ?_ ?_ ?_
  · intro sub _ _
    refine (hrender sub).mono fun calls result h => ⟨h.sorted, h.below, ?_⟩
    cases h.stops with
    | inl hall => exact .inl hall
    | inr hlast =>
        obtain ⟨before, entry, stop, hcalls, hbefore, houtput, rfl⟩ := hlast
        exact .inr ⟨before, entry, stop, hcalls, hbefore, houtput,
          congrArg some (nestedOutput_of_output houtput)⟩
  · intro params answer _ _
    refine ⟨List.pairwise_singleton _ _, ?_, ?_⟩
    · rw [List.forall_mem_singleton]
      exact ⟨[], (List.append_nil _).symm⟩
    · cases houtput : answer.output with
      | error stop => exact .inr ⟨[], ⟨_, answer⟩, stop, rfl, nofun, houtput, rfl⟩
      | ok output =>
          left
          rw [List.forall_mem_singleton]
          cases answer with
          | success output => exact ⟨output, rfl⟩
          | aborted => cases houtput
          | error err => cases houtput
  · intro result _
    exact orderly_nil

theorem orderly_evalVariables {render : Nat → TextEffect → Rendering (Option RenderResult)}
    {base : List Nat}
    (hrender : ∀ index sub, (render index sub).Ensures fun calls result =>
      Orderly (base ++ [index]) calls fun stop => result = some stop)
    (vars : List Variable) (index : Nat) (scope : Scope) :
    (evalVariables ctx render base index scope vars).Ensures fun calls result =>
      OrderlyFrom base index calls fun stop => result = some (.error stop) := by
  induction vars generalizing index scope with
  | nil => exact Program.ensures_pure_iff.mpr ⟨orderly_nil, nofun⟩
  | cons var vars ih =>
      have hbelow : ∀ {calls : CallLog} {stopped : RenderResult → Prop},
          Orderly (base ++ [index]) calls stopped → OrderlyFrom base index calls stopped := by
        intro calls stopped h
        have hlater : ∀ entry ∈ calls, ∃ i rest, index ≤ i
            ∧ entry.1.position = base ++ i :: rest := by
          intro entry hentry
          obtain ⟨rest, hrest⟩ := h.below entry hentry
          exact ⟨index, rest, Nat.le_refl _, by rw [hrest, List.append_assoc]; rfl⟩
        refine ⟨⟨h.sorted, fun entry hentry => ?_, h.stops⟩, hlater⟩
        obtain ⟨i, rest, _, hposition⟩ := hlater entry hentry
        exact ⟨_, hposition⟩
      refine ensures_evalVariables_cons (orderly_evalVariable (hrender index)) ?_ ?_ ?_
      · intro first hfirst
        have h := hbelow hfirst
        refine ⟨⟨h.sorted, h.below, ?_⟩, h.later⟩
        exact h.stops.imp_right fun ⟨_, _, _, _, _, _, hnone⟩ => nomatch hnone
      · intro first result hfirst
        have h := hbelow hfirst
        refine ⟨⟨h.sorted, h.below, ?_⟩, h.later⟩
        refine h.stops.imp_right ?_
        rintro ⟨before, entry, stop, hcalls, hbefore, houtput, hstop⟩
        cases hstop
        exact ⟨before, entry, result, hcalls, hbefore, houtput, rfl⟩
      · intro first output hfirst
        refine (ih (index + 1) _).mono fun second result hsecond => ?_
        -- the first variable has an output, so all of its calls have succeeded
        have hall : ∀ entry ∈ first, ∃ output, entry.2 = .success output := by
          cases hfirst.stops with
          | inl hall => exact hall
          | inr hlast => obtain ⟨_, _, _, _, _, _, hstop⟩ := hlast; cases hstop
        refine ⟨⟨?_, ?_, ?_⟩, ?_⟩
        · rw [List.map_append, List.pairwise_append]
          refine ⟨hfirst.sorted, hsecond.sorted, ?_⟩
          intro p hp q hq
          obtain ⟨entry, hentry, rfl⟩ := List.mem_map.mp hp
          obtain ⟨entry', hentry', rfl⟩ := List.mem_map.mp hq
          obtain ⟨rest, hrest⟩ := hfirst.below entry hentry
          obtain ⟨i, rest', hi, hrest'⟩ := hsecond.later entry' hentry'
          rw [hrest, hrest', List.append_assoc]
          exact List.append_left_lt (List.cons_lt_cons_iff.mpr (.inl (by omega)))
        · exact List.forall_mem_append.mpr ⟨(hbelow hfirst).below, hsecond.below⟩
        · cases hsecond.stops with
          | inl hall' => exact .inl (List.forall_mem_append.mpr ⟨hall, hall'⟩)
          | inr hlast =>
              obtain ⟨before, entry, stop, rfl, hbefore, houtput, hstop⟩ := hlast
              exact .inr ⟨first ++ before, entry, stop, (List.append_assoc ..).symm,
                List.forall_mem_append.mpr ⟨hall, hbefore⟩, houtput, hstop⟩
        · refine List.forall_mem_append.mpr ⟨(hbelow hfirst).later, fun entry hentry => ?_⟩
          obtain ⟨i, rest, hi, hposition⟩ := hsecond.later entry hentry
          exact ⟨i, rest, by omega, hposition⟩

/-- **The calls of a rendering are orderly.** -/
theorem orderly_renderTemplate (style : CasingStyle) (fuel : Nat) (base : List Nat)
    (orders : RenderOrder) (template : TextEffect) :
    (renderTemplate ctx style fuel base orders template).Ensures fun calls result =>
      Orderly base calls fun stop => result = some stop := by
  induction fuel generalizing base orders template with
  | zero => exact Program.ensures_pure_iff.mpr orderly_nil
  | succ fuel ih =>
      refine ensures_renderTemplate_succ (fun _ => orderly_nil) (fun _ => orderly_nil) ?_
      intro vars _ _
      refine (orderly_evalVariables (fun index sub => ih _ _ sub) vars 0 ∅).mono ?_
      intro calls result h
      refine ⟨h.sorted, h.below, h.stops.imp_right ?_⟩
      rintro ⟨before, entry, stop, hcalls, hbefore, houtput, rfl⟩
      exact ⟨before, entry, stop, hcalls, hbefore, houtput, rfl⟩

end Orderly

end Rendering

/-! ## §5. What the calls are for. -/

section Explained

/-- `VariablesAt ctx orders template path sub vars`: the matches at the indices of `path`, one
nested in the other, lead to `sub`, which evaluates `vars`, in this order. -/
def VariablesAt (ctx : Context) (orders : RenderOrder) (template : TextEffect) :
    List Nat → TextEffect → List Variable → Prop
  | [], sub, vars => sub = template ∧ VarRegex.isMatch template.body = true
      ∧ templateOrder ctx (orders []) template = some (.ok vars)
  | index :: path, sub, vars => ∃ outer var next, VarRegex.isMatch template.body = true
      ∧ templateOrder ctx (orders []) template = some (.ok outer) ∧ outer[index]? = some var
      ∧ var.varType = .match_ ∧ subTemplate ctx var = some next
      ∧ VariablesAt ctx (orders.nested index) next path sub vars

omit [UnicodeTables] in
/-- The scope holds one output for each of the first variables, namely what the extension of the
variable has answered, unless it is a nested match. -/
structure Supplied (vars : List Variable) (index : Nat) (base : List Nat) (calls : CallLog)
    (scope : Scope) : Prop where
  names : ∀ name, (scope.lookup name).isSome ↔ name ∈ (vars.take index).map (·.name)
  answers : ∀ i var, i < index → vars[i]? = some var → var.varType ≠ .match_ →
    ∃ entry ∈ calls, entry.1.position = base ++ [i]
      ∧ ∃ output, entry.2 = .success output ∧ scope.lookup var.name = some output

/-- The call is that of the variable at `index`, with the params injected from what the variables
before it have come to. -/
structure CallOf (vars : List Variable) (index : Nat) (var : Variable) (base : List Nat)
    (calls : CallLog) (call : ExtensionCall) : Prop where
  position : call.position = base ++ [index]
  listed : vars[index]? = some var
  varType : call.varType = var.varType
  params : variableParams call.scope var = .ok call.params
  supplied : Supplied vars index base calls call.scope

/-- The call is that of a variable of the template, or of a nested one. -/
def Explained (ctx : Context) (orders : RenderOrder) (template : TextEffect) (base : List Nat)
    (calls : CallLog) (call : ExtensionCall) : Prop :=
  ∃ path sub vars index var, VariablesAt ctx orders template path sub vars
    ∧ CallOf vars index var (base ++ path) calls call

omit [UnicodeTables] in
theorem Supplied.mono {vars : List Variable} {index : Nat} {base : List Nat}
    {calls calls' : CallLog} {scope : Scope} (h : Supplied vars index base calls scope)
    (hsub : calls ⊆ calls') : Supplied vars index base calls' scope := by
  refine ⟨h.names, fun i var hi hvar hmatch => ?_⟩
  obtain ⟨entry, hentry, hposition, houtput⟩ := h.answers i var hi hvar hmatch
  exact ⟨entry, hsub hentry, hposition, houtput⟩

theorem Explained.mono {ctx : Context} {orders : RenderOrder} {template : TextEffect}
    {base : List Nat} {calls calls' : CallLog} {call : ExtensionCall}
    (h : Explained ctx orders template base calls call) (hsub : calls ⊆ calls') :
    Explained ctx orders template base calls' call := by
  obtain ⟨path, sub, vars, index, var, hvars, hcall⟩ := h
  exact ⟨path, sub, vars, index, var, hvars,
    { hcall with supplied := hcall.supplied.mono hsub }⟩

omit [UnicodeTables] in
/-- **One more variable in the scope.** -/
theorem Supplied.insert {vars : List Variable} {index : Nat} {base : List Nat} {calls : CallLog}
    {scope : Scope} {var : Variable} {output : ExtensionOutput}
    (h : Supplied vars index base calls scope) (hnodup : (vars.map (·.name)).Nodup)
    (hvar : vars[index]? = some var)
    (hanswer : var.varType ≠ .match_ →
      ∃ entry ∈ calls, entry.1.position = base ++ [index] ∧ entry.2 = .success output) :
    Supplied vars (index + 1) base calls (scope.insert var.name output) := by
  constructor
  · intro name
    rw [List.take_add_one, hvar, List.map_append, List.mem_append, ← h.names]
    by_cases hname : name = var.name
    · subst hname
      simp
    · rw [AList.lookup_insert_ne hname]
      simp [hname]
  · intro i other hi hother hmatch
    rcases Nat.lt_succ_iff_lt_or_eq.mp hi with hlt | rfl
    · obtain ⟨entry, hentry, hposition, output', hsuccess, hlookup⟩ :=
        h.answers i other hlt hother hmatch
      refine ⟨entry, hentry, hposition, output', hsuccess, ?_⟩
      -- the names of the variables differ, so the output stays
      have hne : other.name ≠ var.name := fun heq => by
        have hi' : i < (vars.map (·.name)).length := by
          rw [List.length_map]
          exact (List.getElem?_eq_some_iff.mp hother).1
        have hsame : (vars.map (·.name))[i]? = (vars.map (·.name))[index]? := by
          rw [List.getElem?_map, List.getElem?_map, hother, hvar]
          exact congrArg some heq
        have hsameIndex := (List.getElem?_inj hi' hnodup).mp hsame
        omega
      rwa [AList.lookup_insert_ne hne]
    · obtain rfl := Option.some.inj (hother.symm.trans hvar)
      obtain ⟨entry, hentry, hposition, hsuccess⟩ := hanswer hmatch
      exact ⟨entry, hentry, hposition, output, hsuccess, AList.lookup_insert _⟩

variable {ctx : Context} {orders : RenderOrder}

/-- The calls of a nested match are explained by the template that it is nested in. -/
theorem Explained.nested {template sub : TextEffect} {vars : List Variable} {index : Nat}
    {var : Variable} {base : List Nat} {calls : CallLog} {call : ExtensionCall}
    (hmatch : VarRegex.isMatch template.body = true)
    (horder : templateOrder ctx (orders []) template = some (.ok vars))
    (hvar : vars[index]? = some var) (htype : var.varType = .match_)
    (hsub : subTemplate ctx var = some sub)
    (h : Explained ctx (orders.nested index) sub (base ++ [index]) calls call) :
    Explained ctx orders template base calls call := by
  obtain ⟨path, inner, innerVars, i, innerVar, hinner, hcall⟩ := h
  rw [List.append_assoc] at hcall
  exact ⟨index :: path, inner, innerVars, i, innerVar, ⟨vars, var, sub, hmatch, horder, hvar,
    htype, hsub, hinner⟩, hcall⟩

namespace Rendering

theorem explained_evalVariables {render : Nat → TextEffect → Rendering (Option RenderResult)}
    {base : List Nat} {template : TextEffect} {all : List Variable}
    (hrender : ∀ index sub, (render index sub).Ensures fun calls _ =>
      ∀ entry ∈ calls, Explained ctx (orders.nested index) sub (base ++ [index]) calls entry.1)
    (hmatch : VarRegex.isMatch template.body = true)
    (horder : templateOrder ctx (orders []) template = some (.ok all))
    (hnodup : (all.map (·.name)).Nodup) (vars : List Variable) (index : Nat) (scope : Scope)
    (before : CallLog) (hvars : all.drop index = vars)
    (hsupplied : Supplied all index base before scope) :
    (evalVariables ctx render base index scope vars).Ensures fun calls _ =>
      ∀ entry ∈ calls, Explained ctx orders template base (before ++ calls) entry.1 := by
  induction vars generalizing index scope before with
  | nil => exact Program.ensures_pure_iff.mpr nofun
  | cons var vars ih =>
      have hvar : all[index]? = some var := by
        rw [← List.head?_drop, hvars]
        rfl
      -- of the first variable: its calls, and what an output of it means
      let mid : CallLog → Option (Except RenderResult ExtensionOutput) → Prop :=
        fun calls result =>
          (∀ entry ∈ calls, Explained ctx orders template base (before ++ calls) entry.1)
            ∧ ∀ output, result = some (.ok output) → var.varType ≠ .match_ →
              ∃ entry ∈ calls, entry.1.position = base ++ [index] ∧ entry.2 = .success output
      have hmid : (evalVariable ctx (render index) (base ++ [index]) scope var).Ensures mid := by
        refine ensures_evalVariable ?_ ?_ ?_
        · intro sub htype hsub
          refine (hrender index sub).mono fun calls result h => ⟨fun entry hentry => ?_, ?_⟩
          · exact .nested hmatch horder hvar htype hsub
              ((h entry hentry).mono (List.subset_append_right _ _))
          · exact fun _ _ hnot => absurd htype hnot
        · intro params answer htype hparams
          refine ⟨?_, fun output houtput _ => ?_⟩
          · rw [List.forall_mem_singleton]
            refine ⟨[], template, all, index, var, ⟨rfl, hmatch, horder⟩, ?_, hvar, rfl, hparams,
              ?_⟩
            · rw [List.append_nil]
            · rw [List.append_nil]
              exact hsupplied.mono (List.subset_append_left _ _)
          · refine ⟨_, List.mem_singleton_self _, rfl, ?_⟩
            cases answer with
            | success output' => cases houtput; rfl
            | aborted => cases houtput
            | error err => cases houtput
        · exact fun _ _ => ⟨nofun, nofun⟩
      refine ensures_evalVariables_cons hmid (fun _ h => h.1) (fun _ _ h => h.1) ?_
      intro first output hfirst
      have hsupplied' : Supplied all (index + 1) base (before ++ first)
          (scope.insert var.name output) := by
        refine (hsupplied.mono (List.subset_append_left _ _)).insert hnodup hvar fun htype => ?_
        obtain ⟨entry, hentry, hposition, hsuccess⟩ := hfirst.2 output rfl htype
        exact ⟨entry, List.mem_append_right _ hentry, hposition, hsuccess⟩
      have hdrop : all.drop (index + 1) = vars := by
        rw [← List.tail_drop, hvars]
        rfl
      refine (ih (index + 1) _ (before ++ first) hdrop hsupplied').mono ?_
      intro second _ hsecond
      rw [← List.append_assoc]
      exact List.forall_mem_append.mpr ⟨fun entry hentry =>
        (hfirst.1 entry hentry).mono (List.subset_append_left _ _), hsecond⟩

/-- **Every call is for a variable that the text needs**, with the outputs of those before it. -/
theorem explained_renderTemplate (style : CasingStyle) (fuel : Nat) (base : List Nat)
    (orders : RenderOrder) (template : TextEffect) :
    (renderTemplate ctx style fuel base orders template).Ensures fun calls _ =>
      ∀ entry ∈ calls, Explained ctx orders template base calls entry.1 := by
  induction fuel generalizing base orders template with
  | zero => exact Program.ensures_pure_iff.mpr nofun
  | succ fuel ih =>
      refine ensures_renderTemplate_succ (fun _ => nofun) (fun _ => nofun) ?_
      intro vars hmatch horder
      refine explained_evalVariables (fun index sub => ih _ _ sub) hmatch horder
        (scheduled_of_ok horder).1.nodup vars 0 ∅ [] rfl ?_
      exact ⟨fun name => by simp, fun i _ hi => absurd hi (Nat.not_lt_zero i)⟩

end Rendering

/-- **What a variable needs** of its template is evaluated before it. -/
theorem VariablesAt.needed {template sub : TextEffect} {path : List Nat} {vars : List Variable}
    {index : Nat} {var : Variable}
    (hctx : ctx.AllVars fun var => var.name ≠ matchBody)
    (htemplate : ∀ var ∈ template.vars, var.name ≠ matchBody)
    (h : VariablesAt ctx orders template path sub vars) (hvar : vars[index]? = some var) :
    Needed sub.body (localVariables ctx sub.vars) ctx.globalVars var.name
      ∧ ∀ name, Requires (localVariables ctx sub.vars) var name →
        name ∈ (vars.take index).map (·.name) := by
  induction path generalizing orders template with
  | cons i path ih =>
      obtain ⟨_, _, next, _, _, _, _, hsub, hinner⟩ := h
      exact ih (hctx.subTemplate hsub) hinner
  | nil =>
      obtain ⟨rfl, hmatch, horder⟩ := h
      have hbody : ∀ var ∈ localVariables ctx sub.vars ++ ctx.globalVars,
          var.name ≠ matchBody := by
        intro var hvar
        cases List.mem_append.mp hvar with
        | inl hlocal => exact (mem_localVariables hlocal).elim (htemplate var) (hctx.1 var)
        | inr hglobal => exact hctx.1 var hglobal
      obtain ⟨hnames, names, hevalOrder, rfl⟩ :=
        evalOrder_of_ok ctx.nodup_globalVars hbody horder
      obtain ⟨hlt, hget⟩ := List.getElem?_eq_some_iff.mp hvar
      have hsplit := (List.take_append_drop index
        (names.filterMap (resolveName (localVariables ctx sub.vars) ctx.globalVars))).symm
      rw [List.drop_eq_getElem_cons hlt, hget] at hsplit
      obtain ⟨_, name, _, hnames', _, hresolve⟩ := filterMap_split hsplit
      have hname : var.name = name := resolveName_eq_some_name hresolve
      refine ⟨?_, fun required hrequires => ?_⟩
      · rw [hname]
        refine needed_of_mem_evalOrder hnames hevalOrder ?_ hresolve
        rw [hnames']
        exact List.mem_append_right _ List.mem_cons_self
      · obtain ⟨before, hbefore, hdenotes⟩ :=
          exists_required_before hnames hevalOrder hsplit hrequires
        exact List.mem_map.mpr ⟨before, hbefore, resolveName_eq_some_name hdenotes⟩

end Explained

/-! ## §6. The calls of a rendering that succeeds. -/

section Complete

/-- Neither the template nor one nested in it evaluates a form. -/
def NoForms (ctx : Context) (orders : RenderOrder) (template : TextEffect) : Prop :=
  ∀ path sub vars var, VariablesAt ctx orders template path sub vars → var ∈ vars →
    var.varType ≠ .form

/-- There is a call for each variable of the template and of the nested ones. -/
def CallsAll (ctx : Context) (orders : RenderOrder) (template : TextEffect) (base : List Nat)
    (calls : CallLog) : Prop :=
  ∀ path sub vars index var, VariablesAt ctx orders template path sub vars →
    vars[index]? = some var → var.varType ≠ .match_ →
      ∃ entry ∈ calls, entry.1.position = base ++ path ++ [index]

/-- The variable at `index` has been called, or all that is nested in it. -/
structure CalledAt (ctx : Context) (orders : RenderOrder) (index : Nat) (var : Variable)
    (base : List Nat) (calls : CallLog) : Prop where
  called : var.varType ≠ .match_ → ∃ entry ∈ calls, entry.1.position = base ++ [index]
  nested : ∀ sub, var.varType = .match_ → subTemplate ctx var = some sub →
    CallsAll ctx (orders.nested index) sub (base ++ [index]) calls

variable {ctx : Context} {orders : RenderOrder}

theorem CalledAt.mono {index : Nat} {var : Variable} {base : List Nat} {calls calls' : CallLog}
    (h : CalledAt ctx orders index var base calls) (hsub : calls ⊆ calls') :
    CalledAt ctx orders index var base calls' := by
  refine ⟨fun htype => ?_, fun sub htype heffect path inner vars i v hinner hv hmatch => ?_⟩
  · obtain ⟨entry, hentry, hposition⟩ := h.called htype
    exact ⟨entry, hsub hentry, hposition⟩
  · obtain ⟨entry, hentry, hposition⟩ :=
      h.nested sub htype heffect path inner vars i v hinner hv hmatch
    exact ⟨entry, hsub hentry, hposition⟩

/-- **A template calls all** if each of its variables does. -/
theorem callsAll_of_calledAt {template : TextEffect} {all : List Variable} {base : List Nat}
    {calls : CallLog} (horder : templateOrder ctx (orders []) template = some (.ok all))
    (h : ∀ index var, all[index]? = some var → CalledAt ctx orders index var base calls) :
    CallsAll ctx orders template base calls := by
  intro path sub vars index var hvars hvar htype
  cases path with
  | nil =>
      obtain ⟨rfl, _, horder'⟩ := hvars
      obtain rfl : all = vars := by simpa [horder] using horder'
      rw [List.append_nil]
      exact (h index var hvar).called htype
  | cons i path =>
      obtain ⟨outer, caller, next, _, horder', hcaller, hmatch, hsub, hinner⟩ := hvars
      obtain rfl : all = outer := by simpa [horder] using horder'
      obtain ⟨entry, hentry, hposition⟩ :=
        (h i caller hcaller).nested next hmatch hsub path sub vars index var hinner hvar htype
      refine ⟨entry, hentry, ?_⟩
      rw [hposition]
      simp

namespace Rendering

theorem complete_evalVariables {render : Nat → TextEffect → Rendering (Option RenderResult)}
    {base : List Nat} {all : List Variable}
    (hrender : ∀ index var sub, all[index]? = some var → var.varType = .match_ →
      subTemplate ctx var = some sub → (render index sub).Ensures fun calls result =>
        ∀ body, result = some (.success body) →
          CallsAll ctx (orders.nested index) sub (base ++ [index]) calls)
    (hforms : ∀ var ∈ all, var.varType ≠ .form) (vars : List Variable) (index : Nat)
    (scope : Scope) (hvars : all.drop index = vars) :
    (evalVariables ctx render base index scope vars).Ensures fun calls result =>
      (∀ body, result ≠ some (.error (.success body)))
        ∧ ∀ final, result = some (.ok final) → ∀ i var, index ≤ i → all[i]? = some var →
          CalledAt ctx orders i var base calls := by
  induction vars generalizing index scope with
  | nil =>
      refine Program.ensures_pure_iff.mpr ⟨nofun, fun _ _ i var hi hvar => ?_⟩
      obtain ⟨hlt, _⟩ := List.getElem?_eq_some_iff.mp hvar
      exact absurd (List.drop_eq_nil_iff.mp hvars) (by omega)
  | cons var vars ih =>
      have hvar : all[index]? = some var := by
        rw [← List.head?_drop, hvars]
        rfl
      let mid : CallLog → Option (Except RenderResult ExtensionOutput) → Prop :=
        fun calls result => (∀ body, result ≠ some (.error (.success body)))
          ∧ ∀ output, result = some (.ok output) → CalledAt ctx orders index var base calls
      have hmid : (evalVariable ctx (render index) (base ++ [index]) scope var).Ensures mid := by
        refine ensures_evalVariable ?_ ?_ ?_
        · intro sub htype hsub
          refine (hrender index var sub hvar htype hsub).mono fun calls result h => ?_
          cases result with
          | none => exact ⟨nofun, nofun⟩
          | some result =>
              cases result with
              | success body =>
                  refine ⟨nofun, fun _ _ => ⟨fun hnot => absurd htype hnot, ?_⟩⟩
                  intro sub' _ hsub'
                  obtain rfl : sub = sub' := Option.some.inj (hsub.symm.trans hsub')
                  exact h body rfl
              | aborted => exact ⟨nofun, nofun⟩
              | error err => exact ⟨nofun, nofun⟩
              | panicked => exact ⟨nofun, nofun⟩
        · intro params answer htype _
          refine ⟨fun body hstop => ?_, fun output _ => ⟨fun _ => ?_, ?_⟩⟩
          · cases answer with
            | success output => cases hstop
            | aborted => cases hstop
            | error err => cases hstop
          · exact ⟨_, List.mem_singleton_self _, rfl⟩
          · exact fun _ hmatch => absurd hmatch htype
        · intro result hsuccess
          refine ⟨fun body hstop => ?_, nofun⟩
          cases hstop
          exact hforms var (List.mem_of_getElem? hvar) (hsuccess body rfl).2.1
      refine ensures_evalVariables_cons hmid (fun _ _ => ⟨nofun, nofun⟩) ?_ ?_
      · intro first result hfirst
        exact ⟨fun body hstop => hfirst.1 body (by cases hstop; rfl), nofun⟩
      · intro first output hfirst
        have hdrop : all.drop (index + 1) = vars := by
          rw [← List.tail_drop, hvars]
          rfl
        refine (ih (index + 1) _ hdrop).mono fun second result hsecond => ⟨hsecond.1, ?_⟩
        intro final hfinal i v hi hv
        rcases Nat.eq_or_lt_of_le hi with rfl | hlater
        · obtain rfl := Option.some.inj (hvar.symm.trans hv)
          exact (hfirst.2 output rfl).mono (List.subset_append_left _ _)
        · exact (hsecond.2 final hfinal i v hlater hv).mono (List.subset_append_right _ _)

/-- **A rendering that succeeds makes every call**, unless a form cuts it short. -/
theorem complete_renderTemplate (style : CasingStyle) (fuel : Nat) (base : List Nat)
    (orders : RenderOrder) (template : TextEffect) (hforms : NoForms ctx orders template) :
    (renderTemplate ctx style fuel base orders template).Ensures fun calls result =>
      ∀ body, result = some (.success body) → CallsAll ctx orders template base calls := by
  induction fuel generalizing base orders template with
  | zero => exact Program.ensures_pure_iff.mpr nofun
  | succ fuel ih =>
      refine ensures_renderTemplate_succ ?_ (fun _ => nofun) ?_
      · intro hverbatim body _ path sub vars index var hvars
        -- without a reference there are no variables to evaluate
        cases path with
        | nil =>
            obtain ⟨_, hmatch, _⟩ := hvars
            rw [hverbatim] at hmatch
            cases hmatch
        | cons i path =>
            obtain ⟨_, _, _, hmatch, _⟩ := hvars
            rw [hverbatim] at hmatch
            cases hmatch
      · intro vars hmatch horder
        have hloop := @complete_evalVariables _ ctx orders
          (fun index => renderTemplate ctx style fuel (base ++ [index]) (orders.nested index))
          base vars
          (fun index var sub hvar htype hsub => ih _ _ sub fun path inner innerVars v hinner =>
            hforms (index :: path) inner innerVars v
              ⟨vars, var, sub, hmatch, horder, hvar, htype, hsub, hinner⟩)
          (fun var hvar => hforms [] template vars var ⟨rfl, hmatch, horder⟩ hvar) vars 0 ∅ rfl
        refine hloop.mono fun calls result h body hbody => ?_
        cases result with
        | none => cases hbody
        | some result =>
            cases result with
            | error stop =>
                obtain rfl : stop = .success body := Option.some.inj hbody
                exact absurd rfl (h.1 body)
            | ok final =>
                exact callsAll_of_calledAt horder fun index var hvar =>
                  h.2 final rfl index var (Nat.zero_le _) hvar

end Rendering

end Complete

/-! ## §7. What a rendering calls. -/

/-- **What a rendering calls.**  Let no variable be named as the node of the body is, which is
visited in any case.  Whatever the extensions answer, and however their answers change from call to
call: the calls come in the order of their positions, at most one for each, and stop
with the first that does not succeed, which decides the result.  Each call is for a variable that
its template needs, after everything that the variable requires; it sees one output for each of
the variables before it, the answer of its extension, and nothing else.  A rendering that succeeds
makes all of these calls, unless a form cuts it short. -/
theorem calls_of_rendering {ctx : Context} {style : CasingStyle} {fuel : Nat}
    {orders : RenderOrder} {template : TextEffect} {calls : CallLog} {result : RenderResult}
    (hctx : ctx.AllVars fun var => var.name ≠ matchBody)
    (htemplate : ∀ var ∈ template.vars, var.name ≠ matchBody)
    (h : (Rendering.renderTemplate ctx style fuel [] orders template).Returns calls
      (some result)) :
    (calls.map (·.1.position)).Pairwise (· < ·)
      ∧ Rendering.StopsAtFailure calls (fun stop => result = stop)
      ∧ (∀ entry ∈ calls, ∃ path sub vars index var,
        VariablesAt ctx orders template path sub vars
          ∧ CallOf vars index var path calls entry.1
          ∧ Needed sub.body (localVariables ctx sub.vars) ctx.globalVars var.name
          ∧ ∀ name, Requires (localVariables ctx sub.vars) var name →
            name ∈ (vars.take index).map (·.name))
      ∧ (NoForms ctx orders template → (∃ body, result = .success body) →
        CallsAll ctx orders template [] calls) := by
  have horderly := Rendering.orderly_renderTemplate style fuel [] orders template calls _ h
  have hexplained := Rendering.explained_renderTemplate style fuel [] orders template calls _ h
  refine ⟨horderly.sorted, ?_, fun entry hentry => ?_, ?_⟩
  · refine horderly.stops.imp_right ?_
    rintro ⟨before, entry, stop, hcalls, hbefore, houtput, hstop⟩
    exact ⟨before, entry, stop, hcalls, hbefore, houtput, Option.some.inj hstop⟩
  · obtain ⟨path, sub, vars, index, var, hvars, hcall⟩ := hexplained entry hentry
    exact ⟨path, sub, vars, index, var, hvars, hcall,
      hvars.needed hctx htemplate hcall.listed⟩
  · rintro hforms ⟨body, rfl⟩
    exact Rendering.complete_renderTemplate style fuel [] orders template hforms calls _ h body rfl

omit [UnicodeTables] in
/-- A roll of the dice, and the match that rolls them once more. -/
def rollTwice : TextEffect where
  body := "\x7b\x7bdice\x7d\x7d, then \x7b\x7bagain\x7d\x7d"
  vars := [{ name := "dice", varType := .random },
    { name := "again", varType := .match_, params := [("trigger", .string "roll")] }]

def rollOnce : TextEffect where
  body := "\x7b\x7bdice\x7d\x7d"
  vars := [{ name := "dice", varType := .random }]

def rollContext : Context :=
  { Context.default with
    matchesMap := (∅ : HashMap String TriggerMatch).insert "roll"
      { baseMatch := { effect := .text rollOnce }, triggers := ["roll"] } }

/-- The first roll is a two, the nested one a six. -/
def rolled (call : ExtensionCall) : ExtensionResult :=
  .success (.single (if call.position = [0] then "2" else "6"))

def rolling : Rendering (Option RenderResult) :=
  @Rendering.renderTemplate .ascii rollContext .none 2 [] (fun _ => .canonical) rollTwice

omit [UnicodeTables] in
/-- Two calls, the second one for the nested match. -/
theorem calls_of_rendering_roll : ∃ calls, rolling.Returns calls (some (.success "2, then 6"))
    ∧ calls.map (·.1.position) = [[0], [1, 0]]
    ∧ ∀ entry ∈ calls, ∃ path sub vars index var,
      @VariablesAt .ascii rollContext (fun _ => .canonical) rollTwice path sub vars
        ∧ @CallOf .ascii vars index var path calls entry.1 := by
  have h : rolling.Returns (rolling.log rolled) (some (.success "2, then 6")) := by
    have heval : rolling.eval rolled = some (.success "2, then 6") := by decide +kernel
    rw [← heval]
    exact Program.returns_log rolled rolling
  have hctx : rollContext.AllVars fun var => var.name ≠ matchBody := by
    refine ⟨nofun, fun trigger m sub hlookup heffect => ?_⟩
    by_cases htrigger : trigger = "roll"
    · subst htrigger
      cases hlookup
      cases heffect
      decide
    · unfold rollContext at hlookup
      rw [AList.lookup_insert_ne htrigger, AList.lookup_empty] at hlookup
      cases hlookup
  refine ⟨_, h, by decide, fun entry hentry => ?_⟩
  obtain ⟨_, _, hexplained, _⟩ := @calls_of_rendering .ascii _ _ _ _ _ _ _ hctx (by decide) h
  obtain ⟨path, sub, vars, index, var, hvars, hcall, _⟩ := hexplained entry hentry
  exact ⟨path, sub, vars, index, var, hvars, hcall⟩

end Shinran
