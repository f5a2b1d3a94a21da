/-
  Shinran.Render.Failure
  ──────────────────────
  **WHAT CAN GO WRONG IN A RENDERING.**

  A rendering fails at the variables that it gets to, at the references in its
  body, or because there is no order in which to evaluate anything; a rendering
  that is nested in it fails it as well.

    • `Fails`                  — the faults, as they come up,
    • `renderTemplate_success_iff` — a rendering succeeds if there is none.
-/
import Shinran.Render.Template

namespace Shinran

/-! ## §1. Faults. -/

section
variable [UnicodeTables] (ren : Renderer) (ctx : Context) (style : CasingStyle)

/-- Rendering the template gets to `var`, with the outputs of the variables `pre` in scope. -/
structure ArrivesAt (fuel : Nat) (orders : RenderOrder) (template : TextEffect)
    (pre : List Variable) (var : Variable) (scope : Scope) : Prop where
  isMatch : VarRegex.isMatch template.body = true
  order : ∃ post, templateOrder ctx (orders []) template = some (.ok (pre ++ var :: post))
  loop : templateLoop ren ctx style fuel orders pre = some (.ok scope)

/-- Rendering the template gets to the end, with its body substituted. -/
inductive Produces (fuel : Nat) (orders : RenderOrder) (template : TextEffect) : String → Prop
  | plain : VarRegex.isMatch template.body = false →
      Produces fuel orders template template.body
  | substituted {vars : List Variable} {scope : Scope} {text : String} :
      VarRegex.isMatch template.body = true →
      templateOrder ctx (orders []) template = some (.ok vars) →
      templateLoop ren ctx style fuel orders vars = some (.ok scope) →
      renderVariables template.body scope = .ok text →
      Produces fuel orders template text

/-- **The faults of a rendering.** -/
inductive Fails : Nat → RenderOrder → TextEffect → Prop
  /-- Matches are nested too deeply for the stack. -/
  | deep {orders : RenderOrder} {template : TextEffect} : Fails 0 orders template
  /-- A variable is missing or depends on itself. -/
  | unordered {fuel : Nat} {orders : RenderOrder} {template : TextEffect} {err : Error} :
      VarRegex.isMatch template.body = true →
      templateOrder ctx (orders []) template = some (.error err) →
      Fails (fuel + 1) orders template
  /-- A variable names no match with a text. -/
  | unnamed {fuel : Nat} {orders : RenderOrder} {template : TextEffect} {pre : List Variable}
      {var : Variable} {scope : Scope} :
      ArrivesAt ren ctx style fuel orders template pre var scope →
      var.varType = .match_ → subTemplate ctx var = none →
      Fails (fuel + 1) orders template
  /-- The rendering of a nested match fails. -/
  | nested {fuel : Nat} {orders : RenderOrder} {template sub : TextEffect}
      {pre : List Variable} {var : Variable} {scope : Scope} :
      ArrivesAt ren ctx style fuel orders template pre var scope →
      var.varType = .match_ → subTemplate ctx var = some sub →
      Fails fuel (orders.nested pre.length) sub →
      Fails (fuel + 1) orders template
  /-- The params of a variable refer to what has no single output. -/
  | uninjected {fuel : Nat} {orders : RenderOrder} {template : TextEffect} {pre : List Variable}
      {var : Variable} {scope : Scope} {err : Error} :
      ArrivesAt ren ctx style fuel orders template pre var scope →
      var.varType ≠ .match_ → variableParams scope var = .error err →
      Fails (fuel + 1) orders template
  /-- An extension fails or aborts, or there is none. -/
  | unanswered {fuel : Nat} {orders : RenderOrder} {template : TextEffect} {pre : List Variable}
      {var : Variable} {scope : Scope} {params : Params} {result : RenderResult} :
      ArrivesAt ren ctx style fuel orders template pre var scope →
      var.varType ≠ .match_ → var.varType ≠ .form → variableParams scope var = .ok params →
      calculate ren var.varType scope params = .error result →
      Fails (fuel + 1) orders template
  /-- The body refers to what has no single output. -/
  | unreadable {fuel : Nat} {orders : RenderOrder} {template : TextEffect}
      {vars : List Variable} {scope : Scope} {err : Error} :
      VarRegex.isMatch template.body = true →
      templateOrder ctx (orders []) template = some (.ok vars) →
      templateLoop ren ctx style fuel orders vars = some (.ok scope) →
      renderVariables template.body scope = .error err →
      Fails (fuel + 1) orders template
  /-- There is no first letter to capitalize. -/
  | emptied {fuel : Nat} {orders : RenderOrder} {template : TextEffect} {text : String} :
      Produces ren ctx style fuel orders template text →
      style = .capitalize → unescapeVariableInections text = "" →
      Fails (fuel + 1) orders template

end

section
variable [UnicodeTables] {ren : Renderer} {ctx : Context} {style : CasingStyle}

/-! ## §2. Where a rendering stops. -/

theorem finishBody_cases (text : String) :
    (∃ body, finishBody style text = .success body)
      ∨ finishBody style text = .panicked ∧ style = .capitalize
        ∧ unescapeVariableInections text = "" := by
  unfold finishBody
  cases style with
  | capitalize =>
      cases hchars : (unescapeVariableInections text).toList with
      | nil =>
          refine Or.inr ⟨?_, rfl, String.toList_eq_nil_iff.mp hchars⟩
          simp only [applyCasing, hchars]
      | cons c cs =>
          refine Or.inl ⟨String.ofList (upperFirst c :: cs), ?_⟩
          simp only [applyCasing, hchars]
  | _ => exact Or.inl ⟨_, rfl⟩

theorem finishBody_capitalize {text : String} (hstyle : style = .capitalize)
    (hempty : unescapeVariableInections text = "") : finishBody style text = .panicked := by
  subst hstyle
  unfold finishBody
  rw [hempty]
  rfl

/-- **A loop ends or stops at one of its variables.** -/
theorem evalVariables_cases (render : Nat → TextEffect → Option RenderResult)
    (vars : List Variable) :
    (∃ scope, evalVariables ren ctx render 0 ∅ vars = some (.ok scope))
      ∨ ∃ pre var post scope, vars = pre ++ var :: post
        ∧ evalVariables ren ctx render 0 ∅ pre = some (.ok scope)
        ∧ ∀ output, evalVariable ren ctx (render pre.length) scope var ≠ some (.ok output) := by
  induction vars using List.reverseRecOn with
  | nil => exact Or.inl ⟨∅, rfl⟩
  | append_singleton vars var ih =>
      cases ih with
      | inl hends =>
          obtain ⟨scope, hscope⟩ := hends
          by_cases hvar : ∃ output,
              evalVariable ren ctx (render vars.length) scope var = some (.ok output)
          · obtain ⟨output, houtput⟩ := hvar
            exact Or.inl ⟨_, evalVariables_snoc hscope (by simpa using houtput)⟩
          · exact Or.inr ⟨vars, var, [], scope, rfl, hscope,
              fun output houtput => hvar ⟨output, houtput⟩⟩
      | inr hstops =>
          obtain ⟨pre, stop, post, scope, rfl, hpre, hstop⟩ := hstops
          exact Or.inr ⟨pre, stop, post ++ [var], scope, by simp, hpre, hstop⟩

section
variable {fuel : Nat} {orders : RenderOrder} {template : TextEffect} {pre : List Variable}
  {var : Variable} {scope : Scope}

/-- The loop stops with whatever stops it. -/
theorem ArrivesAt.exists_post (h : ArrivesAt ren ctx style fuel orders template pre var scope)
    (hstop : ∀ output, evalVariable ren ctx
      (renderTemplate ren ctx style fuel (orders.nested pre.length)) scope var
        ≠ some (.ok output)) :
    ∃ post, templateOrder ctx (orders []) template = some (.ok (pre ++ var :: post))
      ∧ templateLoop ren ctx style fuel orders (pre ++ var :: post)
        = (evalVariable ren ctx (renderTemplate ren ctx style fuel (orders.nested pre.length))
            scope var).map (·.map fun _ => scope) := by
  obtain ⟨hmatch, ⟨post, horder⟩, hloop⟩ := h
  refine ⟨post, horder, ?_⟩
  unfold templateLoop at hloop ⊢
  rw [evalVariables_append, hloop]
  simp only [evalVariables, Nat.zero_add]
  cases hvar : evalVariable ren ctx
      (renderTemplate ren ctx style fuel (orders.nested pre.length)) scope var with
  | none => rfl
  | some result =>
      cases result with
      | error result => rfl
      | ok output => exact absurd hvar (hstop output)

/-- An evaluation that stops the loop decides the rendering. -/
theorem ArrivesAt.renderTemplate_eq
    (h : ArrivesAt ren ctx style fuel orders template pre var scope) {result : RenderResult}
    (hvar : evalVariable ren ctx (renderTemplate ren ctx style fuel (orders.nested pre.length))
      scope var = some (.error result)) :
    renderTemplate ren ctx style (fuel + 1) orders template = some result := by
  obtain ⟨post, horder, hloop⟩ := h.exists_post (by simp [hvar])
  rw [hvar] at hloop
  exact renderTemplate_of_stop h.isMatch horder hloop

/-- A rendering that succeeds has evaluated every variable that it gets to, unless a form has
cut it short. -/
theorem ArrivesAt.evaluated (h : ArrivesAt ren ctx style fuel orders template pre var scope)
    {body : String}
    (hbody : renderTemplate ren ctx style (fuel + 1) orders template = some (.success body)) :
    (∃ output, evalVariable ren ctx
        (renderTemplate ren ctx style fuel (orders.nested pre.length)) scope var
          = some (.ok output))
      ∨ var.varType = .form := by
  cases hvar : evalVariable ren ctx
      (renderTemplate ren ctx style fuel (orders.nested pre.length)) scope var with
  | none =>
      obtain ⟨post, horder, hloop⟩ := h.exists_post (by simp [hvar])
      rw [hvar] at hloop
      unfold templateLoop at hloop
      rw [renderTemplate, if_pos h.isMatch] at hbody
      simp [horder, hloop] at hbody
  | some result =>
      cases result with
      | ok output => exact Or.inl ⟨output, rfl⟩
      | error result =>
          rw [h.renderTemplate_eq hvar, Option.some.injEq] at hbody
          subst hbody
          exact Or.inr (evalVariable_eq_success hvar).1

/-- What is produced, finished, is the result. -/
theorem Produces.renderTemplate_eq {text : String}
    (h : Produces ren ctx style fuel orders template text) :
    renderTemplate ren ctx style (fuel + 1) orders template = some (finishBody style text) := by
  cases h with
  | plain hmatch => rw [renderTemplate, if_neg (by simp [hmatch])]
  | substituted hmatch horder hloop htext =>
      exact renderTemplate_of_loop hmatch horder hloop htext

end

/-! ## §3. The faults are all there is. -/

/-- After a fault there is no success. -/
theorem Fails.not_success {fuel : Nat} {orders : RenderOrder} {template : TextEffect}
    (h : Fails ren ctx style fuel orders template) (body : String) :
    renderTemplate ren ctx style fuel orders template ≠ some (.success body) := by
  induction h generalizing body with
  | deep => simp [renderTemplate]
  | unordered hmatch horder =>
      rw [renderTemplate, if_pos hmatch]
      simp [horder]
  | unnamed harrives htype hsub =>
      intro hbody
      rcases harrives.evaluated hbody with ⟨output, hvar⟩ | hform
      · rcases evalVariable_ok_iff.mp hvar with ⟨_, sub, _, hsome, _⟩ | ⟨hother, _⟩
        · rw [hsub] at hsome
          cases hsome
        · exact hother htype
      · rw [htype] at hform
        cases hform
  | nested harrives htype hsub _ ih =>
      intro hbody
      rcases harrives.evaluated hbody with ⟨output, hvar⟩ | hform
      · rcases evalVariable_ok_iff.mp hvar with ⟨_, sub', body', hsub', hrender, _⟩ | ⟨hother, _⟩
        · rw [hsub, Option.some.injEq] at hsub'
          exact ih body' (hsub' ▸ hrender)
        · exact hother htype
      · rw [htype] at hform
        cases hform
  | uninjected harrives htype hparams =>
      intro hbody
      have hvar := harrives.renderTemplate_eq
        (by unfold evalVariable; rw [if_neg htype, hparams])
      rw [hvar] at hbody
      cases hbody
  | unanswered harrives htype hform hparams hresult =>
      intro hbody
      rcases harrives.evaluated hbody with ⟨output, hvar⟩ | hform'
      · rcases evalVariable_ok_iff.mp hvar with ⟨hmatch, _⟩ | ⟨_, params', hparams', houtput⟩
        · exact htype hmatch
        · rw [hparams, Except.ok.injEq] at hparams'
          rw [← hparams', hresult] at houtput
          cases houtput
      · exact hform hform'
  | unreadable hmatch horder hloop htext =>
      unfold templateLoop at hloop
      rw [renderTemplate, if_pos hmatch]
      simp [horder, hloop, htext]
  | emptied hproduces hstyle hempty =>
      rw [hproduces.renderTemplate_eq, finishBody_capitalize hstyle hempty]
      simp

/-- Without a success there is a fault. -/
theorem fails_of_not_success {fuel : Nat} {orders : RenderOrder} {template : TextEffect}
    (h : ∀ body, renderTemplate ren ctx style fuel orders template ≠ some (.success body)) :
    Fails ren ctx style fuel orders template := by
  induction fuel generalizing orders template with
  | zero => exact .deep
  | succ fuel ih =>
      have hproduced : ∀ text, Produces ren ctx style fuel orders template text →
          Fails ren ctx style (fuel + 1) orders template := by
        intro text hproduces
        rcases finishBody_cases text with ⟨body, hbody⟩ | ⟨_, hstyle, hempty⟩
        · exact absurd (hproduces.renderTemplate_eq.trans (congrArg some hbody)) (h body)
        · exact .emptied hproduces hstyle hempty
      by_cases hmatch : VarRegex.isMatch template.body = true
      swap
      · exact hproduced _ (.plain (by simpa using hmatch))
      obtain ⟨result, horder⟩ := exists_templateOrder ctx (orders []) template
      cases result with
      | error err => exact .unordered hmatch horder
      | ok vars =>
      rcases evalVariables_cases
          (fun index => renderTemplate ren ctx style fuel (orders.nested index)) vars with
        ⟨scope, hloop⟩ | ⟨pre, var, post, scope, rfl, hpre, hstop⟩
      · cases htext : renderVariables template.body scope with
        | error err => exact .unreadable hmatch horder hloop htext
        | ok text => exact hproduced _ (.substituted hmatch horder hloop htext)
      -- the loop stops at `var`
      · have harrives : ArrivesAt ren ctx style fuel orders template pre var scope :=
          ⟨hmatch, ⟨post, horder⟩, hpre⟩
        by_cases htype : var.varType = .match_
        · cases hsub : subTemplate ctx var with
          | none => exact .unnamed harrives htype hsub
          | some sub =>
              refine .nested harrives htype hsub (ih fun body hbody => ?_)
              exact hstop _ (evalVariable_ok_iff.mpr (.inl ⟨htype, sub, body, hsub, hbody, rfl⟩))
        · cases hparams : variableParams scope var with
          | error err => exact .uninjected harrives htype hparams
          | ok params =>
          cases hresult : calculate ren var.varType scope params with
          | ok output =>
              exact absurd (evalVariable_ok_iff.mpr (.inr ⟨htype, params, hparams, hresult⟩))
                (hstop output)
          | error result =>
              by_cases hform : var.varType = .form
              · -- a form ends the rendering with an empty text
                have hvar : evalVariable ren ctx
                    (renderTemplate ren ctx style fuel (orders.nested pre.length)) scope var
                      = some (.error (.success "")) := by
                  unfold evalVariable
                  rw [if_neg htype, hparams, hform]
                  rfl
                exact absurd (harrives.renderTemplate_eq hvar) (h "")
              · exact .unanswered harrives htype hform hparams hresult

/-- **A rendering succeeds if nothing goes wrong in it.** -/
theorem renderTemplate_success_iff {fuel : Nat} {orders : RenderOrder} {template : TextEffect} :
    (∃ body, renderTemplate ren ctx style fuel orders template = some (.success body))
      ↔ ¬ Fails ren ctx style fuel orders template := by
  constructor
  · intro h hfails
    obtain ⟨body, hbody⟩ := h
    exact hfails.not_success body hbody
  · intro hfails
    by_contra hnot
    exact hfails (fails_of_not_success fun body hbody => hnot ⟨body, hbody⟩)

end

end Shinran
