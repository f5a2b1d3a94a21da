/-
  Shinran.Render.RenderCorrect
  ────────────────────────────
  **A TEMPLATE THAT ORDERS ALSO RENDERS.**

  The scan of the body, the scan of the params and the injection into them
  are three traversals.  They agree: once `resolve_evaluation_order` has
  returned an order, neither an injection nor the final substitution can miss
  a variable.
-/
import Shinran.Render.Schedule

namespace Shinran

variable [UnicodeTables]

/-- **A template that orders also renders.**  If there is an evaluation order, everything
that is evaluated in it succeeds (in the scope that the variables before it leave), and
references to several outputs pick one of them, then the template renders.  No variable is
unresolved, and none takes the name of the body's node. -/
theorem renderTemplate_success (ren : Renderer) (ctx : Context) (fuel : Nat)
    (orders : RenderOrder) (template : TextEffect) (vars : List Variable)
    (hplain : ∀ var ∈ template.vars, var.varType ≠ .unresolved)
    (hbody : ∀ var ∈ template.vars ++ ctx.globalVars, var.name ≠ matchBody)
    (horder : resolveEvaluationOrder (orders [])
      (resolutionFuel template.vars ctx.globalVars) template.body template.vars ctx.globalVars
        = some (.ok vars))
    (heval : ∀ pre var post scope, vars = pre ++ var :: post →
      evalVariables ren ctx
        (fun index => renderTemplate ren ctx .none fuel (orders.nested index)) 0 ∅ pre
          = some (.ok scope) →
      EvaluatesWell ren ctx (renderTemplate ren ctx .none fuel (orders.nested pre.length))
        scope var)
    (hmultiple : ∀ pre post scope name results, vars = pre ++ post →
      evalVariables ren ctx
        (fun index => renderTemplate ren ctx .none fuel (orders.nested index)) 0 ∅ pre
          = some (.ok scope) →
      scope.lookup name = some (.multiple results) →
      ReferencedWithSubname template.body name
        ∧ ∀ var ∈ vars, var.injectVars = true → ∀ s, var.params.HasString s →
          ReferencedWithSubname s name) :
    ∃ body, renderTemplate ren ctx .none (fuel + 1) orders template = some (.success body) := by
  by_cases hmatch : VarRegex.isMatch template.body = true
  · have horder' : templateOrder ctx (orders []) template = some (.ok vars) := by
      rw [templateOrder, localVariables_eq hplain]
      exact horder
    obtain ⟨hvars, _⟩ := scheduled_of_ok horder
    -- the whole list is one of its prefixes
    obtain ⟨scope, hscope⟩ := evalVariables_ok hvars (closed_of_ok horder) heval
      (fun pre post scope name results heq hpre hlook =>
        (hmultiple pre post scope name results heq hpre hlook).2) vars [] (by simp)
    -- every reference in the body has been evaluated by the loop
    have hreadable : ∃ output, renderVariables template.body scope = .ok output := by
      rw [renderVariables_ok_iff]
      intro caps hcaps
      have hname : caps.name ∈ vars.map (·.name) :=
        body_closed_of_ok hbody horder caps.name (List.mem_map_of_mem hcaps)
      obtain ⟨output, houtput⟩ :=
        Option.isSome_iff_exists.mp (isSome_lookup_evalVariables hscope hname)
      refine ⟨output, houtput, fun results hresults => ?_⟩
      subst hresults
      exact (hmultiple vars [] scope caps.name results (by simp) hscope houtput).1 caps hcaps rfl
    obtain ⟨output, houtput⟩ := hreadable
    exact ⟨_, renderTemplate_of_loop hmatch horder' hscope houtput⟩
  · refine ⟨unescapeVariableInections template.body, ?_⟩
    unfold renderTemplate
    rw [if_neg hmatch]
    rfl

omit [UnicodeTables] in
/-- A global with several outputs, read through a subname by the params of a local. -/
theorem renderTemplate_success_user :
    ∃ body, @renderTemplate .ascii
      (let results : Extension := fun _ _ => .success (.multiple
        ((∅ : HashMap String String).insert "name" "Ada"))
      ⟨results, results, results, results, results, results⟩)
      (Context.default.insertGlobal { name := "host", varType := .shell })
      .none 1 (fun _ => .canonical)
      { body := "Hi \x7b\x7buser.name\x7d\x7d"
        vars := [{ name := "user", varType := .echo,
                   params := [("echo", .string "\x7b\x7bhost.name\x7d\x7d")] }] }
      = some (.success body) := by
  have hsubname : ∀ text ∈ ["Hi \x7b\x7buser.name\x7d\x7d", "\x7b\x7bhost.name\x7d\x7d"],
      ∀ caps ∈ @VarRegex.captures .ascii text, caps.subname.isSome := by decide
  refine @renderTemplate_success .ascii _ _ 0 _ _
    [{ name := "host", varType := .shell },
      { name := "user", varType := .echo,
        params := [("echo", .string "\x7b\x7bhost.name\x7d\x7d")] }]
    (by decide) (by decide) rfl ?_ ?_
  · intro pre var post scope heq _
    have hmem : var ∈ pre ++ var :: post := by simp
    rw [← heq, List.mem_pair] at hmem
    unfold EvaluatesWell
    -- both are answered by their extension
    obtain rfl | rfl := hmem
    · rw [if_neg (by decide)]
      exact fun _ _ => ⟨_, rfl⟩
    · rw [if_neg (by decide)]
      exact fun _ _ => ⟨_, rfl⟩
  · intro pre post scope name results _ _ _
    refine ⟨fun caps hcaps _ => hsubname _ (by simp) caps hcaps, ?_⟩
    intro var hvar _ s hs caps hcaps _
    obtain ⟨key, value, hmem, hs⟩ := hs
    have hs' : s = "\x7b\x7bhost.name\x7d\x7d" := by
      rw [List.mem_pair] at hvar
      obtain rfl | rfl := hvar
      · simp at hmem
      · rw [List.mem_singleton, Prod.mk.injEq] at hmem
        rw [hmem.2] at hs
        cases hs
        rfl
    rw [hs'] at hcaps
    exact hsubname _ (by simp) caps hcaps

end Shinran
