/-
  Shinran.Render.Termination
  ──────────────────────────
  **WHEN RENDERING ENDS.**

  The variables of one template are checked for cycles; the matches that
  templates name in each other are not.  `Calls system ctx style t t'` says that
  rendering `t` can get to the nested match `t'`: in some hash order `t'` is
  named by a variable, and those before it may all come to texts.

    • `outlasts_renderTemplate` — more fuel never changes a result,
    • `renderTemplate_ends`    — no endless chain of calls, no endless
                                 rendering,
    • `renders_forever`        — and along an endless chain there are moments
                                 and hash orders that never come to an end,
    • `renderTemplate_ends_iff` — so exactly the cycles of `Calls` are endless.
-/
import Shinran.DepthFirst.Walks
import Shinran.Render.Outcomes

namespace Shinran

open Inquiry Relation

variable [UnicodeTables] {δ τ : Type}

/-! ## §1. Calls. -/

/-- Rendering the first template can get to the second, as a nested match: whatever is evaluated
before it may come to texts. -/
def Calls (system : ExtensionRuntime δ τ) (ctx : Context) (style : CasingStyle)
    (template sub : TextEffect) : Prop :=
  VarRegex.isMatch template.body = true ∧ ∃ order evaluated var post,
    templateOrder ctx order template = some (.ok (evaluated.map (·.1) ++ var :: post))
      ∧ MayEvaluate system ctx style evaluated
      ∧ var.varType = .match_ ∧ subTemplate ctx var = some sub

/-! ## §2. More fuel. -/

section Fuel

variable {answers : ExtensionCall → Except ExtensionPanic ExtensionResult} {ctx : Context}

/-- The second rendering is over as the first is, if that is. -/
def Outlasts (answers : ExtensionCall → Except ExtensionPanic ExtensionResult) {α : Type}
    (longer shorter : Rendering (Option α)) : Prop :=
  shorter.attempt answers ≠ .ok none → longer.attempt answers = shorter.attempt answers

theorem outlasts_evalVariable {render render' : TextEffect → Rendering (Option RenderResult)}
    (hrender : ∀ sub, Outlasts answers (render' sub) (render sub)) (position : List Nat)
    (scope : Scope) (var : Variable) :
    Outlasts answers (Rendering.evalVariable ctx render' position scope var)
      (Rendering.evalVariable ctx render position scope var) := by
  unfold Rendering.evalVariable
  split
  · cases subTemplate ctx var with
    | none => exact fun _ => rfl
    | some sub =>
        intro h
        simp only [Program.attempt_map] at h ⊢
        rw [hrender sub fun hnone => h (by rw [hnone]; rfl)]
  · exact fun _ => rfl

theorem outlasts_evalVariables
    {render render' : Nat → TextEffect → Rendering (Option RenderResult)}
    (hrender : ∀ index sub, Outlasts answers (render' index sub) (render index sub))
    (base : List Nat) (vars : List Variable) (index : Nat) (scope : Scope) :
    Outlasts answers (Rendering.evalVariables ctx render' base index scope vars)
      (Rendering.evalVariables ctx render base index scope vars) := by
  induction vars generalizing index scope with
  | nil => exact fun _ => rfl
  | cons var vars ih =>
      intro h
      have hvar := @outlasts_evalVariable _ answers ctx _ _ (hrender index) (base ++ [index]) scope
        var
      unfold Rendering.evalVariables at h ⊢
      rw [Program.attempt_bind] at h ⊢
      rw [Program.attempt_bind, hvar fun hnone => h (by rw [hnone]; rfl)]
      cases hfirst : (Rendering.evalVariable ctx (render index) (base ++ [index]) scope
          var).attempt answers with
      | error panic => rfl
      | ok result =>
          rw [hfirst] at h
          cases result with
          | none => rfl
          | some result =>
              cases result with
              | error stop => rfl
              | ok output => exact ih (index + 1) _ h

/-- **More fuel never changes a result**, or a panic. -/
theorem outlasts_renderTemplate {style : CasingStyle} {fuel fuel' : Nat} (hle : fuel ≤ fuel')
    (base : List Nat) (orders : RenderOrder) (template : TextEffect) :
    Outlasts answers (Rendering.renderTemplate ctx style fuel' base orders template)
      (Rendering.renderTemplate ctx style fuel base orders template) := by
  induction fuel generalizing fuel' base orders template with
  | zero => exact fun h => absurd rfl h
  | succ fuel ih =>
      obtain ⟨fuel', rfl⟩ := Nat.exists_eq_add_one.mpr (Nat.lt_of_lt_of_le fuel.succ_pos hle)
      unfold Rendering.renderTemplate
      split
      · cases templateOrder ctx (orders []) template with
        | none => exact fun _ => rfl
        | some result =>
            cases result with
            | error err => exact fun _ => rfl
            | ok vars =>
                intro h
                simp only [Program.attempt_map] at h ⊢
                rw [outlasts_evalVariables (fun index sub =>
                    ih (Nat.le_of_succ_le_succ hle) (base ++ [index]) (orders.nested index) sub)
                  base vars 0 ∅ fun hnone => h (by rw [hnone]; rfl)]
      · exact fun _ => rfl

/-- The loop of a template, with its nested renderings. -/
theorem outlasts_loop {style : CasingStyle} {fuel fuel' : Nat} (hle : fuel ≤ fuel')
    (base : List Nat) (orders : Nat → RenderOrder) (vars : List Variable) :
    Outlasts answers
      (Rendering.evalVariables ctx (fun index => Rendering.renderTemplate ctx style fuel'
        (base ++ [index]) (orders index)) base 0 ∅ vars)
      (Rendering.evalVariables ctx (fun index => Rendering.renderTemplate ctx style fuel
        (base ++ [index]) (orders index)) base 0 ∅ vars) :=
  outlasts_evalVariables (fun index sub =>
    outlasts_renderTemplate hle (base ++ [index]) (orders index) sub) base vars 0 ∅

end Fuel

/-! ## §3. No endless chain of calls, no endless rendering. -/

section Ends

variable {answers : ExtensionCall → Except ExtensionPanic ExtensionResult}
  {system : ExtensionRuntime δ τ} {ctx : Context} {style : CasingStyle}

omit [UnicodeTables] in
/-- What is made of something that is over is over. -/
theorem map_ne_none {ε α β : Type} {x : Except ε (Option α)} {f : α → β} (h : x ≠ .ok none) :
    x.map (Option.map f) ≠ .ok none := by
  intro hnone
  obtain ⟨result, hresult, heq⟩ := map_eq_ok_iff.mp hnone
  exact h (Option.map_eq_none_iff.mp heq ▸ hresult)

/-- One variable is over, if its nested match is. -/
theorem exists_evalVariable (orders : RenderOrder) (position : List Nat) (scope : Scope)
    {var : Variable} (hnested : ∀ sub, var.varType = .match_ → subTemplate ctx var = some sub →
      ∃ fuel, (Rendering.renderTemplate ctx style fuel position orders sub).attempt answers
        ≠ .ok none) :
    ∃ fuel, (Rendering.evalVariable ctx
        (Rendering.renderTemplate ctx style fuel position orders) position scope var).attempt
      answers ≠ .ok none := by
  by_cases hmatch : var.varType = .match_
  · cases hsub : subTemplate ctx var with
    | none =>
        refine ⟨0, ?_⟩
        rw [Rendering.evalVariable, if_pos hmatch, hsub]
        exact fun h => by cases h
    | some sub =>
        obtain ⟨fuel, hfuel⟩ := hnested sub hmatch hsub
        refine ⟨fuel, ?_⟩
        rw [Rendering.evalVariable, if_pos hmatch, hsub]
        rw [Program.attempt_map]
        exact map_ne_none hfuel
  · refine ⟨0, ?_⟩
    rw [Rendering.evalVariable, if_neg hmatch]
    cases variableParams scope var with
    | error err => exact fun h => by cases h
    | ok params =>
        simp only [Program.attempt_map]
        cases (Rendering.calculate position var.varType scope params).attempt answers <;>
          exact fun h => by cases h

/-- A loop that does not succeed with its first variables gets no further. -/
theorem attempt_loop_append {render : Nat → TextEffect → Rendering (Option RenderResult)}
    {base : List Nat} {pre post : List Variable}
    (h : ∀ scope, (Rendering.evalVariables ctx render base 0 ∅ pre).attempt answers
      ≠ .ok (some (.ok scope))) :
    (Rendering.evalVariables ctx render base 0 ∅ (pre ++ post)).attempt answers
      = (Rendering.evalVariables ctx render base 0 ∅ pre).attempt answers := by
  rw [Rendering.evalVariables_append, Program.attempt_bind]
  cases hpre : (Rendering.evalVariables ctx render base 0 ∅ pre).attempt answers with
  | error panic => rfl
  | ok result =>
      cases result with
      | none => rfl
      | some result =>
          cases result with
          | error stop => rfl
          | ok scope => exact absurd hpre (h scope)

/-- What a loop has evaluated. -/
theorem mayEvaluate_of_attempt (hsystem : OnSystem system answers) {fuel : Nat} {base : List Nat}
    {orders : Nat → RenderOrder} {vars : List Variable} {scope : Scope}
    (h : (Rendering.evalVariables ctx (fun index => Rendering.renderTemplate ctx style fuel
      (base ++ [index]) (orders index)) base 0 ∅ vars).attempt answers = .ok (some (.ok scope))) :
    ∃ evaluated, evaluated.map (·.1) = vars ∧ MayEvaluate system ctx style evaluated := by
  obtain ⟨calls, hreturns, hanswered⟩ := Program.exists_of_attempt_ok h
  obtain ⟨hok, _⟩ := ensures_mayEvaluate hsystem
    (fun index sub => ensures_mayRender hsystem fuel (base ++ [index]) (orders index) sub) vars 0 []
    mayEvaluate_nil calls _ hreturns hanswered
  obtain ⟨evaluated, hvars, _, hevaluated⟩ := hok scope rfl
  exact ⟨evaluated, hvars, hevaluated⟩

/-- The loop is over, if the nested matches that it gets to are. -/
theorem exists_loop (hsystem : OnSystem system answers) {base : List Nat}
    {orders : Nat → RenderOrder} {vars : List Variable}
    (hnested : ∀ evaluated var post sub, vars = evaluated.map (·.1) ++ var :: post →
      MayEvaluate system ctx style evaluated → var.varType = .match_ →
      subTemplate ctx var = some sub → ∃ fuel, (Rendering.renderTemplate ctx style fuel
        (base ++ [evaluated.length]) (orders evaluated.length) sub).attempt answers ≠ .ok none) :
    ∀ pre post, vars = pre ++ post → ∃ fuel,
      (Rendering.evalVariables ctx (fun index => Rendering.renderTemplate ctx style fuel
        (base ++ [index]) (orders index)) base 0 ∅ pre).attempt answers ≠ .ok none := by
  intro pre
  -- variable by variable; the fuel is what the first ones and the next one need
  induction pre using List.reverseRecOn with
  | nil => exact fun _ _ => ⟨0, nofun⟩
  | append_singleton pre var ih =>
      intro post heq
      rw [List.append_assoc, List.singleton_append] at heq
      obtain ⟨fuel, hpre⟩ := ih (var :: post) heq
      by_cases hscope : ∃ scope, (Rendering.evalVariables ctx (fun index =>
          Rendering.renderTemplate ctx style fuel (base ++ [index]) (orders index)) base 0 ∅
          pre).attempt answers = .ok (some (.ok scope))
      · obtain ⟨scope, hscope⟩ := hscope
        obtain ⟨evaluated, rfl, hevaluated⟩ := mayEvaluate_of_attempt hsystem hscope
        obtain ⟨fuel', hvar⟩ := exists_evalVariable (orders evaluated.length)
          (base ++ [evaluated.length]) scope
          fun sub => hnested evaluated var post sub heq hevaluated
        refine ⟨max fuel fuel', ?_⟩
        have hscope' := (outlasts_loop (Nat.le_max_left fuel fuel') base orders _ hpre).trans hscope
        rw [Rendering.attempt_evalVariables_snoc hscope', List.length_map,
          outlasts_evalVariable (fun sub => outlasts_renderTemplate (Nat.le_max_right fuel fuel')
            _ _ sub) _ _ _ hvar]
        exact map_ne_none hvar
      · refine ⟨fuel, ?_⟩
        rw [attempt_loop_append fun scope h => hscope ⟨scope, h⟩]
        exact hpre

/-- **Where every chain of calls ends, rendering ends.** -/
theorem renderTemplate_ends (hsystem : OnSystem system answers) {template : TextEffect}
    (h : Acc (fun sub template => Calls system ctx style template sub) template) :
    ∀ base orders, ∃ fuel, (Rendering.renderTemplate ctx style fuel base orders template).attempt
      answers ≠ .ok none := by
  -- the induction is on the chains of calls, not on the fuel
  induction h with
  | intro template _ ih =>
      intro base orders
      by_cases hmatch : VarRegex.isMatch template.body = true
      · obtain ⟨r, horder⟩ := exists_templateOrder ctx (orders []) template
        cases r with
        | error err =>
            refine ⟨1, ?_⟩
            rw [Rendering.renderTemplate, if_pos hmatch, horder]
            exact fun h => by cases h
        | ok vars =>
            obtain ⟨fuel, hloop⟩ := exists_loop hsystem (fun evaluated var post sub heq hevaluated
              htype hsub => ih sub ⟨hmatch, orders [], evaluated, var, post, heq ▸ horder,
                hevaluated, htype, hsub⟩ (base ++ [evaluated.length])
                (orders.nested evaluated.length)) vars [] (by simp)
            refine ⟨fuel + 1, ?_⟩
            rw [Rendering.attempt_renderTemplate_succ hmatch horder]
            exact map_ne_none hloop
      · refine ⟨1, ?_⟩
        rw [Rendering.renderTemplate, if_neg hmatch]
        exact fun h => by cases h

end Ends

/-! ## §4. An endless chain of calls, followed to the end. -/

omit [UnicodeTables] in
/-- What is found along a chain: `next` follows the chain at the variable number `index`, and what
is nested elsewhere has data of its own. -/
def chain {σ β : Type*} (here : σ → β) (index : σ → Nat) (elsewhere : σ → Nat → List Nat → β)
    (next : σ → σ) : σ → List Nat → β
  | s, [] => here s
  | s, i :: path =>
      if i = index s then chain here index elsewhere next (next s) path else elsewhere s i path

omit [UnicodeTables] in
theorem forall_chain {σ β : Type*} {here : σ → β} {index : σ → Nat}
    {elsewhere : σ → Nat → List Nat → β} {next : σ → σ} {p : β → Prop} (hhere : ∀ s, p (here s))
    (helsewhere : ∀ s i path, p (elsewhere s i path)) (s : σ) (path : List Nat) :
    p (chain here index elsewhere next s path) := by
  induction path generalizing s with
  | nil => exact hhere s
  | cons i path ih =>
      unfold chain
      split
      · exact ih (next s)
      · exact helsewhere s i path

namespace Setting

variable {σ : Type} {system : ExtensionRuntime δ τ} (order : σ → HashOrder) (index : σ → Nat)
  {elsewhere : σ → Nat → Setting δ τ} (next : σ → σ)

omit [UnicodeTables] in
/-- What the setting says of a nested match. -/
def sub (setting : Setting δ τ) (i : Nat) : Setting δ τ :=
  ⟨setting.orders.nested i, fun path => setting.runtimes (i :: path)⟩

omit [UnicodeTables] in
theorem At.sub {setting : Setting δ τ} {base : List Nat}
    {runtimes : List Nat → ExtensionRuntime δ τ} (h : setting.At base runtimes) (i : Nat) :
    (setting.sub i).At (base ++ [i]) runtimes := by
  intro path
  rw [List.append_assoc]
  exact h (i :: path)

omit [UnicodeTables] in
/-- **A setting along a chain**: each template has an order of its own, and what is nested before
the call has its own setting. -/
theorem exists_along (hsystem : ∀ s i, (elsewhere s i).On system) :
    ∃ setting : σ → Setting δ τ, (∀ s, (setting s).On system)
      ∧ (∀ s, (setting s).orders [] = order s)
      ∧ (∀ s, (setting s).sub (index s) = setting (next s))
      ∧ ∀ s i, i < index s → (setting s).sub i = elsewhere s i := by
  refine ⟨fun s => ⟨chain order index (fun s i => (elsewhere s i).orders) next s,
    chain (fun _ => system) index (fun s i => (elsewhere s i).runtimes) next s⟩,
    fun s => forall_chain (fun _ => ⟨rfl, rfl⟩) hsystem s, fun _ => rfl, fun s => ?_,
    fun s i hi => ?_⟩
  · exact congrArg₂ Setting.mk (funext fun _ => if_pos rfl) (funext fun _ => if_pos rfl)
  · have hne := Nat.ne_of_lt hi
    exact congrArg₂ Setting.mk (funext fun _ => if_neg hne) (funext fun _ => if_neg hne)

end Setting

section Forever

variable {answers : ExtensionCall → Except ExtensionPanic ExtensionResult}
  {system : ExtensionRuntime δ τ} {ctx : Context} {style : CasingStyle}

/-- The loop asks for the nested renderings of its own variables only. -/
theorem Rendering.evalVariables_congr
    {render render' : Nat → TextEffect → Rendering (Option RenderResult)}
    {base : List Nat} (vars : List Variable) (index : Nat) (scope : Scope)
    (h : ∀ i, i < vars.length → render (index + i) = render' (index + i)) :
    Rendering.evalVariables ctx render base index scope vars
      = Rendering.evalVariables ctx render' base index scope vars := by
  induction vars generalizing index scope with
  | nil => rfl
  | cons var vars ih =>
      have hfirst : render index = render' index := h 0 (Nat.succ_pos _)
      unfold Rendering.evalVariables
      rw [hfirst]
      refine bind_congr fun result => ?_
      cases result with
      | none => rfl
      | some result =>
          cases result with
          | error stop => rfl
          | ok output =>
              refine ih (index + 1) _ fun i hi => ?_
              rw [Nat.add_assoc, Nat.add_comm 1 i]
              exact h (i + 1) (Nat.succ_lt_succ hi)

/-- A loop that gets to a nested match which is out of fuel is out of fuel. -/
theorem attempt_loop_eq_none {render : Nat → TextEffect → Rendering (Option RenderResult)}
    {base : List Nat} {pre post : List Variable} {var : Variable} {sub : TextEffect} {scope : Scope}
    (hpre : (Rendering.evalVariables ctx render base 0 ∅ pre).attempt answers
      = .ok (some (.ok scope)))
    (htype : var.varType = .match_) (hsub : subTemplate ctx var = some sub)
    (hrender : (render pre.length sub).attempt answers = .ok none) :
    (Rendering.evalVariables ctx render base 0 ∅ (pre ++ var :: post)).attempt answers
      = .ok none := by
  have hvar : (Rendering.evalVariable ctx (render pre.length) (base ++ [pre.length]) scope
      var).attempt answers = .ok none := by
    rw [Rendering.evalVariable, if_pos htype, hsub]
    simp only [Program.attempt_map, hrender]
    rfl
  rw [Rendering.evalVariables_append, Program.attempt_bind, hpre, ok_bind]
  simp only [Rendering.evalVariables, Nat.zero_add, Program.attempt_bind, hvar]
  rfl

/-- **One call further**: where the call is out of fuel, the template is, if with more fuel
everything before the call succeeds. -/
theorem attempt_eq_none_of_call {orders : RenderOrder} {template sub : TextEffect}
    {pre post : List Variable} {var : Variable} {fuel fuel' : Nat} {base : List Nat} {scope : Scope}
    (hmatch : VarRegex.isMatch template.body = true)
    (horder : templateOrder ctx (orders []) template = some (.ok (pre ++ var :: post)))
    (htype : var.varType = .match_) (hsub : subTemplate ctx var = some sub) (hle : fuel ≤ fuel')
    (hpre : (Rendering.evalVariables ctx (fun index => Rendering.renderTemplate ctx style fuel'
      (base ++ [index]) (orders.nested index)) base 0 ∅ pre).attempt answers = .ok (some (.ok scope)))
    (hcall : (Rendering.renderTemplate ctx style fuel (base ++ [pre.length])
      (orders.nested pre.length) sub).attempt answers = .ok none) :
    (Rendering.renderTemplate ctx style (fuel + 1) base orders template).attempt answers
      = .ok none := by
  rw [Rendering.attempt_renderTemplate_succ hmatch horder]
  by_cases hnone : (Rendering.evalVariables ctx (fun index => Rendering.renderTemplate ctx style
      fuel (base ++ [index]) (orders.nested index)) base 0 ∅ pre).attempt answers = .ok none
  · -- already the loop before the call is out of fuel
    have hfail : ∀ scope, _ ≠ Except.ok (some (Except.ok scope)) := fun scope hscope => by
      cases hnone.symm.trans hscope
    rw [attempt_loop_append hfail, hnone]
    rfl
  · -- it succeeds, as it does with more fuel
    rw [outlasts_loop hle base _ _ hnone] at hpre
    rw [attempt_loop_eq_none hpre htype hsub hcall]
    rfl

/-- One link of a chain: everything before the call comes to a text, in some settings. -/
theorem exists_link (extensions : Extensions) {template sub : TextEffect}
    (h : Calls system ctx style template sub) :
    VarRegex.isMatch template.body = true ∧ ∃ order evaluated var post,
      templateOrder ctx order template = some (.ok (evaluated.map (·.1) ++ var :: post))
        ∧ var.varType = .match_ ∧ subTemplate ctx var = some sub
        ∧ ∃ nested : Nat → Setting δ τ, (∀ index, (nested index).On system)
          ∧ ∃ fuel, ∀ fuel', fuel ≤ fuel' → ∀ base runtimes,
            (∀ index, index < evaluated.length → (nested index).At (base ++ [index]) runtimes) →
            (Rendering.evalVariables ctx (fun index => Rendering.renderTemplate ctx style fuel'
                (base ++ [index]) (nested index).orders) base 0 ∅ (evaluated.map (·.1))).attempt
              (extensions.answer runtimes) = .ok (some (.ok (outputScope evaluated))) := by
  obtain ⟨hmatch, order, evaluated, var, post, horder, hevaluated, htype, hsub⟩ := h
  exact ⟨hmatch, order, evaluated, var, post, horder, htype, hsub,
    exists_settings extensions hevaluated fun v text sub hmem hv hsub =>
      exists_setting extensions (hevaluated.nested v text sub hmem hv hsub)⟩

/-- **Along an endless chain of calls rendering never ends**, in some setting. -/
theorem renders_forever (extensions : Extensions) {template : TextEffect}
    (h : ¬ Acc (fun sub template => Calls system ctx style template sub) template) :
    ∃ setting : Setting δ τ, setting.On system ∧ ∀ fuel base runtimes, setting.At base runtimes →
      (Rendering.renderTemplate ctx style fuel base setting.orders template).attempt
        (extensions.answer runtimes) = .ok none := by
  have hlink : ∀ s : {t // ¬ Acc (fun sub template => Calls system ctx style template sub) t},
      ∃ next : {t // ¬ Acc (fun sub template => Calls system ctx style template sub) t},
        Calls system ctx style s.1 next.1 := by
    intro s
    by_contra hnone
    refine s.2 (.intro _ fun sub hsub => ?_)
    by_contra hacc
    exact hnone ⟨⟨sub, hacc⟩, hsub⟩
  choose next hnext using hlink
  choose hmatch order evaluated var post horder htype hsub elsewhere hsystem enough hloop using
    fun s => exists_link extensions (hnext s)
  obtain ⟨setting, hon, horders, hcall, helse⟩ :=
    Setting.exists_along order (fun s => (evaluated s).length) next hsystem
  refine ⟨setting ⟨template, h⟩, hon _, fun fuel => ?_⟩
  have hnever : ∀ s base runtimes, (setting s).At base runtimes →
      (Rendering.renderTemplate ctx style fuel base (setting s).orders s.1).attempt
        (extensions.answer runtimes) = .ok none := by
    -- on the fuel: each call of the chain has one unit less
    induction fuel with
    | zero => exact fun _ _ _ _ => rfl
    | succ fuel ih =>
        intro s base runtimes hat
        have hpre : (Rendering.evalVariables ctx (fun index => Rendering.renderTemplate ctx style
              (max fuel (enough s)) (base ++ [index]) ((setting s).orders.nested index)) base 0 ∅
              ((evaluated s).map (·.1))).attempt (extensions.answer runtimes)
            = .ok (some (.ok (outputScope (evaluated s)))) := by
          rw [← hloop s (max fuel (enough s)) (Nat.le_max_right _ _) base runtimes
            fun i hi => helse s i hi ▸ hat.sub i]
          refine congrArg (Program.attempt _) (Rendering.evalVariables_congr _ _ _ fun i hi => ?_)
          rw [List.length_map] at hi
          rw [Nat.zero_add, ← helse s i hi]
          rfl
        have hnext := ih (next s) (base ++ [(evaluated s).length]) runtimes
          (hcall s ▸ hat.sub (evaluated s).length)
        rw [← hcall s] at hnext
        refine attempt_eq_none_of_call (hmatch s) (horders s ▸ horder s) (htype s) (hsub s)
          (Nat.le_max_left _ _) hpre ?_
        rw [List.length_map]
        exact hnext
  exact hnever ⟨template, h⟩

end Forever

/-! ## §5. Exactly the cycles are endless. -/

/-- The text of a match that has one. -/
def MatchEffect.text? : MatchEffect → Option TextEffect
  | .text sub => some sub
  | _ => Option.none

omit [UnicodeTables] in
/-- A context has finitely many texts that can be nested. -/
theorem finite_subTemplates (ctx : Context) :
    {sub | ∃ var, subTemplate ctx var = some sub}.Finite := by
  refine (List.finite_toSet
    (ctx.matchesMap.entries.filterMap fun entry => entry.2.baseMatch.effect.text?)).subset ?_
  intro sub hsub
  obtain ⟨var, hsub⟩ := hsub
  unfold subTemplate at hsub
  split at hsub
  -- the text belongs to one of the matches of the context
  · rename_i heffect
    obtain ⟨m, hm, heffect⟩ := Option.map_eq_some_iff.mp heffect
    obtain ⟨trigger, _, hlook⟩ := Option.bind_eq_some_iff.mp hm
    exact List.mem_filterMap.mpr ⟨⟨trigger, m⟩, AList.mem_lookup_iff.mp hlook, by
      rw [heffect, MatchEffect.text?, hsub]⟩
  · cases hsub

/-- **Rendering ends exactly where no match leads back to itself.**  The extensions are those of
`Renderer::new`.  At all moments of the system, in all hash orders, the rendering of the template is
over after finitely many calls, with a result or with the panic of an extension, if and only if
none of the matches that it can get to, directly or through others, can get to itself again. -/
theorem renderTemplate_ends_iff (extensions : Extensions) (system : ExtensionRuntime δ τ)
    (ctx : Context) (style : CasingStyle) (template : TextEffect) :
    (∀ (runtimes : List Nat → ExtensionRuntime δ τ) (orders : RenderOrder),
        (∀ position, SameSystem system (runtimes position)) →
        ∃ fuel, extensions.render runtimes ctx style fuel orders template ≠ .ok none)
      ↔ ∀ sub, ReflTransGen (Calls system ctx style) template sub →
        ¬ TransGen (Calls system ctx style) sub sub := by
  have hfinite : {sub | ∃ t, Calls system ctx style t sub}.Finite := by
    refine (finite_subTemplates ctx).subset ?_
    intro sub hsub
    obtain ⟨_, _, _, _, var, _, _, _, _, hsub⟩ := hsub
    exact ⟨var, hsub⟩
  rw [← DepthFirst.acc_iff_acyclic hfinite]
  constructor
  · intro hends
    by_contra hacc
    obtain ⟨setting, hsystem, hnever⟩ := renders_forever extensions hacc
    obtain ⟨fuel, hfuel⟩ := hends setting.runtimes setting.orders hsystem
    exact hfuel (hnever fuel [] setting.runtimes fun _ => rfl)
  · intro hacc runtimes orders hsystem
    exact renderTemplate_ends (onSystem_answer extensions hsystem) hacc [] orders

/-- The match whose text is its own trigger's. -/
def selfMatch : TextEffect :=
  { body := "\x7b\x7bx\x7d\x7d"
    vars := [{ name := "x", varType := .match_, params := [("trigger", .string ":self")] }] }

/-- A context with that match. -/
def selfContext : Context :=
  { Context.default with
    matchesMap := (∅ : HashMap String TriggerMatch).insert ":self"
      { baseMatch := { effect := .text selfMatch }, triggers := [":self"] } }

omit [UnicodeTables] in
/-- **A match that refers to its own trigger is rendered for ever.** -/
theorem selfMatch_renders_forever : ¬ ∃ fuel,
    @Extensions.render .ascii _ _ (.new "" "" "") (fun _ => stillRuntime) selfContext .none fuel
      (fun _ => .canonical) selfMatch ≠ .ok none := by
  have hnever : ∀ fuel base, (@Rendering.renderTemplate .ascii selfContext .none fuel base
      (fun _ => .canonical) selfMatch).attempt
        (@Extensions.answer .ascii _ _ (.new "" "" "") fun _ => stillRuntime) = .ok none := by
    intro fuel
    induction fuel with
    | zero => exact fun _ => rfl
    | succ fuel ih =>
        intro base
        have horder : @templateOrder .ascii selfContext .canonical selfMatch
            = some (.ok selfMatch.vars) := rfl
        have hmatch : @VarRegex.isMatch .ascii selfMatch.body = true := by decide
        rw [@Rendering.attempt_renderTemplate_succ .ascii _ _ _ _ _ (fun _ => .canonical) _ _ hmatch
          horder]
        -- the loop gets to the match itself at once
        refine congrArg _ (@attempt_loop_eq_none .ascii _ _ _ _ [] [] _ selfMatch ∅ rfl rfl rfl ?_)
        exact ih _
  intro h
  obtain ⟨fuel, hfuel⟩ := h
  exact hfuel (hnever fuel [])

end Shinran
