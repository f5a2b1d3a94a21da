/-
  Shinran.Render.ExtensionPanics
  ──────────────────────────────
  **WHICH MATCHES MAKE AN EXTENSION PANIC.**

  The extensions of `Renderer::new` on a system that changes from call to call.
  An extension gets the params of its variable with the outputs of other
  variables injected, but injection keeps the shape of params, so whether a
  script or a command panics is decided by the params as they are written.

    • `Variable.Sound`        — the params of the variable do not make its
                                extension panic,
    • `answer_ends_iff`       — which decides it for whatever is injected,
    • `panics_of_rendering`   — in a rendering an extension panics only at such
                                a variable, and it does not get past one.
-/
import Shinran.Render.Calls
import Shinran.Render.Extensions
import Shinran.Render.Injection

namespace Shinran

open Inquiry

variable [UnicodeTables] {δ τ : Type}

/-! ## §1. The extensions of a renderer. -/

/-- What `Renderer::new` makes; the other extensions have no data. -/
structure Extensions where
  shellExtension : ShellExtension
  scriptExtension : ScriptExtension

omit [UnicodeTables] in
/-- `Renderer::new`. -/
def Extensions.new (basePath homePath packagesPath : String) : Extensions where
  shellExtension := ⟨basePath⟩
  scriptExtension := ⟨homePath, basePath, packagesPath⟩

/-- What an extension answers on the system of the moment of the call.  No two calls are at the
same position. -/
def Extensions.answer (extensions : Extensions) (runtimes : List Nat → ExtensionRuntime δ τ)
    (call : ExtensionCall) : Except ExtensionPanic ExtensionResult :=
  match call.varType with
  | .date => DateExtension.calculate (runtimes call.position) call.params
  | .echo => EchoExtension.calculate call.params
  | .shell => extensions.shellExtension.calculate (runtimes call.position) call.scope call.params
  | .script => extensions.scriptExtension.calculate (runtimes call.position) call.scope call.params
  | .random => RandomExtension.calculate (runtimes call.position) call.params
  -- `NoOpExtension`
  | .mock => .ok .aborted
  -- these are not asked
  | .form | .unresolved | .match_ => .ok .aborted

/-- `render_template` with these extensions. -/
def Extensions.render (extensions : Extensions) (runtimes : List Nat → ExtensionRuntime δ τ)
    (ctx : Context) (style : CasingStyle) (fuel : Nat) (orders : RenderOrder)
    (template : TextEffect) : Except ExtensionPanic (Option RenderResult) :=
  (Rendering.renderTemplate ctx style fuel [] orders template).attempt
    (extensions.answer runtimes)

/-! ## §2. Params and injection. -/

section Injected

variable {scope : Scope} {params params' : Params}

/-- What is under a key is injected. -/
theorem FieldsInjected.get (h : FieldsInjected scope params params') (key : String) :
    (params.get key = none ∧ params'.get key = none)
      ∨ ∃ value value', params.get key = some value ∧ params'.get key = some value'
        ∧ ValueInjected scope value value' := by
  induction params generalizing params' with
  | nil =>
      cases h
      exact .inl ⟨rfl, rfl⟩
  | cons field params ih =>
      cases h with
      | @cons key' value value' _ fields' hvalue hfields =>
          unfold Params.get
          rw [List.find?_cons, List.find?_cons]
          by_cases hkey : key' == key
          · simp only [hkey]
            exact .inr ⟨value, value', rfl, rfl, hvalue⟩
          · simp only [hkey]
            exact ih hfields

theorem ArrayInjected.exists_string {values values' : List Value}
    (h : ArrayInjected scope values values') :
    (∃ s, Value.string s ∈ values) ↔ ∃ s, Value.string s ∈ values' := by
  induction values generalizing values' with
  | nil =>
      cases h
      exact Iff.rfl
  | cons value values ih =>
      cases h with
      | cons hvalue hvalues =>
          have htail := ih hvalues
          simp only [List.mem_cons, exists_or] at htail ⊢
          rw [htail]
          refine or_congr_left ?_
          cases hvalue with
          | string => simp
          | null | bool | number | array | object => simp

/-- **A program is written before and after.** -/
theorem FieldsInjected.hasProgram_iff (h : FieldsInjected scope params params') :
    HasProgram params ↔ HasProgram params' := by
  unfold HasProgram
  rcases h.get "args" with ⟨hnone, hnone'⟩ | ⟨value, value', hvalue, hvalue', hinjected⟩
  · simp [hnone, hnone']
  · rw [hvalue, hvalue']
    cases hinjected with
    | array harray =>
        simp only [Option.some.injEq, Value.array.injEq, forall_eq']
        exact harray.exists_string
    | null | bool | number | string | object => simp

/-- There is a text under the key before and after. -/
theorem FieldsInjected.exists_string (h : FieldsInjected scope params params') (key : String) :
    (∃ s, params.get key = some (.string s)) ↔ ∃ s, params'.get key = some (.string s) := by
  rcases h.get key with ⟨hnone, hnone'⟩ | ⟨value, value', hvalue, hvalue', hinjected⟩
  · simp [hnone, hnone']
  · rw [hvalue, hvalue']
    cases hinjected with
    | null | bool | number | string | array | object => simp

omit [UnicodeTables] in
theorem shellKnown_iff {runtime : ExtensionRuntime δ τ} : ShellKnown runtime params
    ↔ ((∃ cmd, params.get "cmd" = some (.string cmd)) →
      (∃ s, params.get "shell" = some (.string s)) ∨ runtime.targetOs ≠ .other) :=
  ⟨fun h ⟨cmd, hcmd⟩ => h cmd hcmd, fun h cmd hcmd => h ⟨cmd, hcmd⟩⟩

/-- **A shell is named before and after.** -/
theorem FieldsInjected.shellKnown_iff (h : FieldsInjected scope params params')
    {runtime : ExtensionRuntime δ τ} : ShellKnown runtime params ↔ ShellKnown runtime params' := by
  rw [Shinran.shellKnown_iff, Shinran.shellKnown_iff, h.exists_string "cmd",
    h.exists_string "shell"]

/-- Offsets are written as numbers, and stay what they are. -/
theorem FieldsInjected.integer_iff (h : FieldsInjected scope params params') (key : String)
    (i : Int64) : params.get key = some (.number (.integer i))
      ↔ params'.get key = some (.number (.integer i)) := by
  rcases h.get key with ⟨hnone, hnone'⟩ | ⟨value, value', hvalue, hvalue', hinjected⟩
  · simp [hnone, hnone']
  · rw [hvalue, hvalue']
    cases hinjected with
    | null | bool | number | string | array | object => simp

omit [UnicodeTables] in
theorem ShiftsTo.congr {runtime : ExtensionRuntime δ τ} {date : δ}
    (h : ShiftsTo runtime params date)
    (hsame : ∀ i, params.get "offset" = some (.number (.integer i))
      ↔ params'.get "offset" = some (.number (.integer i))) : ShiftsTo runtime params' date := by
  cases h with
  | unchanged hnot => exact .unchanged fun i hi => hnot i ((hsame i).mpr hi)
  | shifted hi hseconds hadd => exact .shifted ((hsame _).mp hi) hseconds hadd

omit [UnicodeTables] in
/-- What a date comes to depends on its offset, its format and its locale. -/
theorem DatePrintable.congr {runtime : ExtensionRuntime δ τ} (h : DatePrintable runtime params)
    (hoffset : ∀ i, params.get "offset" = some (.number (.integer i))
      ↔ params'.get "offset" = some (.number (.integer i)))
    (hformat : ∀ s, params.get "format" = some (.string s)
      ↔ params'.get "format" = some (.string s))
    (hlocale : params.getString "locale" = params'.getString "locale") :
    DatePrintable runtime params' := by
  obtain ⟨date, hshifts, hwritten, hunwritten⟩ := h
  refine ⟨date, hshifts.congr hoffset, fun format hget => ?_, fun hnot => ?_⟩
  · unfold dateLocale at hwritten ⊢
    rw [← hlocale]
    exact hwritten format ((hformat format).mpr hget)
  · exact hunwritten fun format hget => hnot format ((hformat format).mp hget)

/-- The text under the key, if there is one, is what it renders to. -/
def Params.LiteralAt (params : Params) (key : String) : Prop :=
  ∀ s, params.get key = some (.string s) →
    ∀ scope text, renderVariables s scope = .ok text → text = s

theorem Params.LiteralAt.string_iff {key : String} (h : params.LiteralAt key)
    (hinjected : FieldsInjected scope params params') (s : String) :
    params.get key = some (.string s) ↔ params'.get key = some (.string s) := by
  rcases hinjected.get key with ⟨hnone, hnone'⟩ | ⟨value, value', hvalue, hvalue', hinjected⟩
  · simp [hnone, hnone']
  · rw [hvalue, hvalue']
    cases hinjected with
    | @string text text' hrender => rw [h text hvalue scope text' hrender]
    | null | bool | number | array | object => simp

theorem Params.LiteralAt.getString_eq {key : String} (h : params.LiteralAt key)
    (hinjected : FieldsInjected scope params params') :
    params.getString key = params'.getString key := by
  refine Option.ext fun s => ?_
  rw [getString_eq_some, getString_eq_some]
  exact h.string_iff hinjected s

end Injected

/-! ## §3. Variables. -/

/-- The format and the locale of a date hold no references. -/
def Variable.LiteralDate (var : Variable) : Prop :=
  var.varType = .date → var.params.LiteralAt "format" ∧ var.params.LiteralAt "locale"

omit [UnicodeTables] in
/-- As it is written, the variable does not make its extension panic. -/
def Variable.Sound (runtime : ExtensionRuntime δ τ) (var : Variable) : Prop :=
  match var.varType with
  | .date => DatePrintable runtime var.params
  | .shell => ShellKnown runtime var.params
  | .script => HasProgram var.params
  | .echo | .random | .mock | .form | .unresolved | .match_ => True

/-- **The params as they are written decide whether a call panics**, whatever is injected. -/
theorem answer_ends_iff {extensions : Extensions} {runtimes : List Nat → ExtensionRuntime δ τ}
    {call : ExtensionCall} {var : Variable} (hliteral : var.LiteralDate)
    (htype : call.varType = var.varType)
    (hparams : variableParams call.scope var = .ok call.params) :
    Ends (extensions.answer runtimes call) ↔ var.Sound (runtimes call.position) := by
  have hcases : call.params = var.params ∨ FieldsInjected call.scope var.params call.params := by
    unfold variableParams at hparams
    split at hparams
    · exact .inr (injectVariablesIntoFields_eq_ok.mp hparams)
    · exact .inl (Except.ok.inj hparams).symm
  unfold Extensions.answer Variable.Sound
  rw [htype]
  cases hvar : var.varType with
  | echo => exact iff_of_true EchoExtension.ends trivial
  | random => exact iff_of_true (RandomExtension.ends _) trivial
  | mock | form | unresolved | match_ => exact iff_of_true ⟨_, rfl⟩ trivial
  | script =>
      show Ends (extensions.scriptExtension.calculate _ _ _) ↔ HasProgram var.params
      rw [ScriptExtension.ends_iff]
      rcases hcases with heq | hinjected
      · rw [heq]
      · exact hinjected.hasProgram_iff.symm
  | shell =>
      show Ends (extensions.shellExtension.calculate _ _ _) ↔ ShellKnown _ var.params
      rw [ShellExtension.ends_iff]
      rcases hcases with heq | hinjected
      · rw [heq]
      · exact hinjected.shellKnown_iff.symm
  | date =>
      show Ends (DateExtension.calculate _ _) ↔ DatePrintable _ var.params
      rw [DateExtension.ends_iff]
      rcases hcases with heq | hinjected
      · rw [heq]
      · obtain ⟨hformat, hlocale⟩ := hliteral hvar
        constructor
        · intro h
          exact h.congr (fun i => (hinjected.integer_iff "offset" i).symm)
            (fun s => (hformat.string_iff hinjected s).symm) (hlocale.getString_eq hinjected).symm
        · intro h
          exact h.congr (hinjected.integer_iff "offset") (hformat.string_iff hinjected)
            (hlocale.getString_eq hinjected)

/-! ## §4. Renderings. -/

section Renderings

variable {ctx : Context} {style : CasingStyle} {fuel : Nat} {orders : RenderOrder}
  {template : TextEffect}

/-- What holds of all variables of a context and a template holds of those that are evaluated. -/
theorem VariablesAt.all {p : Variable → Prop} (hctx : ctx.AllVars p)
    (htemplate : ∀ var ∈ template.vars, p var) {path : List Nat} {sub : TextEffect}
    {vars : List Variable} (h : VariablesAt ctx orders template path sub vars) :
    ∀ var ∈ vars, p var := by
  induction path generalizing orders template with
  | nil =>
      obtain ⟨rfl, -, horder⟩ := h
      exact fun var hvar => (mem_of_templateOrder horder hvar).elim (htemplate var) (hctx.1 var)
  | cons index path ih =>
      obtain ⟨_, _, next, _, _, _, _, hsub, hinner⟩ := h
      exact ih (hctx.subTemplate hsub) hinner

/-- A path leads to one template, and to one order of its variables. -/
theorem VariablesAt.unique {path : List Nat} {sub sub' : TextEffect} {vars vars' : List Variable}
    (h : VariablesAt ctx orders template path sub vars)
    (h' : VariablesAt ctx orders template path sub' vars') : vars = vars' := by
  induction path generalizing orders template with
  | nil =>
      obtain ⟨rfl, -, horder⟩ := h
      obtain ⟨rfl, -, horder'⟩ := h'
      rw [horder] at horder'
      exact Except.ok.inj (Option.some.inj horder')
  | cons index path ih =>
      obtain ⟨outer, var, next, -, horder, hvar, -, hsub, hinner⟩ := h
      obtain ⟨outer', var', next', -, horder', hvar', -, hsub', hinner'⟩ := h'
      rw [horder] at horder'
      obtain rfl := Except.ok.inj (Option.some.inj horder')
      rw [hvar] at hvar'
      obtain rfl := Option.some.inj hvar'
      rw [hsub] at hsub'
      obtain rfl := Option.some.inj hsub'
      exact ih hinner hinner'

/-- **Which matches make an extension panic.**  Let the extensions be those of `Renderer::new`, on a
system that changes from call to call, and let the formats and locales of dates hold no references.
An extension panics in a rendering only at a variable that is not sound as it is written; and a
rendering that succeeds has not got past one, unless a form cuts it short.  The panics of the
renderer itself are outcomes of it here, and not among these. -/
theorem panics_of_rendering (extensions : Extensions)
    (runtimes : List Nat → ExtensionRuntime δ τ) (hctx : ctx.AllVars Variable.LiteralDate)
    (htemplate : ∀ var ∈ template.vars, var.LiteralDate) :
    (∀ panic, extensions.render runtimes ctx style fuel orders template = .error panic →
      ∃ path sub vars index, ∃ var : Variable, VariablesAt ctx orders template path sub vars
        ∧ vars[index]? = some var ∧ ¬ var.Sound (runtimes (path ++ [index])))
    ∧ ∀ body, extensions.render runtimes ctx style fuel orders template
        = .ok (some (.success body)) → NoForms ctx orders template →
      ∀ path sub vars index, ∀ var : Variable, VariablesAt ctx orders template path sub vars →
        vars[index]? = some var → var.Sound (runtimes (path ++ [index])) := by
  have hends : ∀ {calls : CallLog} {result : Option RenderResult},
      (Rendering.renderTemplate ctx style fuel [] orders template).Returns calls result →
      ∀ entry ∈ calls, ∃ path sub vars index, ∃ var : Variable,
        VariablesAt ctx orders template path sub vars ∧ vars[index]? = some var
        ∧ entry.1.position = path ++ [index]
        ∧ (Ends (extensions.answer runtimes entry.1)
          ↔ var.Sound (runtimes (path ++ [index]))) := by
    intro calls result hreturns entry hentry
    obtain ⟨path, sub, vars, index, var, hvars, hcall⟩ :=
      Rendering.explained_renderTemplate style fuel [] orders template calls _ hreturns entry hentry
    have hliteral := hvars.all hctx htemplate var (List.mem_of_getElem? hcall.listed)
    have hiff := @answer_ends_iff _ _ _ extensions runtimes _ _ hliteral hcall.varType
      hcall.params
    have hposition : entry.1.position = path ++ [index] := hcall.position
    rw [hposition] at hiff
    exact ⟨path, sub, vars, index, var, hvars, hcall.listed, hposition, hiff⟩
  constructor
  · intro panic h
    obtain ⟨calls, result, hreturns, entry, hentry, herror⟩ :=
      Program.exists_of_attempt_error (fun _ => ExtensionResult.aborted) h
    obtain ⟨path, sub, vars, index, var, hvars, hlisted, -, hiff⟩ := hends hreturns entry hentry
    refine ⟨path, sub, vars, index, var, hvars, hlisted, fun hsound => ?_⟩
    obtain ⟨answer, hanswer⟩ := hiff.mpr hsound
    rw [herror] at hanswer
    cases hanswer
  · intro body h hforms path sub vars index var hvars hlisted
    obtain ⟨calls, hreturns, hanswers⟩ := Program.exists_of_attempt_ok h
    by_cases htype : var.varType = .match_
    · unfold Variable.Sound
      rw [htype]
      trivial
    · have hall := Rendering.complete_renderTemplate style fuel [] orders template hforms calls _
        hreturns body rfl
      obtain ⟨entry, hentry, hposition⟩ := hall path sub vars index var hvars hlisted htype
      obtain ⟨path', sub', vars', index', var', hvars', hlisted', hposition', hiff⟩ :=
        hends hreturns entry hentry
      -- there is one variable at this position
      rw [List.nil_append, hposition'] at hposition
      obtain ⟨rfl, hlast⟩ := List.append_inj' hposition rfl
      obtain rfl := List.singleton_inj.mp hlast
      obtain rfl := hvars.unique hvars'
      rw [hlisted] at hlisted'
      obtain rfl := Option.some.inj hlisted'
      exact hiff.mp ⟨_, hanswers entry hentry⟩

end Renderings

/-- A script that is given what another variable has come to. -/
def saying : TextEffect where
  body := "\x7b\x7bgreet\x7d\x7d"
  vars := [{ name := "who", varType := .echo, params := [("echo", .string "Ada")] },
    { name := "greet", varType := .script,
      params := [("args", .array [.string "say", .string "\x7b\x7bwho\x7d\x7d"])] }]

omit [UnicodeTables] in
/-- It does not panic, whoever is greeted. -/
theorem panics_of_rendering_saying :
    ∃ result, @Extensions.render .ascii _ _ (.new "" "" "") (fun _ => stillRuntime) .default .none
      1 (fun _ => .canonical) saying = .ok result := by
  have hliteral : ∀ var ∈ saying.vars, @Variable.LiteralDate .ascii var := by
    intro var hvar
    rcases List.mem_pair.mp hvar with rfl | rfl
    · exact nofun
    · exact nofun
  obtain ⟨hpanic, -⟩ := @panics_of_rendering .ascii _ _ .default .none 1 (fun _ => .canonical)
    saying (.new "" "" "") (fun _ => stillRuntime) (allVars_default _) hliteral
  cases hrender : @Extensions.render .ascii _ _ (.new "" "" "") (fun _ => stillRuntime) .default
    .none 1 (fun _ => .canonical) saying with
  | ok result => exact ⟨result, rfl⟩
  | error panic =>
      obtain ⟨path, sub, vars, index, var, hvars, hlisted, hunsound⟩ := hpanic panic hrender
      refine absurd ?_ hunsound
      refine @VariablesAt.all .ascii _ _ _ (fun var => var.Sound stillRuntime)
        (allVars_default _) ?_ _ _ _ hvars var (List.mem_of_getElem? hlisted)
      intro var hvar
      rcases List.mem_pair.mp hvar with rfl | rfl
      · trivial
      · intro values hvalues
        cases hvalues
        exact ⟨"say", List.mem_cons_self⟩

end Shinran
