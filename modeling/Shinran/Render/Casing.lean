/-
  Shinran.Render.Casing
  ─────────────────────
  **WHERE THE CASING STYLE ACTS.**

  The style is handed on to the nested renderings: each of them cases its own
  text, and the template around it then cases the whole.  So one template is
  cased once, but a text that comes from a nested match has been cased before.

    • `NestedAlike`         — the nested matches read the same in the style,
    • `casing_of_template`  — then casing the plain text is all it does; and it
                              acts once on the text of every template,
    • `casing_reaches_nested` — the text of a nested match is cased twice.
-/
import Shinran.Render.Failure
import Shinran.Render.Interference

namespace Shinran

/-! ## §1. The text of one template. -/

section
variable [UnicodeTables]

/-- Only the capital of an empty text is missing. -/
theorem exists_applyCasing (style : CasingStyle) {text : String} (htext : text ≠ "") :
    ∃ cased, applyCasing style text = some cased := by
  cases style with
  | none | uppercase | capitalizeWords => exact ⟨_, rfl⟩
  | capitalize =>
      cases hchars : text.toList with
      | nil => exact absurd (String.toList_eq_nil_iff.mp hchars) htext
      | cons c cs =>
          refine ⟨String.ofList (upperFirst c :: cs), ?_⟩
          simp only [applyCasing, hchars]

theorem finishBody_eq_success {style : CasingStyle} {text cased : String} :
    finishBody style text = .success cased
      ↔ applyCasing style (unescapeVariableInections text) = some cased := by
  unfold finishBody
  cases applyCasing style (unescapeVariableInections text) with
  | none => simp
  | some body => simp

section
variable {ren : Renderer} {ctx : Context} {style : CasingStyle} {fuel : Nat}
  {orders orders' : RenderOrder} {template : TextEffect}

theorem renderTemplate_of_plain (hplain : VarRegex.isMatch template.body = false) :
    renderTemplate ren ctx style (fuel + 1) orders template
      = some (finishBody style template.body) :=
  (Produces.plain hplain).renderTemplate_eq

/-- **A rendering that is not cut short by a form has cased the text that it produced**, once. -/
theorem renderTemplate_eq_cased_iff {cased : String} (hcased : cased ≠ "") :
    renderTemplate ren ctx style (fuel + 1) orders template = some (.success cased)
      ↔ ∃ text, Produces ren ctx style fuel orders template text
        ∧ applyCasing style (unescapeVariableInections text) = some cased := by
  constructor
  · intro h
    rcases renderTemplate_eq_success (fun hempty => absurd hempty hcased) h with
      ⟨hplain, hbody⟩ | ⟨hmatch, vars, scope, text, horder, hloop, htext, hbody⟩
    · exact ⟨_, .plain hplain, finishBody_eq_success.mp hbody⟩
    · exact ⟨text, .substituted hmatch horder hloop htext, finishBody_eq_success.mp hbody⟩
  · intro h
    obtain ⟨text, hproduces, hbody⟩ := h
    rw [hproduces.renderTemplate_eq, finishBody_eq_success.mpr hbody]

/-! ## §2. The nested matches. -/

/-- Each nested match that both renderings get to, the one without a style and the one with it,
has the same text in both. -/
def NestedAlike (ren : Renderer) (ctx : Context) (style : CasingStyle) (fuel : Nat)
    (orders orders' : RenderOrder) (template : TextEffect) : Prop :=
  ∀ index index' sub, NestedAt ren ctx .none fuel orders template index sub →
    NestedAt ren ctx style fuel orders' template index' sub → ∀ body,
      renderTemplate ren ctx .none fuel (orders.nested index) sub = some (.success body) →
      renderTemplate ren ctx style fuel (orders'.nested index') sub = some (.success body)

/-- What is produced without a style is produced in the style, under any hash orders. -/
theorem Produces.of_nestedAlike (hren : ren.ScopeFree) {text : String}
    (hnested : NestedAlike ren ctx style fuel orders orders' template)
    (h : Produces ren ctx .none fuel orders template text) :
    Produces ren ctx style fuel orders' template text := by
  cases h with
  | plain hplain => exact .plain hplain
  | @substituted vars scope _ hmatch horder hloop htext =>
      obtain ⟨vars', horder', hmem⟩ :=
        ordersAlike_of_lookup (fun _ => rfl) (orders []) (orders' []) template vars horder
      have hagree : ∃ scope', templateLoop ren ctx style fuel orders' vars' = some (.ok scope')
          ∧ ∀ name, scope.lookup name = scope'.lookup name := by
        refine exists_scope_agree hren rfl (scheduled_of_ok horder).1
          (scheduled_of_ok horder').1 hmem hloop ?_
        intro pre var post _ pre' post' _ sub heq hpre heq' hpre' htype hsub body hbody
        exact hnested pre.length pre'.length sub
          ⟨var, ⟨hmatch, pre, post, _, heq ▸ horder, rfl, hpre⟩, htype, hsub⟩
          ⟨var, ⟨hmatch, pre', post', _, heq' ▸ horder', rfl, hpre'⟩, htype, hsub⟩ body hbody
      obtain ⟨scope', hloop', hscope⟩ := hagree
      refine .substituted hmatch horder' hloop' ?_
      rw [← renderVariables_congr fun name _ => hscope name, htext]

/-- **Casing acts once on the text of a template.**  Let the output of every extension depend on
its params only.

If the template renders without a style to a text that is not empty, and its nested matches
read the same in the style, then in the style it renders to that text, cased; wherever the
nested matches stand, whatever their outputs are injected into, and under any hash orders.

Whatever the nested matches are, in the style the template renders to the casing of the text
that is produced with them, applied once. -/
theorem casing_of_template (hren : ren.ScopeFree) :
    (∀ text, renderTemplate ren ctx .none (fuel + 1) orders template = some (.success text) →
        text ≠ "" → NestedAlike ren ctx style fuel orders orders' template →
        ∃ cased, applyCasing style text = some cased
          ∧ renderTemplate ren ctx style (fuel + 1) orders' template = some (.success cased))
      ∧ ∀ cased, cased ≠ "" →
        (renderTemplate ren ctx style (fuel + 1) orders template = some (.success cased)
          ↔ ∃ text, Produces ren ctx style fuel orders template text
            ∧ applyCasing style (unescapeVariableInections text) = some cased) := by
  refine ⟨fun text h htext hnested => ?_, fun cased hcased => renderTemplate_eq_cased_iff hcased⟩
  obtain ⟨produced, hproduces, hplain⟩ := (renderTemplate_eq_cased_iff htext).mp h
  obtain rfl : unescapeVariableInections produced = text := Option.some.inj hplain
  obtain ⟨cased, hcased⟩ := exists_applyCasing style htext
  refine ⟨cased, hcased, ?_⟩
  rw [(hproduces.of_nestedAlike hren hnested).renderTemplate_eq,
    finishBody_eq_success.mpr hcased]

end

end

/-! ## §3. A nested match that is cased on its own. -/

/-- A context with one match, of this text. -/
def nestedContext (text : String) : Context :=
  { Context.default with
    matchesMap := (∅ : HashMap String TriggerMatch).insert "nested"
      { baseMatch := { effect := .text { body := text } }, triggers := ["nested"] } }

/-- A greeting of whatever that match reads. -/
def greeting : TextEffect :=
  { body := "hello \x7b\x7bvar\x7d\x7d"
    vars := [{ name := "var", varType := .match_, params := [("trigger", .string "nested")] }] }

theorem Renderer.scopeFree_answering (text : String) : (Renderer.answering text).ScopeFree :=
  ⟨fun _ _ _ => rfl, fun _ _ _ => rfl, fun _ _ _ => rfl, fun _ _ _ => rfl, fun _ _ _ => rfl,
    fun _ _ _ => rfl⟩

/-- The only text that can be nested is that of the match. -/
theorem subTemplate_nestedContext {text : String} {var : Variable} {sub : TextEffect}
    (h : subTemplate (nestedContext text) var = some sub) : sub = { body := text } := by
  unfold subTemplate at h
  cases htrigger : getTriggerFromVar var with
  | none => simp [htrigger] at h
  | some trigger =>
      unfold nestedContext at h
      by_cases heq : trigger = "nested"
      · rw [htrigger, heq, Option.bind_some, AList.lookup_insert] at h
        exact (Option.some.inj h).symm
      · rw [htrigger, Option.bind_some, AList.lookup_insert_ne heq] at h
        simp at h

/-- **A nested match is cased, and then cased again** with the text around it. -/
theorem casing_reaches_nested : ¬ ∀ (ren : Renderer) (ctx : Context) (style : CasingStyle)
    (fuel : Nat) (orders : RenderOrder) (template : TextEffect) (text : String), ren.ScopeFree →
    @renderTemplate .ascii ren ctx .none (fuel + 1) orders template = some (.success text) →
    text ≠ "" → ∃ cased, @applyCasing .ascii style text = some cased
      ∧ @renderTemplate .ascii ren ctx style (fuel + 1) orders template
        = some (.success cased) := by
  intro h
  obtain ⟨cased, hcased, hrender⟩ := h (.answering "") (nestedContext "world") .capitalize 1
    (fun _ => .canonical) greeting "hello world" (Renderer.scopeFree_answering "") (by decide)
    (by decide)
  have hplain : @applyCasing .ascii .capitalize "hello world" = some "Hello world" := by decide
  have hnested : @renderTemplate .ascii (.answering "") (nestedContext "world") .capitalize 2
      (fun _ => .canonical) greeting = some (.success "Hello World") := by decide
  rw [hplain, Option.some.injEq] at hcased
  rw [hnested, ← hcased] at hrender
  exact absurd hrender (by decide)

/-- A nested match that reads the same in the style. -/
theorem casing_of_template_world :
    (∃ cased, @applyCasing .ascii .capitalize "hello World" = some cased
        ∧ @renderTemplate .ascii (.answering "") (nestedContext "World") .capitalize 2
          (fun _ => ⟨fun _ names => names.reverse, fun _ names => names.reverse_perm⟩) greeting
            = some (.success cased))
      ∧ ∃ text, @Produces .ascii (.answering "") (nestedContext "World") .capitalize 1
        (fun _ => .canonical) greeting text
          ∧ @applyCasing .ascii .capitalize (unescapeVariableInections text)
            = some "Hello World" := by
  have hcasing := @casing_of_template .ascii (.answering "") (nestedContext "World") .capitalize 1
    (fun _ => .canonical)
    (fun _ => ⟨fun _ names => names.reverse, fun _ names => names.reverse_perm⟩) greeting
    (Renderer.scopeFree_answering "")
  refine ⟨hcasing.1 "hello World" (by decide) (by decide) ?_,
    (hcasing.2 "Hello World" (by decide)).mp (by decide)⟩
  intro index index' sub hnested _ body hbody
  obtain ⟨var, _, _, hsub⟩ := hnested
  obtain rfl := subTemplate_nestedContext hsub
  -- the text of the match is plain, and its first letter is a capital
  have hplain : @VarRegex.isMatch .ascii "World" = false := by decide
  have hnone : @finishBody .ascii .none "World" = .success "World" := by decide
  have hcapital : @finishBody .ascii .capitalize "World" = .success "World" := by decide
  rw [@renderTemplate_of_plain .ascii _ _ _ _ _ { body := "World" } hplain, hnone] at hbody
  rw [@renderTemplate_of_plain .ascii _ _ _ _ _ { body := "World" } hplain, hcapital, hbody]

end Shinran
