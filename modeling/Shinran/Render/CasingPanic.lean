/-
  Shinran.Render.CasingPanic
  ──────────────────────────
  **WHEN THE CASING STEP PANICS.**

  Capitalizing takes the first character of a text without asking whether
  there is one.  The text is empty where the body is, and where it is made of
  references alone whose variables all come out empty; the style is handed on,
  so a nested match without a text is enough.

    • `CasingPanics`        — the casing step of a rendering that is reached,
    • `Hollow`              — a body of which the outputs leave nothing,
    • `casing_safe_iff`     — no casing step panics iff none is reached,
    • `emptyText_panics`    — the match with an empty text.
-/
import Shinran.Render.Casing

namespace Shinran

/-! ## §1. The casing steps of a rendering. -/

section
variable [UnicodeTables] (ren : Renderer) (ctx : Context) (style : CasingStyle)

/-- The casing step of the template, or that of a match nested in it at any depth, is reached
and indexes into a text that is empty. -/
inductive CasingPanics : Nat → RenderOrder → TextEffect → Prop
  | here {fuel : Nat} {orders : RenderOrder} {template : TextEffect} {text : String} :
      Produces ren ctx style fuel orders template text →
      applyCasing style (unescapeVariableInections text) = none →
      CasingPanics (fuel + 1) orders template
  | nested {fuel : Nat} {orders : RenderOrder} {template sub : TextEffect} {index : Nat} :
      NestedAt ren ctx style fuel orders template index sub →
      CasingPanics fuel (orders.nested index) sub → CasingPanics (fuel + 1) orders template

omit [UnicodeTables] in
/-- The reference can be replaced, and by nothing. -/
def Blank (scope : Scope) (caps : Captures) : Prop := renderReference scope caps = ("", none)

/-- The body is made of references alone, and each of them is replaced by nothing. -/
def Hollow (scope : Scope) (body : String) : Prop :=
  ∀ piece ∈ VarRegex.pieces body, ∃ caps, piece = .ref caps ∧ Blank scope caps

/-- A rendering that is reached gets to the end of a template with a hollow body. -/
inductive MeetsHollow : Nat → RenderOrder → TextEffect → Prop
  | plain {fuel : Nat} {orders : RenderOrder} {template : TextEffect} :
      template.body = "" → MeetsHollow (fuel + 1) orders template
  | substituted {fuel : Nat} {orders : RenderOrder} {template : TextEffect}
      {vars : List Variable} {scope : Scope} :
      VarRegex.isMatch template.body = true →
      templateOrder ctx (orders []) template = some (.ok vars) →
      templateLoop ren ctx style fuel orders vars = some (.ok scope) →
      Hollow scope template.body → MeetsHollow (fuel + 1) orders template
  | nested {fuel : Nat} {orders : RenderOrder} {template sub : TextEffect} {index : Nat} :
      NestedAt ren ctx style fuel orders template index sub →
      MeetsHollow fuel (orders.nested index) sub → MeetsHollow (fuel + 1) orders template

end

/-! ## §2. Where a text comes out empty. -/

theorem replaceFrom_eq_nil {pattern replacement : List Char} (hne : replacement ≠ []) :
    ∀ {text : List Char}, replaceFrom pattern replacement 0 text = [] ↔ text = []
  | [] => by simp [replaceFrom]
  | c :: text => by
      unfold replaceFrom
      split
      · simp [hne]
      · simp

/-- Unescaping shortens no text to nothing. -/
theorem unescapeVariableInections_eq_empty {text : String} :
    unescapeVariableInections text = "" ↔ text = "" := by
  have hreplace : ∀ (text pattern : String) (replacement : String), replacement ≠ "" →
      (replaceAll text pattern replacement = "" ↔ text = "") := by
    intro text pattern replacement hne
    have hne' : replacement.toList ≠ [] := fun h => hne (String.toList_eq_nil_iff.mp h)
    unfold replaceAll
    rw [← String.toList_eq_nil_iff, String.toList_ofList, replaceFrom_eq_nil hne',
      String.toList_eq_nil_iff]
  unfold unescapeVariableInections
  rw [hreplace _ _ _ (by decide), hreplace _ _ _ (by decide)]

theorem applyCasing_eq_none [UnicodeTables] {style : CasingStyle} {text : String} :
    applyCasing style text = none ↔ style = .capitalize ∧ text = "" := by
  constructor
  · intro h
    by_cases htext : text = ""
    · subst htext
      cases style with
      | capitalize => exact ⟨rfl, rfl⟩
      | none | uppercase | capitalizeWords => simp [applyCasing] at h
    · obtain ⟨cased, hcased⟩ := exists_applyCasing style htext
      rw [hcased] at h
      cases h
  · intro h
    obtain ⟨rfl, rfl⟩ := h
    rfl

/-- The pieces leave nothing iff there is no character among them and every reference is
replaced by nothing. -/
theorem renderPieces_eq_nil {scope : Scope} : ∀ {pieces : List VarRegex.Piece},
    renderPieces scope pieces = ([], none)
      ↔ ∀ piece ∈ pieces, ∃ caps, piece = .ref caps ∧ Blank scope caps
  | [] => by simp [renderPieces]
  | .lit c :: pieces => by simp [renderPieces]
  | .ref caps :: pieces => by
      rw [List.forall_mem_cons, ← renderPieces_eq_nil]
      unfold Blank
      simp only [renderPieces, Prod.ext_iff, List.append_eq_nil_iff, String.toList_eq_nil_iff,
        Option.or_eq_none_iff]
      constructor
      · intro h
        exact ⟨⟨caps, rfl, h.1.1, h.2.2⟩, h.1.2, h.2.1⟩
      · intro h
        obtain ⟨⟨caps', heq, hblank⟩, hrest⟩ := h
        obtain rfl : caps = caps' := by simpa using heq
        exact ⟨⟨hblank.1, hrest.1⟩, hrest.2, hblank.2⟩

section
variable [UnicodeTables] {ren : Renderer} {ctx : Context} {style : CasingStyle}

theorem renderVariables_eq_empty {body : String} {scope : Scope} :
    renderVariables body scope = .ok "" ↔ Hollow scope body := by
  unfold Hollow
  rw [← renderPieces_eq_nil]
  unfold renderVariables
  cases hpieces : renderPieces scope (VarRegex.pieces body) with
  | mk output err =>
      cases err with
      | some err => simp
      | none =>
          show Except.ok (unescapeVariableInections (String.ofList output)) = _ ↔ _
          rw [Except.ok.injEq, unescapeVariableInections_eq_empty, ← String.toList_eq_nil_iff,
            String.toList_ofList]
          simp

/-! ## §3. The panic. -/

/-- A casing step that panics takes the whole expansion down. -/
theorem CasingPanics.renderTemplate_eq {fuel : Nat} {orders : RenderOrder}
    {template : TextEffect} (h : CasingPanics ren ctx style fuel orders template) :
    renderTemplate ren ctx style fuel orders template = some .panicked := by
  induction h with
  | here hproduces hnone =>
      rw [hproduces.renderTemplate_eq]
      unfold finishBody
      rw [hnone]
  | @nested fuel orders template sub index hat _ ih =>
      obtain ⟨var, ⟨hmatch, pre, post, scope, horder, rfl, hloop⟩, htype, hsub⟩ := hat
      have harrives : ArrivesAt ren ctx style fuel orders template pre var scope :=
        ⟨hmatch, ⟨post, horder⟩, hloop⟩
      refine harrives.renderTemplate_eq ?_
      unfold evalVariable
      rw [if_pos htype]
      simp only [hsub, ih]

/-- Capitalizing panics exactly on what a hollow body leaves. -/
theorem casingPanics_iff_meetsHollow {fuel : Nat} {orders : RenderOrder}
    {template : TextEffect} :
    CasingPanics ren ctx style fuel orders template
      ↔ style = .capitalize ∧ MeetsHollow ren ctx style fuel orders template := by
  constructor
  · intro h
    induction h with
    | here hproduces hnone =>
        obtain ⟨hstyle, hempty⟩ := applyCasing_eq_none.mp hnone
        rw [unescapeVariableInections_eq_empty] at hempty
        cases hproduces with
        | plain hplain => exact ⟨hstyle, .plain hempty⟩
        | substituted hmatch horder hloop htext =>
            rw [hempty] at htext
            exact ⟨hstyle, .substituted hmatch horder hloop (renderVariables_eq_empty.mp htext)⟩
    | nested hat _ ih => exact ⟨ih.1, .nested hat ih.2⟩
  · intro h
    obtain ⟨hstyle, hmeets⟩ := h
    have hempty : applyCasing style (unescapeVariableInections "") = none :=
      applyCasing_eq_none.mpr ⟨hstyle, unescapeVariableInections_eq_empty.mpr rfl⟩
    induction hmeets with
    | @plain fuel orders template hbody =>
        have hplain : VarRegex.isMatch template.body = false := by
          rw [hbody]
          rfl
        exact .here (.plain hplain) (by rw [hbody, hempty])
    | substituted hmatch horder hloop hhollow =>
        exact .here (.substituted hmatch horder hloop (renderVariables_eq_empty.mpr hhollow))
          hempty
    | nested hat _ ih => exact .nested hat ih

/-- **When no casing step panics**: the style is not to capitalize, or no rendering that is
reached, of the template or of a match nested in it at any depth, ends with a hollow body. -/
theorem casing_safe_iff {fuel : Nat} {orders : RenderOrder} {template : TextEffect} :
    ¬ CasingPanics ren ctx style fuel orders template
      ↔ style ≠ .capitalize ∨ ¬ MeetsHollow ren ctx style fuel orders template := by
  rw [casingPanics_iff_meetsHollow, not_and_or]

end

/-! ## §4. A text that is empty. -/

/-- A match whose text is one variable, which echoes something. -/
def echoed : TextEffect :=
  { body := "\x7b\x7bx\x7d\x7d"
    vars := [{ name := "x", varType := .echo, params := [("echo", .string "")] }] }

/-- **An empty text panics**: that of a match without one, that of a variable without a value,
and that of a match nested in a greeting. -/
theorem emptyText_panics :
    @CasingPanics .ascii (.answering "") Context.default .capitalize 1 (fun _ => .canonical) {}
      ∧ @renderTemplate .ascii (.answering "") Context.default .capitalize 1
        (fun _ => .canonical) {} = some .panicked
      ∧ @renderTemplate .ascii (.answering "") Context.default .capitalize 1
        (fun _ => .canonical) echoed = some .panicked
      ∧ @renderTemplate .ascii (.answering "") (nestedContext "") .capitalize 2
        (fun _ => .canonical) greeting = some .panicked := by
  refine ⟨?_, by decide, by decide, by decide⟩
  exact @CasingPanics.here .ascii _ _ _ _ _ _ _ (@Produces.plain .ascii _ _ _ _ _ {} (by decide))
    (by decide)

end Shinran
