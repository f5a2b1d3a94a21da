/-
  Shinran.Render.Rewriting
  ────────────────────────
  **REWRITING MATCHES, AND ADDING TO THEM.**

  Other matches see of a match only the text that it renders to.  So a match
  can be rewritten, as long as its new text renders to what the old one would
  render to in its place; whatever rendered before renders to the same after.
  The converse fails: a match that is rewritten may break a cycle.  Matches and
  globals of other names can be added, too, if nothing has asked for them.

    • `Rewrites`         — every match keeps its meaning,
    • `Denotes.rewritten` — and then every template does,
    • `rendersTo_rewritten` — read off the renderings,
    • `ExtendedBy.denotes` — a context with more definitions is a case of it.
-/
import Shinran.Render.Denotation

namespace Shinran

variable [UnicodeTables]

/-! ## §1. Matches that keep their meaning. -/

omit [UnicodeTables] in
/-- The text of the match with this trigger. -/
def Context.textFor (ctx : Context) (trigger : String) : Option TextEffect :=
  match (ctx.matchesMap.lookup trigger).map (·.baseMatch.effect) with
  | some (MatchEffect.text sub) => some sub
  | _ => none

/-- The globals stay, and each text stands for what the text that it replaces would stand for.
There may be more globals, if the locals of the texts are the same. -/
structure Rewrites (ren : Renderer) (style : CasingStyle) (ctx ctx' : Context) : Prop where
  globals : ∀ name var, ctx.globalVarsMap.lookup name = some var →
    ctx'.globalVarsMap.lookup name = some var
  notBody : (∀ var ∈ ctx.globalVars, var.name ≠ matchBody) →
    ∀ var ∈ ctx'.globalVars, var.name ≠ matchBody
  locals : ∀ trigger sub, ctx.textFor trigger = some sub →
    localVariables ctx sub.vars = localVariables ctx' sub.vars
  texts : ∀ trigger sub, ctx.textFor trigger = some sub → ∃ sub', ctx'.textFor trigger = some sub'
    ∧ ∀ text, Denotes ren ctx' style sub text → Denotes ren ctx' style sub' text

omit [UnicodeTables] in
theorem subTemplate_eq_textFor (ctx : Context) (var : Variable) :
    subTemplate ctx var = (getTriggerFromVar var).bind ctx.textFor := by
  unfold subTemplate Context.textFor
  cases getTriggerFromVar var <;> rfl

section
variable {ren : Renderer} {ctx ctx' : Context} {style : CasingStyle}

omit [UnicodeTables] in
theorem resolveName_globals
    (hglobals : ∀ name var, ctx.globalVarsMap.lookup name = some var →
      ctx'.globalVarsMap.lookup name = some var)
    {locals : List Variable} {name : String} {var : Variable}
    (h : resolveName locals ctx.globalVars name = some var) :
    resolveName locals ctx'.globalVars name = some var := by
  rw [resolveName, Context.find?_globalVars] at h ⊢
  cases hlocal : locals.find? fun var => var.name = name with
  | some local_ => rwa [hlocal] at h
  | none =>
      rw [hlocal, Option.none_or] at h
      rw [Option.none_or]
      exact hglobals name var h

/-! ## §2. Templates keep theirs. -/

section Templates

variable (h : Rewrites ren style ctx ctx')
include h

/-- The names are distinct, also among more globals. -/
theorem Rewrites.distinctNames {locals : List Variable}
    (hnames : DistinctNames locals ctx.globalVars) : DistinctNames locals ctx'.globalVars := by
  refine ⟨hnames.locals, ctx'.nodup_globalVars, fun var hvar => ?_⟩
  cases List.mem_append.mp hvar with
  | inl hlocal => exact hnames.notBody var (List.mem_append_left _ hlocal)
  | inr hglobal =>
      exact h.notBody (fun var hvar => hnames.notBody var (List.mem_append_right _ hvar)) var
        hglobal

mutual
/-- **Where every match keeps its meaning, so does every template.** -/
theorem Denotes.rewritten : ∀ {template : TextEffect} {text : String},
    Denotes ren ctx style template text →
    localVariables ctx template.vars = localVariables ctx' template.vars →
    Denotes ren ctx' style template text
  | _, _, .plain hplain hbody, _ => .plain hplain hbody
  | _, _, .filled hmatch hnames hsome hscope houtput hbody, hlocals => by
      rw [hlocals] at hnames hsome
      refine .filled hmatch (h.distinctNames hnames) hsome (fun name output hlook => ?_) houtput
        hbody
      exact hlocals ▸ (hscope name output hlook).rewritten
theorem HasOutput.rewritten : ∀ {locals : List Variable} {name : String}
    {output : ExtensionOutput}, HasOutput ren ctx style locals name output →
    HasOutput ren ctx' style locals name output
  | _, _, _, .intro hvar hsome hscope houtput =>
      .intro (resolveName_globals h.globals hvar) hsome
        (fun name' output' hlook => (hscope name' output' hlook).rewritten) houtput.rewritten
theorem VariableOutput.rewritten : ∀ {scope : Scope} {var : Variable} {output : ExtensionOutput},
    VariableOutput ren ctx style scope var output → VariableOutput ren ctx' style scope var output
  | _, var, _, .nested htype hsub hdenotes => by
      rw [subTemplate_eq_textFor, Option.bind_eq_some_iff] at hsub
      obtain ⟨trigger, htrigger, htext⟩ := hsub
      -- the old text, read with the new matches, and then the new text for it
      obtain ⟨sub', htext', hsame⟩ := h.texts trigger _ htext
      refine .nested htype ?_ (hsame _ (hdenotes.rewritten (h.locals trigger _ htext)))
      rw [subTemplate_eq_textFor, htrigger, Option.bind_some, htext']
  | _, _, _, .answered htype hparams hanswer => .answered htype hparams hanswer
end

end Templates

/-! ## §3. Renderings. -/

variable (ren ctx style) in
/-- The template renders to the text, whatever the hash orders, where the stack is deep enough. -/
def RendersTo (template : TextEffect) (text : String) : Prop :=
  ∃ depth, ∀ fuel orders, depth ≤ fuel →
    renderTemplate ren ctx style fuel orders template = some (.success text)

theorem rendersTo_iff_denotes (hctx : ctx.AllVars (Variable.Regular ren)) {template : TextEffect}
    (hvars : ∀ var ∈ template.vars, var.Regular ren) {text : String} :
    RendersTo ren ctx style template text ↔ Denotes ren ctx style template text := by
  constructor
  · rintro ⟨depth, hdepth⟩
    exact denotes_of_renderTemplate hctx hvars
      (hdepth depth (fun _ => .canonical) (Nat.le_refl depth))
  · exact fun h => h.exists_depth

omit [UnicodeTables] in
theorem Context.AllVars.textFor {p : Variable → Prop} (h : ctx.AllVars p) {trigger : String}
    {sub : TextEffect} (hsub : ctx.textFor trigger = some sub) : ∀ var ∈ sub.vars, p var := by
  unfold Context.textFor at hsub
  split at hsub
  · rename_i heffect
    obtain ⟨m, hlook, heffect⟩ := Option.map_eq_some_iff.mp heffect
    obtain rfl := Option.some.inj hsub
    exact h.2 trigger m _ hlook heffect
  · cases hsub

/-- **A match can be rewritten.**  Let two contexts have the same globals, and let each text of
the first have one in its place that renders to the same among the matches of the second.  Let all
variables be regular, in both contexts and in the template.  Then whatever the template renders to
with the first, under some hash orders, it renders to with the second, under all of them. -/
theorem rendersTo_rewritten (hctx : ctx.AllVars (Variable.Regular ren))
    (hctx' : ctx'.AllVars (Variable.Regular ren))
    (hglobals : ∀ name, ctx.globalVarsMap.lookup name = ctx'.globalVarsMap.lookup name)
    (htexts : ∀ trigger sub, ctx.textFor trigger = some sub →
      ∃ sub', ctx'.textFor trigger = some sub'
        ∧ ∀ text, RendersTo ren ctx' style sub text → RendersTo ren ctx' style sub' text)
    {template : TextEffect} (hvars : ∀ var ∈ template.vars, var.Regular ren) {fuel : Nat}
    {orders : RenderOrder} {text : String}
    (h : renderTemplate ren ctx style fuel orders template = some (.success text)) :
    RendersTo ren ctx' style template text := by
  have hrewrites : Rewrites ren style ctx ctx' := by
    refine ⟨fun name var hvar => hglobals name ▸ hvar, fun hbody var hvar => ?_,
      fun _ _ _ => localVariables_congr hglobals _, fun trigger sub hsub => ?_⟩
    · rw [Context.mem_globalVars, ← hglobals, ← Context.mem_globalVars] at hvar
      exact hbody var hvar
    obtain ⟨sub', hsub', hsame⟩ := htexts trigger sub hsub
    refine ⟨sub', hsub', fun text hdenotes => ?_⟩
    rw [← rendersTo_iff_denotes hctx' (hctx.textFor hsub)] at hdenotes
    exact (rendersTo_iff_denotes hctx' (hctx'.textFor hsub')).mp (hsame text hdenotes)
  exact (Denotes.rewritten hrewrites (denotes_of_renderTemplate hctx hvars h)
    (localVariables_congr hglobals _)).exists_depth

end

/-! ## §4. More definitions. -/

omit [UnicodeTables] in
/-- An unresolved local asks for the global of its name. -/
def Variable.AsksAlike (var : Variable) (ctx ctx' : Context) : Prop :=
  var.varType = .unresolved →
    ctx.globalVarsMap.lookup var.name = ctx'.globalVarsMap.lookup var.name

omit [UnicodeTables] in
/-- The second context has more definitions, but none for the name of the body's node, and none
for which a local has asked in vain. -/
structure Context.ExtendedBy (ctx ctx' : Context) : Prop where
  matches_ : ∀ trigger m, ctx.matchesMap.lookup trigger = some m →
    ctx'.matchesMap.lookup trigger = some m
  globals : ∀ name var, ctx.globalVarsMap.lookup name = some var →
    ctx'.globalVarsMap.lookup name = some var
  notBody : ctx.globalVarsMap.lookup matchBody = ctx'.globalVarsMap.lookup matchBody
  asks : ∀ trigger sub, ctx.textFor trigger = some sub → ∀ var ∈ sub.vars, var.AsksAlike ctx ctx'

omit [UnicodeTables] in
theorem localVariables_of_asksAlike {ctx ctx' : Context} {vars : List Variable}
    (h : ∀ var ∈ vars, var.AsksAlike ctx ctx') :
    localVariables ctx vars = localVariables ctx' vars := by
  unfold localVariables
  split
  · refine List.filterMap_congr fun var hvar => ?_
    split
    · rename_i hunresolved
      exact h var hvar hunresolved
    · rfl
  · rfl

section
variable {ren : Renderer} {ctx ctx' : Context} {style : CasingStyle} (h : ctx.ExtendedBy ctx')
include h

omit [UnicodeTables] in
theorem Context.ExtendedBy.textFor {trigger : String} {sub : TextEffect}
    (hsub : ctx.textFor trigger = some sub) : ctx'.textFor trigger = some sub := by
  unfold Context.textFor at hsub ⊢
  cases hlook : ctx.matchesMap.lookup trigger with
  | none => rw [hlook] at hsub; cases hsub
  | some m =>
      rw [h.matches_ trigger m hlook]
      rwa [hlook] at hsub

/-- **More definitions do not change what a template stands for.** -/
theorem Context.ExtendedBy.denotes {template : TextEffect} {text : String}
    (hvars : ∀ var ∈ template.vars, var.AsksAlike ctx ctx')
    (hdenotes : Denotes ren ctx style template text) : Denotes ren ctx' style template text := by
  have hrewrites : Rewrites ren style ctx ctx' := by
    refine ⟨h.globals, fun hbody var hvar hname => ?_,
      fun trigger sub hsub => localVariables_of_asksAlike (h.asks trigger sub hsub),
      fun trigger sub hsub => ⟨sub, h.textFor hsub, fun _ => id⟩⟩
    rw [Context.mem_globalVars, hname, ← h.notBody, ← hname, ← Context.mem_globalVars] at hvar
    exact hbody var hvar hname
  exact hdenotes.rewritten hrewrites (localVariables_of_asksAlike hvars)

end

/-- A context with one match, of this text. -/
def greetedContext (sub : TextEffect) : Context :=
  { Context.default with
    matchesMap := (∅ : HashMap String TriggerMatch).insert "greeted"
      { baseMatch := { effect := .text sub }, triggers := ["greeted"] } }

/-- A text that is put together from a variable. -/
def echoedWorld : TextEffect :=
  { body := "\x7b\x7bw\x7d\x7d"
    vars := [{ name := "w", varType := .echo, params := [("echo", .string "world")] }] }

/-- A greeting of whatever that match reads. -/
def greetingOf : TextEffect :=
  { body := "hello \x7b\x7bvar\x7d\x7d"
    vars := [{ name := "var", varType := .match_, params := [("trigger", .string "greeted")] }] }

omit [UnicodeTables] in
theorem textFor_greetedContext {sub sub' : TextEffect} {trigger : String}
    (h : (greetedContext sub).textFor trigger = some sub') : trigger = "greeted" ∧ sub' = sub := by
  unfold Context.textFor greetedContext at h
  by_cases heq : trigger = "greeted"
  · subst heq
    rw [AList.lookup_insert] at h
    exact ⟨rfl, (Option.some.inj h).symm⟩
  · rw [AList.lookup_insert_ne heq] at h
    cases h

omit [UnicodeTables] in
theorem allVars_greetedContext {p : Variable → Prop} {sub : TextEffect}
    (h : ∀ var ∈ sub.vars, p var) : (greetedContext sub).AllVars p := by
  refine ⟨fun _ hvar => absurd hvar List.not_mem_nil, fun trigger m sub' hm heffect => ?_⟩
  have hsub : (greetedContext sub).textFor trigger = some sub' := by
    unfold Context.textFor
    rw [hm, Option.map_some, heffect]
  rw [(textFor_greetedContext hsub).2]
  exact h

omit [UnicodeTables] in
/-- Only the shell is shouted at. -/
theorem regular_shouting {var : Variable} (hshell : var.varType ≠ .shell)
    (hform : var.varType ≠ .form) (hname : var.name ≠ matchBody) :
    @Variable.Regular .ascii shouting var := by
  refine @Variable.Regular.mk .ascii _ _ hform hname fun scope scope' params _ => ?_
  unfold calculate
  cases htype : var.varType with
  | shell => exact absurd htype hshell
  | _ => rfl

omit [UnicodeTables] in
/-- The variable is replaced by its output. -/
theorem rendersTo_rewritten_greeting :
    @RendersTo .ascii shouting (greetedContext { body := "world" }) .none greetingOf
      "hello world" := by
  have hregular : ∀ var ∈ echoedWorld.vars ++ greetingOf.vars,
      @Variable.Regular .ascii shouting var := by
    intro var hvar
    rcases List.mem_pair.mp (show var ∈ [_, _] from hvar) with rfl | rfl
    · exact regular_shouting (by decide) (by decide) (by decide)
    · exact regular_shouting (by decide) (by decide) (by decide)
  have hrendered : @renderTemplate .ascii shouting (greetedContext echoedWorld) .none 2
      (fun _ => .canonical) greetingOf = some (.success "hello world") := by decide +kernel
  refine @rendersTo_rewritten .ascii shouting (greetedContext echoedWorld)
    (greetedContext { body := "world" }) .none
    (allVars_greetedContext fun var hvar => hregular var (List.mem_append_left _ hvar))
    (allVars_greetedContext fun _ hvar => absurd hvar List.not_mem_nil) (fun _ => rfl)
    (fun trigger sub hsub => ?_) greetingOf
    (fun var hvar => hregular var (List.mem_append_right _ hvar)) 2 (fun _ => .canonical) _
    hrendered
  obtain ⟨rfl, rfl⟩ := textFor_greetedContext hsub
  refine ⟨{ body := "world" }, rfl, fun text ⟨depth, hdepth⟩ => ?_⟩
  -- both read the same
  have hworld : @renderTemplate .ascii shouting (greetedContext { body := "world" }) .none 1
      (fun _ => .canonical) echoedWorld = some (.success "world") := by decide
  have hmore := @renderTemplate_fuel .ascii _ _ _ _ _ (Nat.le_add_left 1 depth) _ _ _ hworld
  rw [hdepth (depth + 1) (fun _ => .canonical) (Nat.le_succ depth)] at hmore
  obtain rfl := RenderResult.success.inj (Option.some.inj hmore)
  exact @Denotes.exists_depth .ascii _ _ _ _ _
    (@Denotes.plain .ascii _ _ _ { body := "world" } "world" (by decide) (by decide))

end Shinran
