/-
  Shinran.Backend.Meaning
  ───────────────────────
  **WHAT A TEXT STANDS FOR.**

  The match files say what a text stands for: the text of its match, filled
  with the outputs of variables and with what other matches stand for.  Where
  files define the same name, any of the definitions may be taken; a text has
  a meaning if they all lead to the same.

    • `MeaningIn`            — what a text stands for, after a choice,
    • `Meaning`              — whatever is chosen,
    • `MayMean`              — after some choice,
    • `Meaning.eq_of_mayMean` — a text with a meaning may stand for nothing else,
    • `Meaning.of_snippet`   — of matches that refer to nothing,
    • `Knows.exists_depth`   — a backend that knows the files answers so,
    • `Knows.mayMean`        — and answers nothing that the text may not stand for.
-/
import Mathlib.Data.List.Permutation
import Shinran.Backend.ArgOrder
import Shinran.Backend.Visible
import Shinran.Render.Denotation

namespace Shinran

variable [CaseTables]

/-! ## §1. Matches. -/

omit [CaseTables] in
/-- The context has a definition from the files for each name that has one. -/
structure Context.Picks (ctx : Context) (files : MatchFile → Prop) : Prop where
  match_isSome : ∀ trigger, (ctx.matchesMap.lookup trigger).isSome
    ↔ ∃ file m, files file ∧ (trigger, m) ∈ file.triggerEntries
  match_ : ∀ trigger m, ctx.matchesMap.lookup trigger = some m →
    ∃ file, files file ∧ (trigger, m) ∈ file.triggerEntries
  globalVar_isSome : ∀ name, (ctx.globalVarsMap.lookup name).isSome
    ↔ ∃ file var, files file ∧ (name, var) ∈ file.globalVarEntries
  globalVar : ∀ name var, ctx.globalVarsMap.lookup name = some var →
    ∃ file, files file ∧ (name, var) ∈ file.globalVarEntries

omit [CaseTables] in
/-- The match of a text is its own, or that of its lowercase form. -/
def Context.matchFor (ctx : Context) (text : String) : Option TriggerMatch :=
  (ctx.matchesMap.lookup text).or (ctx.matchesMap.lookup (toAsciiLowercase text))

omit [CaseTables] in
/-- The expression is found in the text. -/
def RegexEngine.Detects (engine : RegexEngine) (m : RegexMatch) (text : String)
    (detected : DetectedMatch) : Prop :=
  (engine.compiles m.regex = true ∧ engine.isMatch m.regex text = true)
    ∧ engine.detect m text = some detected

/-- What a match expands to: what its text stands for, with variables for the captured groups in
front in any order, and without the cursor hint. -/
structure DetectedMatch.ExpandsTo (runtime : Runtime) (ctx : Context) (match_ : DetectedMatch)
    (text out : String) : Prop where
  accepts : match_.id.Accepts text
  denotes : ∃ effect body, match_.id.effect = .text effect
    ∧ (∀ argOrder, Denotes runtime.renderer ctx (match_.id.casingStyle text)
      (augment argOrder match_.args effect) body)
    ∧ ∃ moves, processCursorHint runtime.graphemes runtime.overflowChecks body = some (out, moves)

/-! ## §2. Texts. -/

/-- What a text stands for with the definitions of a context. -/
inductive MeaningIn (runtime : Runtime) (ctx : Context) (regexes : RegexMatch → Prop)
    (text : String) : Option String → Prop
  | trigger {m : TriggerMatch} {out : String} : ctx.matchFor text = some m →
      DetectedMatch.ExpandsTo runtime ctx { id := .trigger m, trigger := text } text out →
      MeaningIn runtime ctx regexes text (some out)
  /-- All expressions that are found lead to the same. -/
  | regex {m : RegexMatch} {detected : DetectedMatch} {out : String} :
      ctx.matchFor text = none → regexes m → runtime.regex.Detects m text detected →
      (∀ m detected, regexes m → runtime.regex.Detects m text detected →
        detected.ExpandsTo runtime ctx text out) →
      MeaningIn runtime ctx regexes text (some out)
  | nothing : ctx.matchFor text = none →
      (∀ m detected, regexes m → ¬ runtime.regex.Detects m text detected) →
      MeaningIn runtime ctx regexes text none

/-- **What a text stands for**, by the files, whichever of their definitions are taken. -/
def Meaning (runtime : Runtime) (files : MatchFile → Prop) (text : String)
    (meaning : Option String) : Prop :=
  ∀ ctx : Context, ctx.Picks files →
    MeaningIn runtime ctx (fun m => ∃ file, files file ∧ m ∈ file.regexMatches) text meaning

omit [CaseTables] in
/-- The match of the text, or else one for an expression that is found. -/
def Context.SettlesOn (runtime : Runtime) (files : MatchFile → Prop) (ctx : Context)
    (text : String) (match_ : DetectedMatch) : Prop :=
  (∃ m, ctx.matchFor text = some m ∧ match_ = { id := .trigger m, trigger := text })
    ∨ ctx.matchFor text = none ∧ ∃ file m, files file ∧ m ∈ file.regexMatches
      ∧ runtime.regex.Detects m text match_

/-- **What a text may stand for**, by the files: after some choice of a definition for each name,
of one of the expressions that are found, and of an order of its captured groups. -/
def MayMean (runtime : Runtime) (files : MatchFile → Prop) (text out : String) : Prop :=
  ∃ ctx : Context, ctx.Picks files ∧ ∃ match_, ctx.SettlesOn runtime files text match_
    ∧ match_.id.Accepts text ∧ ∃ argOrder effect body moves, match_.id.effect = .text effect
      ∧ Denotes runtime.renderer ctx (match_.id.casingStyle text)
        (augment argOrder match_.args effect) body
      ∧ processCursorHint runtime.graphemes runtime.overflowChecks body = some (out, moves)

/-- The variables of the files are regular, and so are those for captured groups. -/
structure RegularFiles (runtime : Runtime) (files : MatchFile → Prop) : Prop where
  globals : ∀ file, files file → ∀ var ∈ file.globalVars, var.Regular runtime.renderer
  triggers : ∀ file, files file → ∀ m ∈ file.triggerMatches, ∀ effect,
    m.baseMatch.effect = .text effect → ∀ var ∈ effect.vars, var.Regular runtime.renderer
  regexes : ∀ file, files file → ∀ m ∈ file.regexMatches, ∀ effect,
    m.baseMatch.effect = .text effect → ∀ var ∈ effect.vars, var.Regular runtime.renderer
  captured : ∀ file, files file → ∀ m ∈ file.regexMatches, ∀ text detected,
    runtime.regex.Detects m text detected →
    ∀ entry ∈ detected.args.entries, (argVariable entry.1 entry.2).Regular runtime.renderer

/-! ## §3. Matches that refer to nothing. -/

section Snippet

variable {runtime : Runtime} {files : MatchFile → Prop} {ctx : Context} {text : String}

omit [CaseTables] in
/-- The trigger has this match, and no other one. -/
structure OnlyMatch (files : MatchFile → Prop) (trigger : String) (m : TriggerMatch) : Prop where
  exists_ : ∃ file, files file ∧ (trigger, m) ∈ file.triggerEntries
  unique : ∀ file m', files file → (trigger, m') ∈ file.triggerEntries → m' = m

omit [CaseTables] in
theorem Context.Picks.lookup_of_onlyMatch (h : ctx.Picks files) {trigger : String}
    {m : TriggerMatch} (hm : OnlyMatch files trigger m) :
    ctx.matchesMap.lookup trigger = some m := by
  obtain ⟨file, hfile, hentry⟩ := hm.exists_
  obtain ⟨m', hm'⟩ := Option.isSome_iff_exists.mp ((h.match_isSome trigger).mpr
    ⟨file, m, hfile, hentry⟩)
  obtain ⟨file', hfile', hentry'⟩ := h.match_ trigger m' hm'
  rw [hm', hm.unique file' m' hfile' hentry']

/-- A text that refers to nothing stands for itself, in the casing of what has been typed. -/
theorem Meaning.of_snippet {m : TriggerMatch} {effect : TextEffect} {body out : String}
    {moves : Option Nat} (hm : OnlyMatch files text m)
    (haccepts : MatchRef.Accepts text (.trigger m)) (heffect : m.baseMatch.effect = .text effect)
    (hplain : VarRegex.isMatch effect.body = false)
    (hbody : finishBody (MatchRef.casingStyle text (.trigger m)) effect.body = .success body)
    (hhint : processCursorHint runtime.graphemes runtime.overflowChecks body = some (out, moves)) :
    Meaning runtime files text (some out) := by
  intro ctx hpicks
  refine .trigger (by rw [Context.matchFor, hpicks.lookup_of_onlyMatch hm, Option.some_or]) ?_
  exact ⟨haccepts, effect, body, heffect, fun _ => .plain hplain hbody, moves, hhint⟩

end Snippet

/-! ## §4. The answer of the backend. -/

namespace RendererAdapter

variable {adapter : RendererAdapter} {files : MatchFile → Prop} {text : String}

omit [CaseTables] in
theorem Knows.picks (h : adapter.Knows files) : adapter.context.Picks files :=
  ⟨h.trigger_isSome, h.trigger, h.globalVar_isSome, h.globalVar⟩

omit [CaseTables] in
/-- **The expressions that are found** are those that the engine finds, one by one. -/
theorem mem_findRegexMatches {detected : DetectedMatch} :
    detected ∈ adapter.findRegexMatches text
      ↔ ∃ m ∈ adapter.combinedCache.userMatchCache.regexMatches,
        adapter.runtime.regex.Detects m text detected := by
  unfold findRegexMatches RegexMatcher.findMatches RegexMatcher.new RegexEngine.Detects
  rw [List.mem_filterMap]
  simp only [List.mem_filter, and_assoc]

omit [CaseTables] in
/-- The match that is settled on, by the context. -/
theorem detect_eq_matchFor : adapter.detect text
    = ((adapter.context.matchFor text).map fun m =>
        { id := .trigger m, trigger := text : DetectedMatch }).or
      (adapter.findRegexMatches text).head? := detect_eq

/-- **A match expands to what it stands for**, under all hash orders, where the stack is deep
enough. -/
theorem exists_depth_expand {match_ : DetectedMatch} {out : String}
    (h : match_.ExpandsTo adapter.runtime adapter.context text out) :
    ∃ depth, ∀ fuel orders argOrder, depth ≤ fuel →
      adapter.expand fuel orders argOrder text match_ = .ok (some out) := by
  obtain ⟨effect, body, heffect, hdenotes, moves, hhint⟩ := h.denotes
  -- there are only finitely many orders of the captured groups
  obtain ⟨depth, hdepth⟩ : ∃ depth,
      ∀ args ∈ (match_.args.entries.map fun entry => (entry.1, entry.2)).permutations,
      ∀ fuel orders, depth ≤ fuel → renderTemplate adapter.runtime.renderer adapter.context
        (match_.id.casingStyle text) fuel orders
        (effect.withArgs (args.map fun entry => argVariable entry.1 entry.2).reverse)
          = some (.success body) := by
    refine exists_bound (fun hle h fuel orders hfuel => h fuel orders (Nat.le_trans hle hfuel))
      fun args hargs => ?_
    have hperm := List.mem_permutations.mp hargs
    have hdenotes := hdenotes ⟨fun l => if l.Perm args then args else l, fun l => by
      split_ifs with h
      · exact h.symm
      · exact .refl l⟩
    rw [augment_eq] at hdenotes
    dsimp only at hdenotes
    rw [if_pos hperm.symm] at hdenotes
    exact hdenotes.exists_depth
  refine ⟨depth, fun fuel orders argOrder hfuel => ?_⟩
  have hrender : adapter.render fuel orders argOrder match_.id (some text) match_.args
      = .ok body := by
    refine render_ok_iff.mpr ⟨h.accepts, effect, heffect, ?_⟩
    rw [augment_eq]
    exact hdepth _ (List.mem_permutations.mpr (argOrder.perm _)) fuel orders hfuel
  unfold expand
  rw [bind_eq_ok_iff]
  refine ⟨body, hrender, ?_⟩
  rw [RendererAdapter.processCursorHint, hhint]

/-- **A backend that knows the files answers what the text stands for.** -/
theorem Knows.exists_depth (h : adapter.Knows files) {meaning : Option String}
    (hmeaning : Meaning adapter.runtime files text meaning) :
    ∃ depth, ∀ fuel orders argOrder, depth ≤ fuel →
      adapter.checkTrigger fuel orders argOrder text = .ok meaning := by
  have hregex : ∀ detected, detected ∈ adapter.findRegexMatches text ↔
      ∃ m, (∃ file, files file ∧ m ∈ file.regexMatches)
        ∧ adapter.runtime.regex.Detects m text detected := by
    intro detected
    simp only [mem_findRegexMatches, h.regexes]
  unfold checkTrigger
  rw [detect_eq_matchFor]
  cases hmeaning adapter.context h.picks with
  | trigger hmatch hexpands =>
      rw [hmatch]
      exact exists_depth_expand hexpands
  | @regex m detected out hmatch hm hdetects hall =>
      rw [hmatch, Option.map_none, Option.none_or]
      cases hfound : adapter.findRegexMatches text with
      | nil =>
          have hmem := (hregex detected).mpr ⟨m, hm, hdetects⟩
          rw [hfound] at hmem
          cases hmem
      | cons first rest =>
          obtain ⟨m', hm', hdetects'⟩ := (hregex first).mp (hfound ▸ List.mem_cons_self)
          exact exists_depth_expand (hall m' first hm' hdetects')
  | nothing hmatch hnone =>
      have hnil : adapter.findRegexMatches text = [] := by
        refine List.eq_nil_iff_forall_not_mem.mpr fun detected hdetected => ?_
        obtain ⟨m, hm, hdetects⟩ := (hregex detected).mp hdetected
        exact hnone m detected hm hdetects
      rw [hmatch, hnil]
      exact ⟨0, fun _ _ _ _ => rfl⟩

end RendererAdapter

/-! ## §5. What the backend may answer. -/

/-- A match expands to one text, in whatever order its groups come. -/
theorem DetectedMatch.ExpandsTo.unique {runtime : Runtime} {ctx : Context} {match_ : DetectedMatch}
    {text out out' body : String} {argOrder : ArgOrder} {effect : TextEffect} {moves : Option Nat}
    (h : match_.ExpandsTo runtime ctx text out) (heffect : match_.id.effect = .text effect)
    (hdenotes : Denotes runtime.renderer ctx (match_.id.casingStyle text)
      (augment argOrder match_.args effect) body)
    (hhint : processCursorHint runtime.graphemes runtime.overflowChecks body
      = some (out', moves)) : out = out' := by
  obtain ⟨effect', body', heffect', hdenotes', moves', hhint'⟩ := h.denotes
  rw [heffect] at heffect'
  cases heffect'
  rw [(hdenotes' argOrder).unique hdenotes, hhint] at hhint'
  cases hhint'
  rfl

/-- **A text that has a meaning may stand for nothing else.** -/
theorem Meaning.eq_of_mayMean {runtime : Runtime} {files : MatchFile → Prop} {text out : String}
    {meaning : Option String} (h : Meaning runtime files text meaning)
    (hmay : MayMean runtime files text out) : meaning = some out := by
  obtain ⟨ctx, hpicks, match_, hsettles, _, argOrder, effect, body, moves, heffect, hdenotes,
    hhint⟩ := hmay
  rcases hsettles with ⟨m, hmatch, rfl⟩ | ⟨hmatch, file, m, hfile, hm, hdetects⟩
  · cases h ctx hpicks with
    | trigger hmatch' hexpands =>
        obtain rfl := Option.some.inj (hmatch.symm.trans hmatch')
        rw [hexpands.unique heffect hdenotes hhint]
    | regex hmatch' => rw [hmatch] at hmatch'; cases hmatch'
    | nothing hmatch' => rw [hmatch] at hmatch'; cases hmatch'
  · cases h ctx hpicks with
    | trigger hmatch' => rw [hmatch] at hmatch'; cases hmatch'
    | regex _ _ _ hall =>
        rw [(hall m match_ ⟨file, hfile, hm⟩ hdetects).unique heffect hdenotes hhint]
    | nothing _ hnone => exact absurd hdetects (hnone m match_ ⟨file, hfile, hm⟩)

omit [CaseTables] in
/-- The variables that are rendered: those of the text, and those for captured groups. -/
theorem mem_vars_augment {argOrder : ArgOrder} {args : HashMap String String}
    {effect : TextEffect} {var : Variable} (h : var ∈ (augment argOrder args effect).vars) :
    var ∈ effect.vars ∨ ∃ entry ∈ args.entries, var = argVariable entry.1 entry.2 := by
  rw [augment_eq] at h
  cases List.mem_append.mp h with
  | inl hargs =>
      obtain ⟨_, hiter, rfl⟩ := List.mem_map.mp (List.mem_reverse.mp hargs)
      obtain ⟨entry, hentry, rfl⟩ := List.mem_map.mp ((argOrder.perm _).mem_iff.mp hiter)
      exact .inr ⟨entry, hentry, rfl⟩
  | inr hvars => exact .inl hvars

section Regular

variable {runtime : Runtime} {files : MatchFile → Prop} {ctx : Context} {text : String}
  {match_ : DetectedMatch} (hregular : RegularFiles runtime files) (hpicks : ctx.Picks files)
include hregular hpicks

/-- A context of regular definitions. -/
theorem RegularFiles.allVars : ctx.AllVars (Variable.Regular runtime.renderer) := by
  constructor
  · intro var hvar
    obtain ⟨file, hfile, hentry⟩ := hpicks.globalVar var.name var (Context.mem_globalVars.mp hvar)
    obtain ⟨var', hvar', heq⟩ := List.mem_map.mp hentry
    obtain rfl := (Prod.mk.inj heq).2
    exact hregular.globals file hfile var' hvar'
  · intro trigger m sub hm heffect
    obtain ⟨file, hfile, hentry⟩ := hpicks.match_ trigger m hm
    obtain ⟨m', hm', hentry⟩ := List.mem_flatMap.mp hentry
    obtain ⟨_, _, heq⟩ := List.mem_map.mp hentry
    obtain rfl := (Prod.mk.inj heq).2
    exact hregular.triggers file hfile m' hm' sub heffect

/-- Whatever match is settled on, its variables are regular. -/
theorem RegularFiles.of_settlesOn (hsettles : ctx.SettlesOn runtime files text match_)
    {argOrder : ArgOrder} {effect : TextEffect} (heffect : match_.id.effect = .text effect) :
    ∀ var ∈ (augment argOrder match_.args effect).vars, var.Regular runtime.renderer := by
  intro var hvar
  rcases hsettles with ⟨m, hmatch, rfl⟩ | ⟨_, file, m, hfile, hm, hdetects⟩
  · cases mem_vars_augment hvar with
    | inl hvar =>
        have hallVars := (hregular.allVars hpicks).2
        rcases Option.or_eq_some_iff.mp hmatch with hlook | ⟨_, hlook⟩
        · exact hallVars _ m effect hlook heffect var hvar
        · exact hallVars _ m effect hlook heffect var hvar
    | inr hentry =>
        -- no group is captured by a trigger
        obtain ⟨_, hentry, _⟩ := hentry
        cases hentry
  · cases mem_vars_augment hvar with
    | inl hvar =>
        rw [RegexEngine.detect_id hdetects.2] at heffect
        exact hregular.regexes file hfile m hm effect heffect var hvar
    | inr hentry =>
        obtain ⟨entry, hentry, rfl⟩ := hentry
        exact hregular.captured file hfile m hm text match_ hdetects entry hentry

end Regular

namespace RendererAdapter

variable {adapter : RendererAdapter} {files : MatchFile → Prop} {text : String}

omit [CaseTables] in
/-- **What `check_trigger` settles on**, by the files that the backend knows. -/
theorem Knows.settlesOn (h : adapter.Knows files) {match_ : DetectedMatch}
    (hdetect : adapter.detect text = some match_) :
    adapter.context.SettlesOn adapter.runtime files text match_ := by
  rw [detect_eq_matchFor] at hdetect
  cases hmatch : adapter.context.matchFor text with
  | some m =>
      rw [hmatch] at hdetect
      cases hdetect
      exact .inl ⟨m, hmatch, rfl⟩
  | none =>
      rw [hmatch] at hdetect
      obtain ⟨m, hm, hdetects⟩ := mem_findRegexMatches.mp (List.mem_of_head? hdetect)
      obtain ⟨file, hfile, hm⟩ := (h.regexes m).mp hm
      exact .inr ⟨hmatch, file, m, hfile, hm, hdetects⟩

/-- **A backend that knows the files answers only what the text may stand for.** -/
theorem Knows.mayMean (h : adapter.Knows files) (hregular : RegularFiles adapter.runtime files)
    {fuel : Nat} {orders : RenderOrder} {argOrder : ArgOrder} {out : String}
    (hanswer : adapter.checkTrigger fuel orders argOrder text = .ok (some out)) :
    MayMean adapter.runtime files text out := by
  unfold checkTrigger at hanswer
  cases hdetect : adapter.detect text with
  | none =>
      rw [hdetect] at hanswer
      cases hanswer
  | some match_ =>
      rw [hdetect] at hanswer
      obtain ⟨body, hrender, hhint⟩ := bind_eq_ok_iff.mp hanswer
      obtain ⟨haccepts, effect, heffect, hrendered⟩ := render_ok_iff.mp hrender
      have hsettles := h.settlesOn hdetect
      have hdenotes := denotes_of_renderTemplate (hregular.allVars h.picks)
        (hregular.of_settlesOn h.picks hsettles heffect) hrendered
      cases hprocessed : adapter.processCursorHint body with
      | none =>
          rw [hprocessed] at hhint
          cases hhint
      | some result =>
          rw [hprocessed] at hhint
          cases hhint
          exact ⟨adapter.context, h.picks, match_, hsettles, haccepts, argOrder, effect, body,
            result.2, heffect, hdenotes, hprocessed⟩

end RendererAdapter

end Shinran
