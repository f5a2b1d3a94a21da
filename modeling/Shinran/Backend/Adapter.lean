/-
  Shinran.Backend.Adapter
  ───────────────────────
  **FROM A TYPED TEXT TO ITS EXPANSION** (`shinran_backend`, `render`, `cursor`).

  The text that was typed is looked up among the triggers, then among the
  regular expressions; the first match found is rendered, with a casing style
  taken from the text and the captured groups as variables.

    • `calculateCasingStyle` — the style, by the first two letters,
    • `prepareRender`, `RendererAdapter.render` — what is rendered, and the rendering,
    • `processCursorHint`    — the hint `$|$` is taken out of the result,
    • `RendererAdapter.checkTrigger` — all of it,
    • `checkTrigger_ok_iff`  — when it does not fail,
    • `renderable_iff`       — fault by fault.

  Which of the orders of a hash map is met is arbitrary, and so is whether
  the build checks arithmetic.
-/
import Shinran.Backend.RegexMatcher
import Shinran.Render.Failure

namespace Shinran

/-! ## §1. Letters. -/

/-- The Unicode tables that the casing style reads as well. -/
class CaseTables extends UnicodeTables where
  /-- `char::is_alphabetic`. -/
  isAlphabetic : Char → Bool
  /-- `char::is_uppercase`. -/
  isUppercase : Char → Bool
  /-- `char::to_lowercase`. -/
  toLowercase : Char → List Char
  isAlphabetic_ascii : ∀ c : Char, c.toNat < 128 → isAlphabetic c = c.isAlpha
  isUppercase_ascii : ∀ c : Char, c.toNat < 128 → isUppercase c = c.isUpper
  toLowercase_ascii : ∀ c : Char, c.toNat < 128 → toLowercase c = [c.toLower]
  isAlphabetic_of_isUppercase : ∀ c, isUppercase c = true → isAlphabetic c = true
  /-- Only letters change when they are uppercased. -/
  toUppercase_of_not_isAlphabetic : ∀ c, isAlphabetic c = false → toUppercase c = [c]
  /-- The other form of a letter that has a lowercase form is uppercase. -/
  isUppercase_of_toUppercase : ∀ c u, toUppercase c = [u] → u ≠ c → toLowercase u = [c] →
    isUppercase u = true

/-- The tables cut down to ASCII. -/
@[reducible] def CaseTables.ascii : CaseTables where
  toUnicodeTables := .ascii
  isAlphabetic c := c.isAlpha
  isUppercase c := c.isUpper
  toLowercase c := [c.toLower]
  isAlphabetic_ascii _ _ := rfl
  isUppercase_ascii _ _ := rfl
  toLowercase_ascii _ _ := rfl
  isAlphabetic_of_isUppercase c h := by simp [isAlpha_eq, h]
  toUppercase_of_not_isAlphabetic c h := by
    simp only [isAlpha_eq, Bool.or_eq_false_iff] at h
    exact congrArg (fun u => [u]) (toUpper_eq_self h.2)
  isUppercase_of_toUppercase c u h hne _ := by
    obtain rfl : c.toUpper = u := (List.cons.inj (show [c.toUpper] = [u] from h)).1
    cases hlower : c.isLower with
    | true => exact isUpper_toUpper hlower
    | false => exact absurd (toUpper_eq_self hlower) hne

section
variable [CaseTables]

open CaseTables (isAlphabetic isUppercase)

/-- The letters of a text. -/
def letters (text : String) : List Char := text.toList.filter isAlphabetic

/-- `calculate_casing_style`. -/
def calculateCasingStyle (trigger : String) (uppercasingStyle : Option UpperCasingStyle) :
    CasingStyle :=
  -- the loop over the characters notes the first two letters
  match letters trigger with
  | first :: second :: _ =>
      if isUppercase first then
        if isUppercase second then .uppercase
        else
          match uppercasingStyle with
          | some .capitalizeWords => .capitalizeWords
          | _ => .capitalize
      else .none
  | [first] =>
      if isUppercase first then
        match uppercasingStyle with
        | some .capitalize => .capitalize
        | some .capitalizeWords => .capitalizeWords
        | _ => .uppercase
      else .none
  | [] => .none

/-! ## §2. What is rendered. -/

/-- `engine::RendererError`. -/
inductive EngineError where
  | renderingError (err : Error)
  | notFound
  | aborted
  deriving DecidableEq, Repr

/-- How an expansion can fail. -/
inductive BackendFailure where
  /-- An error is returned. -/
  | error (err : EngineError)
  | panicked
  /-- The renderings are nested too deeply. -/
  | stackOverflow
  deriving DecidableEq, Repr

/-- The order in which the captured groups are iterated. -/
structure ArgOrder where
  iter : List (String × String) → List (String × String)
  perm : ∀ args, (iter args).Perm args

def ArgOrder.canonical : ArgOrder := ⟨id, fun _ => .refl _⟩

omit [CaseTables] in
/-- The text effect with a variable for every captured group, the last one in front. -/
def augment (argOrder : ArgOrder) (triggerVars : HashMap String String)
    (effect : TextEffect) : TextEffect :=
  { effect with
    vars := (argOrder.iter (triggerVars.entries.map fun entry => (entry.1, entry.2))).foldl
      (fun vars (name, value) =>
        { name := name, varType := .echo, params := [("echo", .string value)],
          injectVars := false } :: vars) effect.vars }

/-- `RendererAdapter::render`, up to the call of `render_template`: its template and the casing
style. -/
def prepareRender (argOrder : ArgOrder) (matchId : MatchRef) (trigger : Option String)
    (triggerVars : HashMap String String) : Except BackendFailure (TextEffect × CasingStyle) := do
  let (effect, propagateCase, preferredUppercasingStyle) ←
    match matchId with
    | .trigger m =>
        -- without propagation the typed text has to be one of the triggers
        if trigger.any fun trigger => !m.propagateCase && !m.triggers.contains trigger then
          .error (.error .notFound)
        else .ok (m.baseMatch.effect, m.propagateCase, some m.uppercaseStyle)
    | .regex m => .ok (m.baseMatch.effect, false, none)
    | .builtIn _ => .error .panicked
  match effect with
  | .text textEffect =>
      let style :=
        match trigger with
        | some trigger =>
            if propagateCase then calculateCasingStyle trigger preferredUppercasingStyle else .none
        | none => .none
      .ok (augment argOrder triggerVars textEffect, style)
  | _ => .error (.error .notFound)

end

/-! ## §3. The cursor hint. -/

/-- A subtraction of `usize`, which panics if the build checks arithmetic, and else wraps
around. -/
def usizeSub (overflowChecks : Bool) (a b : Nat) : Option Nat :=
  if b ≤ a then some (a - b)
  else if overflowChecks then none
  else some (a + 0x10000000000000000 - b)

/-- The part of the text before the first `$|$`. -/
def beforeHint : List Char → Option (List Char)
  | '$' :: '|' :: '$' :: _ => some []
  | c :: cs => (beforeHint cs).map (c :: ·)
  | [] => none

/-- `process_cursor_hint`; a string has the given number of graphemes. -/
def processCursorHint (graphemes : String → Nat) (overflowChecks : Bool) (body : String) :
    Option (String × Option Nat) :=
  match beforeHint body.toList with
  | none => some (body, none)
  | some before => do
      let charIndex := graphemes (String.ofList before)
      let totalSize := graphemes body
      -- three more characters for the placeholder
      let moves ← usizeSub overflowChecks totalSize charIndex
      let moves ← usizeSub overflowChecks moves 3
      some (replaceAll body "$|$" "", some moves)

example : processCursorHint (·.length) true "<b>$|$</b>" = some ("<b></b>", some 4) := by decide

/-! ## §4. The adapter. -/

/-- Matches and variables are filed under all of their names. -/
structure ProfileCache.Consistent (cache : ProfileCache) : Prop where
  keyed : ∀ name var, cache.globalVarMap.lookup name = some var → var.name = name
  filed : ∀ trigger m, cache.triggerMap.lookup trigger = some m →
    trigger ∈ m.triggers ∧ ∀ other ∈ m.triggers, (cache.triggerMap.lookup other).isSome

/-- What the backend takes from libraries, and from its build. -/
structure Runtime where
  regex : RegexEngine
  /-- The number of grapheme clusters. -/
  graphemes : String → Nat
  overflowChecks : Bool
  renderer : Renderer

/-- `RendererAdapter`; no built-in match has a trigger. -/
structure RendererAdapter where
  combinedCache : CombinedMatchCache
  runtime : Runtime
  consistent : combinedCache.userMatchCache.Consistent
  builtins : ∀ m ∈ combinedCache.builtinMatchCache.values, m.triggers = []

/-- **The cache of a profile is consistent.** -/
theorem MatchesAndGlobalVars.consistent_toCache (collection : MatchesAndGlobalVars) :
    collection.toCache.Consistent where
  keyed name var h := by
    change (insertGlobalVars ∅ collection.globalVars).lookup name = some var at h
    rw [insertGlobalVars_eq, HashMap.lookup_insertEntries, AList.lookup_empty, Option.or_none] at h
    obtain ⟨_, _, heq⟩ := List.mem_map.mp (mem_of_lastEntry h)
    cases heq
    rfl
  filed trigger m h := by
    have hlookup : ∀ key, collection.toCache.triggerMap.lookup key
        = lastEntry (collection.triggerMatches.flatMap fun m =>
          m.triggers.map fun trigger => (trigger, m)) key := by
      intro key
      show (insertTriggerMatches ∅ collection.triggerMatches).lookup key = _
      rw [insertTriggerMatches_eq, HashMap.lookup_insertEntries, AList.lookup_empty,
        Option.or_none]
    rw [hlookup] at h
    obtain ⟨m', hm', hentry⟩ := List.mem_flatMap.mp (mem_of_lastEntry h)
    obtain ⟨trigger', htrigger, heq⟩ := List.mem_map.mp hentry
    cases heq
    refine ⟨htrigger, fun other hother => ?_⟩
    rw [hlookup, lastEntry_flatMap_isSome_iff]
    refine ⟨m, hm', ?_⟩
    unfold lastEntry
    rw [Option.isSome_map, List.find?_isSome]
    exact ⟨(other, m), List.mem_reverse.mpr (List.mem_map_of_mem hother), by simp⟩

/-- `get_builtin_matches`, from the next free id on: none of the two has a trigger. -/
def getBuiltinMatches (nextId : Int32) : List BuiltInMatch := [⟨nextId, []⟩, ⟨nextId + 1, []⟩]

theorem triggers_of_getBuiltinMatches {nextId : Int32} {cache : ProfileCache} :
    ∀ m ∈ (CombinedMatchCache.load cache (getBuiltinMatches nextId)).builtinMatchCache.values,
      m.triggers = [] := by
  intro m hm
  obtain ⟨⟨id, m'⟩, hentry, rfl⟩ := List.mem_map.mp hm
  have hlookup : (HashMap.insertAll (·.id) ∅ (getBuiltinMatches nextId)).lookup id = some m' :=
    AList.mem_lookup_iff.mpr hentry
  rw [HashMap.lookup_insertAll, AList.lookup_empty, Option.or_none] at hlookup
  have hmem := List.mem_reverse.mp (List.mem_of_find?_eq_some hlookup)
  simp only [getBuiltinMatches, List.mem_cons, List.not_mem_nil, or_false] at hmem
  obtain rfl | rfl := hmem <;> rfl

/-- The adapter for a collection of matches. -/
def RendererAdapter.ofCollection (runtime : Runtime) (nextId : Int32)
    (collection : MatchesAndGlobalVars) : RendererAdapter where
  combinedCache := .load collection.toCache (getBuiltinMatches nextId)
  runtime := runtime
  consistent := collection.consistent_toCache
  builtins := triggers_of_getBuiltinMatches

/-- `Backend::new`, with the cache that `create_profile_cache` makes of the active profile. -/
def RendererAdapter.new (runtime : Runtime) (nextId : Int32) (profile : ProfileFile)
    (matchStore : MatchStore) (fuel : Nat) : Option (Except Panic RendererAdapter) :=
  (matchStore.collectMatchesAndGlobalVars fuel profile.matchFilePaths).map fun result =>
    result.map (.ofCollection runtime nextId)

namespace RendererAdapter

/-- The maps that every rendering shares. -/
def context (adapter : RendererAdapter) : Context where
  matchesMap := adapter.combinedCache.userMatchCache.triggerMap
  globalVarsMap := adapter.combinedCache.userMatchCache.globalVarMap
  keyed := adapter.consistent.keyed

/-- `find_matches_from_trigger`. -/
def findMatchesFromTrigger (adapter : RendererAdapter) (trigger : String) : List DetectedMatch :=
  adapter.combinedCache.findMatchesFromTrigger trigger

/-- `find_regex_matches`; the matcher is built from the regex matches of the profile. -/
def findRegexMatches (adapter : RendererAdapter) (trigger : String) : List DetectedMatch :=
  (RegexMatcher.new adapter.runtime.regex
    adapter.combinedCache.userMatchCache.regexMatches).findMatches trigger

/-- The match that `check_trigger` settles on. -/
def detect (adapter : RendererAdapter) (trigger : String) : Option DetectedMatch :=
  (adapter.findMatchesFromTrigger trigger).head?.or (adapter.findRegexMatches trigger).head?

/-- `process_cursor_hint`, as this build computes it. -/
def processCursorHint (adapter : RendererAdapter) (body : String) :
    Option (String × Option Nat) :=
  Shinran.processCursorHint adapter.runtime.graphemes adapter.runtime.overflowChecks body

section
variable [CaseTables]

omit [CaseTables] in
/-- What `render` makes of the result of `render_template`. -/
def outcome : Option RenderResult → Except BackendFailure String
  | some (.success body) => .ok body
  | some .aborted => .error (.error .aborted)
  | some (.error err) => .error (.error (.renderingError err))
  | some .panicked => .error .panicked
  | none => .error .stackOverflow

/-- `RendererAdapter::render`; `fuel` bounds the depth of the nested renderings. -/
def render (adapter : RendererAdapter) (fuel : Nat) (orders : RenderOrder) (argOrder : ArgOrder)
    (matchId : MatchRef) (trigger : Option String) (triggerVars : HashMap String String) :
    Except BackendFailure String := do
  let (template, style) ← prepareRender argOrder matchId trigger triggerVars
  outcome (renderTemplate adapter.runtime.renderer adapter.context style fuel orders template)

/-- The last step of `check_trigger`, for the match that it settles on. -/
def expand (adapter : RendererAdapter) (fuel : Nat) (orders : RenderOrder) (argOrder : ArgOrder)
    (trigger : String) (match_ : DetectedMatch) : Except BackendFailure (Option String) := do
  let body ← adapter.render fuel orders argOrder match_.id (some trigger) match_.args
  match adapter.processCursorHint body with
  | some (body, _) => .ok (some body)
  | none => .error .panicked

/-- `Backend::check_trigger`. -/
def checkTrigger (adapter : RendererAdapter) (fuel : Nat) (orders : RenderOrder)
    (argOrder : ArgOrder) (trigger : String) : Except BackendFailure (Option String) :=
  match adapter.detect trigger with
  | some match_ => adapter.expand fuel orders argOrder trigger match_
  | none => .ok none

end

/-! ## §5. What `check_trigger` settles on. -/

variable {adapter : RendererAdapter} {trigger : String}

/-- The trigger map. -/
def triggerMap (adapter : RendererAdapter) : HashMap String TriggerMatch :=
  adapter.combinedCache.userMatchCache.triggerMap

/-- No built-in match is ever found. -/
theorem findMatchesFromTrigger_eq : adapter.findMatchesFromTrigger trigger
    = (((adapter.triggerMap.lookup trigger).or
        (adapter.triggerMap.lookup (toAsciiLowercase trigger))).map fun m =>
      { id := .trigger m, trigger := trigger : DetectedMatch }).toList := by
  have hbuiltin : (adapter.combinedCache.builtinMatchCache.values.filterMap fun m =>
      if m.triggers.any (· == trigger) then
        some { id := .builtIn m.id, trigger := trigger : DetectedMatch }
      else none) = [] := by
    rw [List.filterMap_eq_nil_iff]
    intro m hm
    simp [adapter.builtins m hm]
  unfold findMatchesFromTrigger CombinedMatchCache.findMatchesFromTrigger triggerMap
  dsimp only
  rw [hbuiltin, List.append_nil]
  cases adapter.combinedCache.userMatchCache.triggerMap.lookup trigger <;> simp

/-- **The match that is settled on**: the one of the trigger, else that of its lowercase form,
else the first regex match. -/
theorem detect_eq : adapter.detect trigger
    = (((adapter.triggerMap.lookup trigger).or
        (adapter.triggerMap.lookup (toAsciiLowercase trigger))).map fun m =>
      { id := .trigger m, trigger := trigger : DetectedMatch }).or
        (adapter.findRegexMatches trigger).head? := by
  unfold detect
  rw [findMatchesFromTrigger_eq]
  cases (adapter.triggerMap.lookup trigger).or
    (adapter.triggerMap.lookup (toAsciiLowercase trigger)) <;> rfl

end RendererAdapter

/-! ## §6. When an expansion is there. -/

/-- What a match expands to. -/
def MatchRef.effect : MatchRef → MatchEffect
  | .trigger m => m.baseMatch.effect
  | .regex m => m.baseMatch.effect
  | .builtIn _ => .none

/-- The typed text is one that the match is for. -/
def MatchRef.Accepts (trigger : String) : MatchRef → Prop
  | .trigger m => m.propagateCase ∨ trigger ∈ m.triggers
  | .regex _ => True
  | .builtIn _ => False

section
variable [CaseTables]

/-- The casing style in which the typed text asks for the match. -/
def MatchRef.casingStyle (trigger : String) : MatchRef → CasingStyle
  | .trigger m =>
      if m.propagateCase then calculateCasingStyle trigger (some m.uppercaseStyle) else .none
  | .regex _ | .builtIn _ => .none

/-- **What is rendered**, and with which style. -/
theorem prepareRender_ok_iff {argOrder : ArgOrder} {matchId : MatchRef} {trigger : String}
    {args : HashMap String String} {template : TextEffect} {style : CasingStyle} :
    prepareRender argOrder matchId (some trigger) args = .ok (template, style)
      ↔ matchId.Accepts trigger ∧ ∃ effect, matchId.effect = .text effect
        ∧ template = augment argOrder args effect ∧ style = matchId.casingStyle trigger := by
  unfold prepareRender
  cases matchId with
  | builtIn id => simp [bind, Except.bind, MatchRef.Accepts]
  | regex m =>
      simp only [bind, Except.bind, MatchRef.Accepts, MatchRef.effect, MatchRef.casingStyle,
        true_and, Bool.false_eq_true, if_false]
      cases m.baseMatch.effect with
      | none => simp
      | image effect => simp
      | text effect => simp [@eq_comm _ template, @eq_comm _ style]
  | trigger m =>
      by_cases haccepts : m.propagateCase ∨ trigger ∈ m.triggers
      · have hguard : (!m.propagateCase && !m.triggers.contains trigger) = false := by
          cases haccepts with
          | inl hpropagate => rw [hpropagate]; rfl
          | inr hmem => rw [List.contains_iff_mem.mpr hmem, Bool.not_true, Bool.and_false]
        simp only [Option.any_some, hguard, Bool.false_eq_true, if_false, bind, Except.bind,
          MatchRef.Accepts, haccepts, MatchRef.effect, MatchRef.casingStyle, true_and]
        cases m.baseMatch.effect with
        | none => simp
        | image effect => simp
        | text effect => simp [@eq_comm _ template, @eq_comm _ style]
      · have hguard : (!m.propagateCase && !m.triggers.contains trigger) = true := by
          obtain ⟨hpropagate, hmem⟩ := not_or.mp haccepts
          rw [← List.contains_iff_mem, Bool.not_eq_true] at hmem
          rw [Bool.not_eq_true] at hpropagate
          rw [hpropagate, hmem]
          rfl
        dsimp only
        rw [Option.any_some, if_pos hguard]
        constructor
        · intro h
          cases h
        · intro h
          exact absurd h.1 haccepts

namespace RendererAdapter

variable {adapter : RendererAdapter} {fuel : Nat} {orders : RenderOrder} {argOrder : ArgOrder}
  {trigger : String}

/-- The rendering of a match succeeds. -/
def Renderable (adapter : RendererAdapter) (fuel : Nat) (orders : RenderOrder)
    (argOrder : ArgOrder) (trigger : String) (match_ : DetectedMatch) : Prop :=
  match_.id.Accepts trigger ∧ ∃ effect body, match_.id.effect = .text effect
    ∧ renderTemplate adapter.runtime.renderer adapter.context (match_.id.casingStyle trigger) fuel
        orders (augment argOrder match_.args effect) = some (.success body)
    ∧ (adapter.processCursorHint body).isSome

omit [CaseTables] in
theorem outcome_eq_ok {result : Option RenderResult} {body : String} :
    outcome result = .ok body ↔ result = some (.success body) := by
  cases result with
  | none => simp [outcome]
  | some result => cases result <;> simp [outcome]

theorem render_ok_iff {matchId : MatchRef} {args : HashMap String String} {body : String} :
    adapter.render fuel orders argOrder matchId (some trigger) args = .ok body
      ↔ matchId.Accepts trigger ∧ ∃ effect, matchId.effect = .text effect
        ∧ renderTemplate adapter.runtime.renderer adapter.context (matchId.casingStyle trigger)
          fuel orders (augment argOrder args effect) = some (.success body) := by
  unfold render
  rw [bind_eq_ok_iff]
  constructor
  · intro h
    obtain ⟨⟨template, style⟩, hprepare, hrender⟩ := h
    obtain ⟨haccepts, effect, heffect, rfl, rfl⟩ := prepareRender_ok_iff.mp hprepare
    exact ⟨haccepts, effect, heffect, outcome_eq_ok.mp hrender⟩
  · intro h
    obtain ⟨haccepts, effect, heffect, hrender⟩ := h
    exact ⟨_, prepareRender_ok_iff.mpr ⟨haccepts, effect, heffect, rfl, rfl⟩,
      outcome_eq_ok.mpr hrender⟩

theorem expand_ok_iff {match_ : DetectedMatch} :
    (∃ output, adapter.expand fuel orders argOrder trigger match_ = .ok output)
      ↔ adapter.Renderable fuel orders argOrder trigger match_ := by
  unfold expand Renderable
  simp only [bind_eq_ok_iff, render_ok_iff]
  constructor
  · intro h
    obtain ⟨output, body, ⟨haccepts, effect, heffect, hrender⟩, houtput⟩ := h
    refine ⟨haccepts, effect, body, heffect, hrender, ?_⟩
    cases hhint : adapter.processCursorHint body with
    | none => rw [hhint] at houtput; cases houtput
    | some result => rfl
  · intro h
    obtain ⟨haccepts, effect, body, heffect, hrender, hhint⟩ := h
    obtain ⟨⟨out, moves⟩, hhint⟩ := Option.isSome_iff_exists.mp hhint
    exact ⟨some out, body, ⟨haccepts, effect, heffect, hrender⟩, by rw [hhint]⟩

/-- **When `check_trigger` does not fail**: nothing is found, or what is found first is for the
typed text and can be rendered. -/
theorem checkTrigger_ok_iff :
    (∃ output, adapter.checkTrigger fuel orders argOrder trigger = .ok output)
      ↔ ∀ match_, adapter.detect trigger = some match_ →
        adapter.Renderable fuel orders argOrder trigger match_ := by
  unfold checkTrigger
  cases hdetect : adapter.detect trigger with
  | none => simp
  | some match_ => simp [expand_ok_iff]

variable (adapter fuel orders argOrder) in
/-- The match is for the text as it was typed and has a text, nothing goes wrong in rendering that,
and its cursor hint can be counted. -/
def Expands (text : String) (match_ : DetectedMatch) : Prop :=
  match_.id.Accepts text ∧ ∃ effect, match_.id.effect = .text effect
    ∧ ¬ Fails adapter.runtime.renderer adapter.context (match_.id.casingStyle text) fuel orders
        (augment argOrder match_.args effect)
    ∧ ∀ body, renderTemplate adapter.runtime.renderer adapter.context
        (match_.id.casingStyle text) fuel orders (augment argOrder match_.args effect)
          = some (.success body) →
      (adapter.processCursorHint body).isSome

theorem renderable_iff {text : String} {match_ : DetectedMatch} :
    adapter.Renderable fuel orders argOrder text match_
      ↔ adapter.Expands fuel orders argOrder text match_ := by
  unfold Renderable Expands
  refine and_congr_right fun _ => exists_congr fun effect => ?_
  rw [← renderTemplate_success_iff]
  constructor
  · intro h
    obtain ⟨body, heffect, hbody, hhint⟩ := h
    refine ⟨heffect, ⟨body, hbody⟩, fun body' hbody' => ?_⟩
    rw [hbody, Option.some.injEq, RenderResult.success.injEq] at hbody'
    rwa [← hbody']
  · intro h
    obtain ⟨heffect, ⟨body, hbody⟩, hhint⟩ := h
    exact ⟨body, heffect, hbody, hhint body hbody⟩

end RendererAdapter

end

end Shinran
