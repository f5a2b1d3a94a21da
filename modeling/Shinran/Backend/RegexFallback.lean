/-
  Shinran.Backend.RegexFallback
  ─────────────────────────────
  **TRIGGERS BEFORE REGULAR EXPRESSIONS.**

  `check_trigger` settles on the match of the lowercase form of a text before
  it turns to the regular expressions.  That match may not be for the text,
  which comes out only when it is rendered, too late for another choice.

    • `expand_lowercase`          — a match that turns out not to be for the text,
    • `ReturnsRendering`          — that a match is rendered,
    • `regexMatch_rendered_iff`   — when a regex match is rendered, if nothing
                                    else is for the text,
    • `lowercaseHit_hides_regex`  — when it is not.
-/
import Shinran.Backend.Adapter

namespace Shinran

/-! ## §1. Matches that are not for the text. -/

section
variable [CaseTables]

/-- A match that is not for the text is reported as not found. -/
theorem prepareRender_error {argOrder : ArgOrder} {m : TriggerMatch} {trigger : String}
    {args : HashMap String String} (h : ¬ (MatchRef.trigger m).Accepts trigger) :
    prepareRender argOrder (.trigger m) (some trigger) args = .error (.error .notFound) := by
  cases hprepare : prepareRender argOrder (.trigger m) (some trigger) args with
  | ok prepared => exact absurd (prepareRender_ok_iff.mp hprepare).1 h
  | error failure =>
      unfold prepareRender at hprepare
      dsimp only at hprepare
      split_ifs at hprepare
      · cases hprepare
        rfl
      · simp only [bind, Except.bind] at hprepare
        split at hprepare <;> cases hprepare
        rfl

namespace RendererAdapter

variable {adapter : RendererAdapter} {trigger : String}

/-- A match that is filed under the lowercase form, and not for the text, ends in an error. -/
theorem expand_lowercase {m : TriggerMatch} (hexact : adapter.triggerMap.lookup trigger = none)
    (hfound : adapter.triggerMap.lookup (toAsciiLowercase trigger) = some m)
    (hpropagate : m.propagateCase = false) (fuel : Nat) (orders : RenderOrder)
    (argOrder : ArgOrder) : adapter.expand fuel orders argOrder trigger
        { id := .trigger m, trigger := trigger } = .error (.error .notFound) := by
  have hnot : ¬ (MatchRef.trigger m).Accepts trigger := by
    intro h
    cases h with
    | inl haccepts => rw [hpropagate] at haccepts; cases haccepts
    | inr hmem =>
        -- the text would be one of the triggers of the match, under which it is filed
        have hfiled := (adapter.consistent.filed _ m hfound).2 trigger hmem
        rw [show adapter.combinedCache.userMatchCache.triggerMap.lookup trigger = none
          from hexact] at hfiled
        cases hfiled
  unfold expand render
  rw [prepareRender_error hnot]
  rfl

/-! ## §2. When a regex match is rendered. -/

omit [CaseTables] in
theorem exists_regex_of_head? {first : DetectedMatch}
    (h : (adapter.findRegexMatches trigger).head? = some first) :
    ∃ m, first.id = .regex m := by
  obtain ⟨m, _, _, hid⟩ := RegexMatcher.mem_findMatches (List.mem_of_head? h)
  exact ⟨m, hid⟩

/-- `check_trigger` returns the rendering of the match, with its captured groups, and with the cursor
hint taken out. -/
def ReturnsRendering (adapter : RendererAdapter) (fuel : Nat) (orders : RenderOrder)
    (argOrder : ArgOrder) (trigger : String) (match_ : DetectedMatch) : Prop :=
  ∃ effect body text moves, match_.id.effect = .text effect
    ∧ renderTemplate adapter.runtime.renderer adapter.context .none fuel orders
        (augment argOrder match_.args effect) = some (.success body)
    ∧ adapter.processCursorHint body = some (text, moves)
    ∧ adapter.checkTrigger fuel orders argOrder trigger = .ok (some text)

/-- **When the first regex match is rendered.**  Nothing is filed under the text, and what is
filed under its lowercase form does not propagate the case.  Then `check_trigger` returns the
rendering of the first regex match if and only if nothing is filed under the lowercase form, and
that match has a text which renders. -/
theorem regexMatch_rendered_iff {first : DetectedMatch}
    (hexact : adapter.triggerMap.lookup trigger = none)
    (hlowercase : ∀ m, adapter.triggerMap.lookup (toAsciiLowercase trigger) = some m →
      m.propagateCase = false)
    (hfirst : (adapter.findRegexMatches trigger).head? = some first)
    (fuel : Nat) (orders : RenderOrder) (argOrder : ArgOrder) :
    adapter.ReturnsRendering fuel orders argOrder trigger first
      ↔ adapter.triggerMap.lookup (toAsciiLowercase trigger) = none
        ∧ adapter.Expands fuel orders argOrder trigger first := by
  obtain ⟨regexMatch, hregex⟩ := exists_regex_of_head? hfirst
  have hcheck : adapter.triggerMap.lookup (toAsciiLowercase trigger) = none →
      adapter.checkTrigger fuel orders argOrder trigger
        = adapter.expand fuel orders argOrder trigger first := by
    intro hnone
    unfold checkTrigger
    rw [detect_eq, hexact, hnone, hfirst]
    rfl
  rw [← renderable_iff]
  unfold ReturnsRendering Renderable
  constructor
  · intro h
    obtain ⟨effect, body, text, moves, heffect, hbody, hhint, hresult⟩ := h
    refine ⟨?_, ?_, effect, body, heffect, ?_, ?_⟩
    · by_contra hsome
      obtain ⟨m, hfound⟩ := Option.ne_none_iff_exists'.mp hsome
      unfold checkTrigger at hresult
      rw [detect_eq, hexact, hfound] at hresult
      have hhidden := expand_lowercase hexact hfound (hlowercase m hfound) fuel orders argOrder
      exact absurd (hhidden.symm.trans hresult) (by simp)
    · rw [hregex]
      trivial
    · rw [hregex]
      exact hbody
    · rw [hhint]
      rfl
  · intro h
    obtain ⟨hnone, haccepts, effect, body, heffect, hbody, hhint⟩ := h
    obtain ⟨⟨text, moves⟩, hhint⟩ := Option.isSome_iff_exists.mp hhint
    have hrender := render_ok_iff.mpr ⟨haccepts, effect, heffect, hbody⟩
    rw [hregex] at hbody
    refine ⟨effect, body, text, moves, heffect, hbody, hhint, ?_⟩
    rw [hcheck hnone]
    unfold expand
    rw [hrender, ok_bind, hhint]

end RendererAdapter

end

/-! ## §3. A regex match that is hidden. -/

/-- An engine for the one expression `[A-Z]+`. -/
def capitalsEngine : RegexEngine where
  compiles regex := regex = "[A-Z]+"
  isMatch regex text := regex = "[A-Z]+" && text.toList.any Char.isUpper
  captureNames _ := [none]
  captures _ text :=
    match (text.toList.dropWhile fun c => !c.isUpper).takeWhile Char.isUpper with
    | [] => none
    | run => some ⟨some (String.ofList run), fun _ => none⟩

/-- One trigger without case propagation, and one regular expression. -/
def shoutingAdapter : RendererAdapter :=
  .ofCollection ⟨capitalsEngine, (·.length), true, .answering ""⟩ 1000000000
    { triggerMatches :=
        [{ baseMatch := { effect := .text { body := "hello" } }, triggers := ["hi"] }]
      regexMatches :=
        [{ baseMatch := { effect := .text { body := "shouted" } }, regex := "[A-Z]+" }]
      globalVars := [] }

/-- What the expression finds in a text of capitals. -/
def shouted (text : String) : DetectedMatch where
  id := .regex { baseMatch := { effect := .text { body := "shouted" } }, regex := "[A-Z]+" }
  trigger := text

/-- **A regex match is hidden** by a match that is not for the text. -/
theorem lowercaseHit_hides_regex :
    shoutingAdapter.triggerMap.lookup "HI" = none
      ∧ (∀ m, shoutingAdapter.triggerMap.lookup (toAsciiLowercase "HI") = some m →
        m.propagateCase = false)
      ∧ (shoutingAdapter.findRegexMatches "HI").head? = some (shouted "HI")
      ∧ (shouted "HI").id.effect = .text { body := "shouted" }
      ∧ @renderTemplate .ascii shoutingAdapter.runtime.renderer shoutingAdapter.context .none 1
        (fun _ => .canonical) (augment .canonical (shouted "HI").args { body := "shouted" })
          = some (.success "shouted")
      ∧ @RendererAdapter.checkTrigger .ascii shoutingAdapter 1 (fun _ => .canonical) .canonical
        "HI" = .error (.error .notFound) := by
  refine ⟨rfl, ?_, rfl, rfl, rfl, rfl⟩
  intro m hm
  cases hm
  rfl

theorem regexMatch_rendered_shout :
    @RendererAdapter.ReturnsRendering .ascii shoutingAdapter 1 (fun _ => .canonical) .canonical
      "HEY" (shouted "HEY") := by
  refine (@RendererAdapter.regexMatch_rendered_iff .ascii shoutingAdapter "HEY" (shouted "HEY") rfl
    (fun _ hm => nomatch hm) rfl 1 (fun _ => .canonical) .canonical).mpr ⟨rfl, ?_⟩
  rw [← @RendererAdapter.renderable_iff .ascii]
  exact ⟨trivial, _, "shouted", rfl, rfl, rfl⟩

end Shinran
