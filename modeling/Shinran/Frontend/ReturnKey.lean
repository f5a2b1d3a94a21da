/-
  Shinran.Frontend.ReturnKey
  ──────────────────────────
  **WHEN RETURN IS SURVIVED.**

  On Return both frontends ask the backend for the expansion of what has been
  typed, and both unwrap the answer.  The backend answers with an error where
  the match that it settles on is not for the text as it was typed, and where
  anything goes wrong in the rendering.

    • `checkTrigger_iff_expandable` — when the backend answers at all,
    • `return_survives_iff`         — when Return is survived, after every run
                                      of either frontend,
    • `missingVariable_panics`      — a text on which both frontends end.
-/
import Shinran.Backend.Adapter
import Shinran.Ibus.Preedit
import Shinran.Render.Failure
import Shinran.Wayland.Preedit

namespace Shinran

open Machine (Run)

section
variable [CaseTables]

/-! ## §1. What can be expanded. -/

namespace RendererAdapter

variable (adapter : RendererAdapter) (fuel : Nat) (orders : RenderOrder) (argOrder : ArgOrder)

/-- The match that is found for the text, if there is one, expands. -/
def Expandable (text : String) : Prop :=
  ∀ match_, adapter.detect text = some match_ →
    adapter.Expands fuel orders argOrder text match_

/-- The backend of a frontend. -/
def backend (fuzzyMatch : String → List (String × UInt16)) : Backend BackendFailure where
  checkTrigger := adapter.checkTrigger fuel orders argOrder
  fuzzyMatch := fuzzyMatch

variable {adapter fuel orders argOrder}

/-- **When the backend answers.** -/
theorem checkTrigger_iff_expandable {text : String} :
    (∃ output, adapter.checkTrigger fuel orders argOrder text = .ok output)
      ↔ adapter.Expandable fuel orders argOrder text := by
  rw [checkTrigger_ok_iff]
  exact forall₂_congr fun match_ _ => renderable_iff

end RendererAdapter

/-! ## §2. Return. -/

/-- **When Return is survived**, after every run of either frontend: nothing has been typed, or
what has been typed is expandable. -/
theorem return_survives_iff (adapter : RendererAdapter) (fuel : Nat) (orders : RenderOrder)
    (argOrder : ArgOrder) (fuzzyMatch : String → List (String × UInt16)) :
    (∀ (keyChar : UInt32 → Option Char) (calls : List (Backend BackendFailure × MethodCall))
        (effects : List Effect) (engine : ShinranEngine) (event : KeyEvent),
        Run (ShinranEngine.handleCall keyChar) (fun _ _ _ => True) {} calls effects engine →
        event.isRelease = false → Keysym.new event.keyval = .return_ →
        (engine.ReturnSurvives keyChar (adapter.backend fuel orders argOrder fuzzyMatch) effects
            event
          ↔ engine.text = "" ∨ adapter.Expandable fuel orders argOrder engine.text))
      ∧ ∀ (κ σ : Type) (xkb : Wayland.Xkb κ σ) (seatIds : List UInt32)
        (events : List (Backend BackendFailure × Wayland.Event))
        (emitted : List (Wayland.SeatIndex × Wayland.Request)) (state : Wayland.State κ σ)
        (seatIndex : Wayland.SeatIndex) (context : Wayland.InputContext κ σ) (xkbState : σ)
        (key : Wayland.Keycode),
        Run (Wayland.State.dispatchAsking xkb) (fun _ _ _ => True) (.init seatIds) events emitted
          state →
        state.context? seatIndex = some context → context.xkbState = some xkbState →
        Wayland.Keysym.new (xkb.keyGetOneSym xkbState key) = .return_ →
        (context.ReturnSurvives xkb (adapter.backend fuel orders argOrder fuzzyMatch)
            (Wayland.requestsOf seatIndex emitted) key
          ↔ ∀ text ∈ context.buffer, adapter.Expandable fuel orders argOrder text) := by
  refine ⟨?_, ?_⟩
  · intro keyChar calls effects engine event hrun hpress hreturn
    rw [ShinranEngine.returnSurvives_iff hrun hpress hreturn,
      ← RendererAdapter.checkTrigger_iff_expandable]
    rfl
  · intro κ σ xkb seatIds events emitted state seatIndex context xkbState key hrun hcontext hx
      hreturn
    rw [Wayland.InputContext.returnSurvives_iff hrun hcontext hx hreturn]
    exact forall₂_congr fun text _ => RendererAdapter.checkTrigger_iff_expandable

end

/-! ## §3. A letter, and Return. -/

/-- The backend for one match, of the trigger `a`. -/
def oneMatchAdapter (body : String) : RendererAdapter :=
  .ofCollection ⟨⟨fun _ => true, fun _ _ => false, fun _ => [], fun _ _ => none⟩, (·.length), true,
      .answering ""⟩ 1000000000
    { triggerMatches := [{ baseMatch := { effect := .text { body } }, triggers := ["a"] }]
      regexMatches := [], globalVars := [] }

def oneMatch (body : String) : Backend BackendFailure :=
  @RendererAdapter.backend .ascii (oneMatchAdapter body) 1 (fun _ => .canonical) .canonical fun _ => []

/-- `Keysym::key_char`, for ASCII. -/
def asciiChar (keyval : UInt32) : Option Char :=
  if 0x20 ≤ keyval ∧ keyval ≤ 0x7e then some (Char.ofNat keyval.toNat) else none

/-- The engine once `a` has been typed. -/
def typedEngine : ShinranEngine := { text := "a", cursorPos := 1, newKeyPressed := true }

theorem run_typedEngine (backend : Backend BackendFailure) :
    Run (ShinranEngine.handleCall asciiChar) (fun _ _ _ => True) {}
      [(backend, .processKeyEvent { keyval := 0x61 })]
      ([] ++ typedEngine.updateText backend) typedEngine :=
  .snoc .nil rfl trivial

/-- A seat on which `a` has been typed. -/
def typedEvents (backend : Backend BackendFailure) : List (Backend BackendFailure × Wayland.Event) :=
  (Wayland.setUp ++ [Wayland.Event.keyboardGrab 0 (.key 0 30 .pressed)]).map (backend, ·)

theorem run_typedEvents (backend : Backend BackendFailure) :
    ∃ emitted state, Run (Wayland.State.dispatchAsking Wayland.smallKeyboard) (fun _ _ _ => True)
        (.init [7]) (typedEvents backend) emitted state
      ∧ ∃ context, state.context? 0 = some context ∧ context.xkbState = some 0
        ∧ context.buffer = some "a" := by
  refine Run.exists_of_exec (fun _ state => (state.context? 0).any fun context =>
    context.xkbState = some 0 ∧ context.buffer = some "a") rfl ?_
  intro emitted state _ htest
  obtain ⟨context, hcontext, hbuffer⟩ := (Option.any_eq_true _ _).mp htest
  exact ⟨context, hcontext, of_decide_eq_true hbuffer⟩

theorem return_survives_iff_already :
    typedEngine.ReturnSurvives asciiChar (oneMatch "already")
        ([] ++ typedEngine.updateText (oneMatch "already")) { keyval := 0xff0d }
      ∧ ∃ emitted state, Run (Wayland.State.dispatchAsking Wayland.smallKeyboard)
          (fun _ _ _ => True) (.init [7]) (typedEvents (oneMatch "already")) emitted state
        ∧ ∃ context, state.context? 0 = some context ∧ context.buffer = some "a"
          ∧ context.ReturnSurvives Wayland.smallKeyboard (oneMatch "already")
              (Wayland.requestsOf 0 emitted) 36 := by
  have hexpandable : @RendererAdapter.Expandable .ascii (oneMatchAdapter "already") 1
      (fun _ => .canonical) .canonical "a" :=
    (@RendererAdapter.checkTrigger_iff_expandable .ascii _ _ _ _ _).mp ⟨some "already", rfl⟩
  have hsurvives := @return_survives_iff .ascii (oneMatchAdapter "already") 1 (fun _ => .canonical)
    .canonical fun _ => []
  refine ⟨?_, ?_⟩
  · exact (hsurvives.1 asciiChar _ _ typedEngine { keyval := 0xff0d } (run_typedEngine _)
      (by decide) (by decide)).mpr (Or.inr hexpandable)
  · obtain ⟨emitted, state, hrun, context, hcontext, hx, hbuffer⟩ :=
      run_typedEvents (oneMatch "already")
    refine ⟨emitted, state, hrun, context, hcontext, hbuffer, ?_⟩
    refine (hsurvives.2 _ _ _ _ _ _ _ _ _ _ 36 hrun hcontext hx (by decide)).mpr ?_
    intro text htext
    rw [hbuffer] at htext
    cases htext
    exact hexpandable

/-- **A missing variable ends both frontends.**  The text of the match refers to a variable that
there is none of. -/
theorem missingVariable_panics :
    (typedEngine.processKeyEvent asciiChar (oneMatch "\x7b\x7bwhere\x7d\x7d") { keyval := 0xff0d }
          = .error (.checkTrigger (.error (.renderingError (.renderer (.missingVariable "where")))))
        ∧ ¬ typedEngine.ReturnSurvives asciiChar (oneMatch "\x7b\x7bwhere\x7d\x7d")
            ([] ++ typedEngine.updateText (oneMatch "\x7b\x7bwhere\x7d\x7d")) { keyval := 0xff0d })
      ∧ ∃ emitted state, Run (Wayland.State.dispatchAsking Wayland.smallKeyboard)
          (fun _ _ _ => True) (.init [7]) (typedEvents (oneMatch "\x7b\x7bwhere\x7d\x7d")) emitted
            state
        ∧ ∃ context, state.context? 0 = some context ∧ context.buffer = some "a"
          ∧ context.handleKey Wayland.smallKeyboard (oneMatch "\x7b\x7bwhere\x7d\x7d") 36
            = .error (.checkTrigger
                (.error (.renderingError (.renderer (.missingVariable "where")))))
          ∧ ¬ context.ReturnSurvives Wayland.smallKeyboard (oneMatch "\x7b\x7bwhere\x7d\x7d")
              (Wayland.requestsOf 0 emitted) 36 := by
  have hanswer : (oneMatch "\x7b\x7bwhere\x7d\x7d").checkTrigger "a"
      = .error (.error (.renderingError (.renderer (.missingVariable "where")))) := rfl
  refine ⟨⟨rfl, ?_⟩, ?_⟩
  · rintro ⟨handled, hhandled, _⟩
    cases hhandled
  · obtain ⟨emitted, state, hrun, context, hcontext, hx, hbuffer⟩ :=
      run_typedEvents (oneMatch "\x7b\x7bwhere\x7d\x7d")
    have hpanics : context.handleKey Wayland.smallKeyboard (oneMatch "\x7b\x7bwhere\x7d\x7d") 36
        = .error (.checkTrigger
            (.error (.renderingError (.renderer (.missingVariable "where"))))) := by
      have hreturn : Wayland.Keysym.new (Wayland.smallKeyboard.keyGetOneSym 0 36) = .return_ := rfl
      unfold Wayland.InputContext.handleKey
      simp only [hx, hreturn, hbuffer, hanswer]
    refine ⟨emitted, state, hrun, context, hcontext, hbuffer, hpanics, ?_⟩
    rintro ⟨after, hafter, _⟩
    rw [hpanics] at hafter
    cases hafter

end Shinran
