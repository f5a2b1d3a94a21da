/-
  Shinran.Ibus.Preedit
  ────────────────────
  **THE PREEDIT TEXT OF THE IBUS ENGINE.**

  The engine displays its edit buffer as preedit text.  Besides key events, it
  is told of the focus and of resets, and the backend may answer differently
  every time that it is asked.

    • `displayed_eq`      — after every run, what is displayed is the buffer,
    • `returnSurvives_iff` — when Return is handled to its end.
-/
import Shinran.Ibus.Engine
import Shinran.Machine

namespace Shinran

open Machine (Run latest)

variable {ε : Type}

/-! ## §1. The methods of the engine. -/

/-- The D-Bus methods that touch the edit buffer. -/
inductive MethodCall where
  | processKeyEvent (event : KeyEvent)
  /-- `early` if it comes within 250 ms of the start -/
  | focusOut (early : Bool)
  | reset
  deriving DecidableEq, Repr

namespace ShinranEngine

/-- `clear_text`, and `exit`. -/
def clearAndExit (engine : ShinranEngine) (backend : Backend ε) : Handled :=
  ⟨engine.cleared, engine.cleared.updateText backend ++ [.exit]⟩

/-- A method call, while the backend answers in this way. -/
def handleCall (keyChar : UInt32 → Option Char) (engine : ShinranEngine) :
    Backend ε × MethodCall → Except (EnginePanic ε) (ShinranEngine × List Effect)
  | (backend, .processKeyEvent event) =>
      (engine.processKeyEvent keyChar backend event).map fun handled =>
        (handled.engine, handled.effects)
  | (_, .focusOut true) => .ok (engine, [])
  | (backend, .focusOut false) | (backend, .reset) =>
      .ok (engine.cleared, (engine.clearAndExit backend).effects)

end ShinranEngine

/-! ## §2. What a call sends. -/

/-- An effect that has to do with what is displayed. -/
def Effect.isDisplay : Effect → Bool
  | .updatePreeditText .. | .updateLookupTable .. => true
  | _ => false

namespace ShinranEngine

variable {engine engine' : ShinranEngine} {backend : Backend ε}

/-- **What a call sends**: an update of the text that it leaves behind, and then nothing more that
has to do with what is displayed, or no such thing and the text is as before. -/
inductive Updates (backend : Backend ε) (engine engine' : ShinranEngine) :
    List Effect → Prop
  | kept {effects : List Effect} : engine'.text = engine.text →
      (∀ effect ∈ effects, effect.isDisplay = false) → Updates backend engine engine' effects
  | updated {effects : List Effect} : (∀ effect ∈ effects, effect.isDisplay = false) →
      Updates backend engine engine' (engine'.updateText backend ++ effects)

theorem Updates.only : Updates backend engine engine' (engine'.updateText backend) := by
  have h : Updates backend engine engine' (engine'.updateText backend ++ []) :=
    .updated (by simp)
  rwa [List.append_nil] at h

theorem updates_of_bind {α : Type} {x : Except (EnginePanic ε) α} {change : α → ShinranEngine}
    {handled : Handled}
    (h : (x >>= fun a => .ok (Handled.mk (change a) ((change a).updateText backend)))
      = .ok handled) :
    Updates backend engine handled.engine handled.effects := by
  cases x with
  | error panic => cases h
  | ok a =>
      cases h
      exact .only

/-- **Every key that changes the buffer sends it.** -/
theorem processKeyEvent_updates {keyChar : UInt32 → Option Char} {event : KeyEvent}
    {handled : Handled} (h : engine.processKeyEvent keyChar backend event = .ok handled) :
    Updates backend engine handled.engine handled.effects := by
  unfold processKeyEvent at h
  split at h
  · cases h
    refine .kept rfl ?_
    split <;> simp [Effect.isDisplay]
  · simp only at h
    split at h
    case h_1 =>
      split at h
      · split at h
        · cases h
        · rename_i output _
          cases h
          rw [List.append_assoc]
          refine .updated ?_
          cases output <;> simp [Effect.isDisplay]
      · cases h
        exact .kept rfl (by simp [Effect.isDisplay])
    case h_2 =>
      cases h
      exact .updated (by simp [Effect.isDisplay])
    case h_3 | h_4 =>
      split at h
      · exact updates_of_bind h
      · cases h
        exact .kept rfl (by simp)
    case h_5 | h_6 => exact updates_of_bind h
    case h_7 =>
      split at h
      · cases h
        exact .kept rfl (by simp)
      · split at h
        · exact updates_of_bind h
        · cases h
          exact .kept rfl (by simp)

/-- The same of every call. -/
theorem handleCall_updates {keyChar : UInt32 → Option Char} {call : MethodCall}
    {effects : List Effect} (h : engine.handleCall keyChar (backend, call) = .ok (engine', effects)) :
    Updates backend engine engine' effects := by
  cases call with
  | processKeyEvent event =>
      change (engine.processKeyEvent keyChar backend event).map _ = _ at h
      cases hhandled : engine.processKeyEvent keyChar backend event with
      | error panic => rw [hhandled] at h; cases h
      | ok handled =>
          rw [hhandled] at h
          cases h
          exact processKeyEvent_updates hhandled
  | focusOut early =>
      cases early with
      | true => cases h; exact .kept rfl (by simp)
      | false => cases h; exact .updated (by simp [Effect.isDisplay])
  | reset => cases h; exact .updated (by simp [Effect.isDisplay])

end ShinranEngine

/-! ## §3. What is displayed. -/

/-- The preedit text that is displayed from now on. -/
def Effect.preedit? : Effect → Option String
  | .updatePreeditText text _ _ visible => some (if visible then text else "")
  | _ => none

/-- The preedit text that is displayed in the end. -/
def displayed (effects : List Effect) : String := (latest Effect.preedit? effects).getD ""

theorem Effect.preedit?_of_not_isDisplay {effect : Effect} (h : effect.isDisplay = false) :
    effect.preedit? = none := by
  cases effect <;> first | rfl | cases h

namespace ShinranEngine

/-- What is sent displays the buffer, or the buffer is as it was and nothing is displayed anew. -/
def Displays (engine : ShinranEngine) (text : String) (effects : List Effect) : Prop :=
  latest Effect.preedit? effects = some engine.text
    ∨ latest Effect.preedit? effects = none ∧ engine.text = text

variable {engine engine' : ShinranEngine} {backend : Backend ε}

@[simp] theorem latest_updateText :
    latest Effect.preedit? (engine.updateText backend) = some engine.text := by
  let candidates := backend.fuzzyMatch engine.text
  have hrest : ∀ effect ∈ (if candidates.isEmpty then []
      else [Effect.updateLookupTable ((candidates.take 5).map (·.1)) true]),
      effect.preedit? = none := by
    split <;> simp [Effect.preedit?]
  unfold updateText
  rw [← List.singleton_append, Machine.latest_append, Machine.latest_eq_none hrest,
    Machine.latest_singleton, Option.none_or]
  by_cases hempty : engine.text = "" <;> simp [Effect.preedit?, hempty]

theorem latest_updateText_append {effects : List Effect}
    (h : ∀ effect ∈ effects, effect.preedit? = none) :
    latest Effect.preedit? (engine.updateText backend ++ effects) = some engine.text := by
  rw [Machine.latest_append, Machine.latest_eq_none h, latest_updateText]
  rfl

/-- **Every call that changes the buffer displays it.** -/
theorem Updates.displays {effects : List Effect} (h : Updates backend engine engine' effects) :
    engine'.Displays engine.text effects := by
  have hquiet : ∀ {effects : List Effect}, (∀ effect ∈ effects, effect.isDisplay = false) →
      ∀ effect ∈ effects, effect.preedit? = none :=
    fun hdisplay effect hmem => Effect.preedit?_of_not_isDisplay (hdisplay effect hmem)
  cases h with
  | kept hsame hdisplay => exact Or.inr ⟨Machine.latest_eq_none (hquiet hdisplay), hsame⟩
  | updated hdisplay => exact Or.inl (latest_updateText_append (hquiet hdisplay))

/-- One call keeps what is displayed equal to the buffer. -/
theorem displayed_step {keyChar : UInt32 → Option Char} {effects more : List Effect}
    {call : Backend ε × MethodCall} (hdisplayed : displayed effects = engine.text)
    (h : engine.handleCall keyChar call = .ok (engine', more)) :
    displayed (effects ++ more) = engine'.text := by
  unfold displayed at hdisplayed ⊢
  rw [Machine.latest_append]
  cases (handleCall_updates h).displays with
  | inl hnew => rw [hnew]; rfl
  | inr hsame => rw [hsame.1, hsame.2, Option.none_or, hdisplayed]

/-- **After every run, what is displayed is the buffer.** -/
theorem displayed_eq {keyChar : UInt32 → Option Char} {calls : List (Backend ε × MethodCall)}
    {effects : List Effect}
    (hrun : Run (handleCall keyChar) (fun _ _ _ => True) {} calls effects engine) :
    displayed effects = engine.text :=
  hrun.invariant (fun _ effects engine => displayed effects = engine.text) rfl
    fun hdisplayed _ hstep => displayed_step hdisplayed hstep

/-! ## §4. Return. -/

/-- **Return survives**: the handler comes to its end, nothing is displayed any more, nothing
is committed if the backend fails, and the engine exits. -/
def ReturnSurvives (keyChar : UInt32 → Option Char) (backend : Backend ε) (effects : List Effect)
    (engine : ShinranEngine) (event : KeyEvent) : Prop :=
  ∃ handled, engine.processKeyEvent keyChar backend event = .ok handled
    ∧ handled.engine.text = "" ∧ displayed (effects ++ handled.effects) = ""
    ∧ (∀ error, backend.checkTrigger engine.text = .error error →
        ∀ text, .commitText text ∉ handled.effects)
    ∧ .exit ∈ handled.effects

/-- What Return does. -/
theorem processKeyEvent_return {keyChar : UInt32 → Option Char} {event : KeyEvent}
    (hpress : event.isRelease = false) (hreturn : Keysym.new event.keyval = .return_) :
    engine.processKeyEvent keyChar backend event
      = if engine.text ≠ "" then
          ((backend.checkTrigger engine.text).mapError .checkTrigger).map fun output =>
            ⟨{ engine with newKeyPressed := true }.cleared,
              engine.cleared.updateText backend ++ (output.map Effect.commitText).toList
                ++ [.exit]⟩
        else .ok ⟨{ engine with newKeyPressed := true }, [.exit]⟩ := by
  unfold processKeyEvent
  rw [if_neg (by simp [hpress])]
  simp only [hreturn]
  split
  · cases backend.checkTrigger engine.text <;> rfl
  · rfl

/-- **When Return survives**, after every run: nothing has been typed, or the backend answers. -/
theorem returnSurvives_iff {keyChar : UInt32 → Option Char}
    {calls : List (Backend ε × MethodCall)} {effects : List Effect} {event : KeyEvent}
    (hrun : Run (handleCall keyChar) (fun _ _ _ => True) {} calls effects engine)
    (hpress : event.isRelease = false) (hreturn : Keysym.new event.keyval = .return_) :
    engine.ReturnSurvives keyChar backend effects event
      ↔ engine.text = "" ∨ ∃ output, backend.checkTrigger engine.text = .ok output := by
  have hdisplayed := displayed_eq hrun
  unfold ReturnSurvives
  rw [processKeyEvent_return hpress hreturn]
  by_cases hempty : engine.text = ""
  · rw [if_neg (by simpa using hempty)]
    refine iff_of_true ⟨_, rfl, hempty, ?_, by simp, by simp⟩ (Or.inl hempty)
    unfold displayed at hdisplayed ⊢
    rw [Machine.latest_append, show latest Effect.preedit? [Effect.exit] = none from rfl,
      Option.none_or, hdisplayed, hempty]
  · rw [if_pos hempty, or_iff_right hempty]
    cases hanswer : backend.checkTrigger engine.text with
    | error error =>
        refine iff_of_false ?_ ?_
        · rintro ⟨handled, hhandled, _⟩
          cases hhandled
        · rintro ⟨output, houtput⟩
          cases houtput
    | ok output =>
        refine iff_of_true ⟨_, rfl, rfl, ?_, ?_, by simp⟩ ⟨output, rfl⟩
        · have hcommit : ∀ effect ∈ (output.map Effect.commitText).toList ++ [.exit],
              effect.preedit? = none := by
            cases output <;> simp [Effect.preedit?]
          dsimp only [displayed]
          rw [Machine.latest_append, List.append_assoc, latest_updateText_append hcommit]
          rfl
        · intro error herror
          cases herror

end ShinranEngine

end Shinran
