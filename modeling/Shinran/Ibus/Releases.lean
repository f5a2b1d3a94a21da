/-
  Shinran.Ibus.Releases
  ─────────────────────
  **WHICH KEY RELEASES THE IBUS ENGINE FORWARDS.**

  A key may be held down when the engine starts, and the application waits for
  its release.  The engine forwards releases until it processes a press for the
  first time; from then on it keeps all of them, whichever key they are of.

    • `newKeyPressed_iff`   — what the engine remembers of a run,
    • `keyUp_forwarded_iff` — when a release is forwarded,
    • `heldKey_kept`        — a key that is held from before and released
                              after a press stays down in the application.
-/
import Shinran.Ibus.Editor
import Shinran.Ibus.Preedit

namespace Shinran

open Machine (Guard Run latest)

variable {ε : Type} {keyChar : UInt32 → Option Char}

/-! ## §1. Presses and releases. -/

/-- The key event that a call is about. -/
def MethodCall.keyEvent? : MethodCall → Option KeyEvent
  | .processKeyEvent event => some event
  | _ => none

/-- The call is about a press of a key. -/
def MethodCall.IsPress (call : MethodCall) : Prop :=
  ∃ event, call.keyEvent? = some event ∧ event.isRelease = false

/-- A press of some key has been processed. -/
def SomePress (calls : List (Backend ε × MethodCall)) : Prop := ∃ call ∈ calls, call.2.IsPress

/-- What became of a key: whether an event releases it. -/
def releaseOf (keycode : UInt32) : Backend ε × MethodCall → Option Bool
  | (_, call) => call.keyEvent?.bind fun event =>
      if event.keycode = keycode then some event.isRelease else none

/-- The key has been pressed, and not been released since. -/
def PressProcessed (calls : List (Backend ε × MethodCall)) (keycode : UInt32) : Prop :=
  latest (releaseOf keycode) calls = some false

/-- **Presses and releases of each key alternate**; the first event of a key may be a release, if
the key was held down at the start. -/
def Alternates : Guard ShinranEngine (Backend ε × MethodCall) :=
  fun calls _ (_, call) => ∀ event ∈ call.keyEvent?,
    latest (releaseOf event.keycode) calls ≠ some event.isRelease

theorem somePress_append {calls more : List (Backend ε × MethodCall)} :
    SomePress (calls ++ more) ↔ SomePress calls ∨ SomePress more := by
  simp [SomePress, or_and_right, exists_or]

theorem somePress_singleton {call : Backend ε × MethodCall} :
    SomePress [call] ↔ call.2.IsPress := by
  simp [SomePress]

theorem PressProcessed.somePress {calls : List (Backend ε × MethodCall)} {keycode : UInt32}
    (h : PressProcessed calls keycode) : SomePress calls := by
  obtain ⟨⟨backend, call⟩, hmem, hcall⟩ := Machine.exists_of_latest h
  obtain ⟨event, hevent, hrelease⟩ := Option.bind_eq_some_iff.mp hcall
  split at hrelease
  · exact ⟨_, hmem, event, hevent, Option.some.inj hrelease⟩
  · cases hrelease

/-! ## §2. What the engine remembers. -/

namespace ShinranEngine

variable {engine engine' : ShinranEngine} {backend : Backend ε}

theorem newKeyPressed_of_bind {α : Type} {x : Except (EnginePanic ε) α}
    {change : α → ShinranEngine} {effects : α → List Effect} {handled : Handled}
    (h : (x >>= fun a => .ok (Handled.mk (change a) (effects a))) = .ok handled)
    (hchange : ∀ a, x = .ok a → (change a).newKeyPressed = true) :
    handled.engine.newKeyPressed = true := by
  cases x with
  | error panic => cases h
  | ok a =>
      cases h
      exact hchange a rfl

theorem moveCursor_newKeyPressed {offset : Int32}
    (h : (engine.moveCursor offset : Except (EnginePanic ε) ShinranEngine) = .ok engine') :
    engine'.newKeyPressed = engine.newKeyPressed := by
  unfold moveCursor at h
  simp only at h
  split at h
  · cases h
  · cases h
    rfl

theorem insertCharacter_newKeyPressed {character : Char}
    (h : (engine.insertCharacter character : Except (EnginePanic ε) ShinranEngine) = .ok engine') :
    engine'.newKeyPressed = engine.newKeyPressed := by
  unfold insertCharacter at h
  simp only [bind, Except.bind] at h
  split at h
  · split at h <;> cases h
    rfl
  · cases h
    rfl

/-- **A press is remembered**, whatever key it is of. -/
theorem processKeyEvent_press {event : KeyEvent} {handled : Handled}
    (hpress : event.isRelease = false)
    (h : engine.processKeyEvent keyChar backend event = .ok handled) :
    handled.engine.newKeyPressed = true := by
  unfold processKeyEvent at h
  rw [if_neg (by simp [hpress])] at h
  simp only at h
  split at h
  case h_1 =>
    split at h
    · split at h <;> cases h
      rfl
    · cases h
      rfl
  case h_2 =>
    cases h
    rfl
  case h_3 | h_4 =>
    split at h
    · exact newKeyPressed_of_bind h fun _ _ => rfl
    · cases h
      rfl
  case h_5 | h_6 => exact newKeyPressed_of_bind h fun _ hmove => moveCursor_newKeyPressed hmove
  case h_7 =>
    split at h
    · cases h
      rfl
    · split at h
      · exact newKeyPressed_of_bind h fun _ hinsert => insertCharacter_newKeyPressed hinsert
      · cases h
        rfl

/-- A release is forwarded or dropped, and that is all. -/
theorem processKeyEvent_release {event : KeyEvent} (hrelease : event.isRelease = true) :
    engine.processKeyEvent keyChar backend event
      = .ok ⟨engine, if engine.newKeyPressed then [] else [.forwardKeyEvent event]⟩ := by
  unfold processKeyEvent
  rw [if_pos hrelease]

theorem handleCall_newKeyPressed {call : Backend ε × MethodCall} {more : List Effect}
    (h : engine.handleCall keyChar call = .ok (engine', more)) :
    engine'.newKeyPressed = true ↔ engine.newKeyPressed = true ∨ call.2.IsPress := by
  obtain ⟨backend, call⟩ := call
  cases call with
  | processKeyEvent event =>
      change (engine.processKeyEvent keyChar backend event).map _ = _ at h
      cases hevent : event.isRelease with
      | true =>
          rw [processKeyEvent_release hevent] at h
          cases h
          simp [MethodCall.IsPress, MethodCall.keyEvent?, hevent]
      | false =>
          cases hhandled : engine.processKeyEvent keyChar backend event with
          | error panic => rw [hhandled] at h; cases h
          | ok handled =>
              rw [hhandled] at h
              cases h
              simp [MethodCall.IsPress, MethodCall.keyEvent?, hevent,
                processKeyEvent_press hevent hhandled]
  | focusOut early =>
      cases early with
      | true => cases h; simp [MethodCall.IsPress, MethodCall.keyEvent?]
      | false => cases h; simp [MethodCall.IsPress, MethodCall.keyEvent?, cleared]
  | reset => cases h; simp [MethodCall.IsPress, MethodCall.keyEvent?, cleared]

variable {guard : Guard ShinranEngine (Backend ε × MethodCall)}
  {calls : List (Backend ε × MethodCall)} {effects : List Effect}

/-- **What the engine remembers of a run**: whether a press has been processed. -/
theorem newKeyPressed_iff (hrun : Run (handleCall keyChar) guard {} calls effects engine) :
    engine.newKeyPressed = true ↔ SomePress calls := by
  refine hrun.invariant (fun calls _ engine => engine.newKeyPressed = true ↔ SomePress calls)
    (by simp [SomePress]) ?_
  intro calls _ engine call engine' _ hinv _ hstep
  rw [handleCall_newKeyPressed hstep, hinv, somePress_append, somePress_singleton]

/-! ## §3. Releases. -/

/-- **When a release is forwarded**: as long as no press has been processed, of whatever key.  So
a release is not forwarded if the engine has processed the press that belongs to it. -/
theorem keyUp_forwarded_iff (hrun : Run (handleCall keyChar) guard {} calls effects engine)
    (backend : Backend ε) {event : KeyEvent} (hrelease : event.isRelease = true) :
    ∃ more, engine.handleCall keyChar (backend, .processKeyEvent event) = .ok (engine, more)
      ∧ (.forwardKeyEvent event ∈ more ↔ ¬ SomePress calls)
      ∧ (PressProcessed calls event.keycode → .forwardKeyEvent event ∉ more) := by
  have hremembers := newKeyPressed_iff hrun
  refine ⟨if engine.newKeyPressed then [] else [.forwardKeyEvent event], ?_, ?_⟩
  · show (engine.processKeyEvent keyChar backend event).map _ = _
    rw [processKeyEvent_release hrelease]
    rfl
  · have hforwarded : Effect.forwardKeyEvent event
        ∈ (if engine.newKeyPressed then [] else [.forwardKeyEvent event]) ↔ ¬ SomePress calls := by
      rw [← hremembers]
      cases engine.newKeyPressed <;> simp
    exact ⟨hforwarded, fun hprocessed hmem => hforwarded.mp hmem hprocessed.somePress⟩

end ShinranEngine

/-! ## §4. Shift is held at the start. -/

/-- `a` is pressed. -/
def aPressed : List (Backend Unit × MethodCall) :=
  [(noMatches, .processKeyEvent { keyval := 0x61, keycode := 30 })]

def aReleased : KeyEvent := { keyval := 0x61, keycode := 30, state := releaseMask }

def shiftReleased : KeyEvent := { keyval := 0xffe1, keycode := 42, state := releaseMask }

theorem run_aPressed : ∃ effects engine,
    Run (ShinranEngine.handleCall latin1Char) Alternates {} aPressed effects engine
      ∧ engine.newKeyPressed = true := by
  have hguard : Alternates [] {} ((noMatches, .processKeyEvent { keyval := 0x61, keycode := 30 }) :
      Backend Unit × MethodCall) := by
    intro event _ hlatest
    cases hlatest
  exact ⟨_, _, Run.nil.snoc rfl hguard, rfl⟩

theorem keyUp_forwarded_iff_a : ∃ effects engine,
    Run (ShinranEngine.handleCall latin1Char) Alternates {} aPressed effects engine
      ∧ aReleased.isRelease = true
      ∧ ∃ more, engine.handleCall latin1Char (noMatches, .processKeyEvent aReleased)
          = .ok (engine, more)
        ∧ (.forwardKeyEvent aReleased ∈ more ↔ ¬ SomePress aPressed)
        ∧ (PressProcessed aPressed aReleased.keycode → .forwardKeyEvent aReleased ∉ more) := by
  obtain ⟨effects, engine, hrun, _⟩ := run_aPressed
  exact ⟨effects, engine, hrun, rfl,
    ShinranEngine.keyUp_forwarded_iff hrun noMatches rfl⟩

/-- **A held key is kept**: the release of Shift, which the engine never saw pressed, is not
forwarded once `a` has been pressed. -/
theorem heldKey_kept : ∃ effects engine,
    Run (ShinranEngine.handleCall latin1Char) Alternates {} aPressed effects engine
      ∧ Alternates aPressed engine (noMatches, .processKeyEvent shiftReleased)
      ∧ ¬ PressProcessed aPressed shiftReleased.keycode
      ∧ engine.handleCall latin1Char (noMatches, .processKeyEvent shiftReleased)
        = .ok (engine, []) := by
  obtain ⟨effects, engine, hrun, hpressed⟩ := run_aPressed
  have hnone : latest (releaseOf shiftReleased.keycode) aPressed = none := by decide
  refine ⟨effects, engine, hrun, ?_, ?_, ?_⟩
  · intro event hevent
    cases hevent
    rw [hnone]
    exact nofun
  · rw [PressProcessed, hnone]
    exact nofun
  · have hkept : engine.processKeyEvent latin1Char noMatches shiftReleased
        = .ok ⟨engine, []⟩ := by
      rw [ShinranEngine.processKeyEvent_release rfl, hpressed]
      rfl
    unfold ShinranEngine.handleCall
    simp only [hkept, Except.map]

end Shinran
