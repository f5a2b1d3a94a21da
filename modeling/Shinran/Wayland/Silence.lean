/-
  Shinran.Wayland.Silence
  ───────────────────────
  **A DEACTIVATED SEAT IS SILENT.**

  A seat without a keyboard grab gets no keys, but a timer that was left behind
  goes on typing into whatever has the focus.

    • `idle_of_quiet`         — without a grab, nothing is being repeated,
    • `silent_of_quiet`       — so nothing is typed,
    • `repeat_after_deactivation` — a seat that is deactivated while a key is
                                    repeated, and types.
-/
import Shinran.Wayland.Timers

namespace Shinran.Wayland

open Machine (Run)

variable {κ σ ε : Type} {xkb : Xkb κ σ} {backend : Backend ε} {context : InputContext κ σ}
  {loopHandle : TokenMap Timer} {seatIndex : SeatIndex} {handled : Handled κ σ}

/-- Keys come by the grab, and the grab is not released while a key is being repeated. -/
def Quiet (seatIndex : SeatIndex) (state : State κ σ) (event : Event) : Prop :=
  ∀ context ∈ state.context? seatIndex,
    (∀ k ∈ event.key?, k.1 = seatIndex → context.keyboardGrab = true) ∧
    (event = .inputMethod seatIndex .done → context.keyboardGrab = true →
      context.pendingDeactivate = true → context.repeatTimer = none)

instance (state : State κ σ) (event : Event) : Decidable (Quiet seatIndex state event) :=
  inferInstanceAs (Decidable (∀ context ∈ state.context? seatIndex,
    (∀ k ∈ event.key?, k.1 = seatIndex → context.keyboardGrab = true) ∧
    (event = .inputMethod seatIndex .done → context.keyboardGrab = true →
      context.pendingDeactivate = true → context.repeatTimer = none)))

/-- The invariant of a seat. -/
def InputContext.Idle (context : InputContext κ σ) : Prop :=
  context.keyboardGrab = false → context.repeatTimer = none

theorem InputContext.repeatTimer_inputMethodEvent (context : InputContext κ σ)
    (event : InputMethodEvent) :
    (context.inputMethodEvent event).1.repeatTimer = context.repeatTimer := by
  obtain ⟨⟨_, _, _, _, _, hcontext⟩, _⟩ := context.inputMethodEvent_frame event
  rw [hcontext]

/-- A seat becomes inactive only by a `Done` that releases the grab. -/
theorem InputContext.keyboardGrab_inputMethodEvent {event : InputMethodEvent}
    (hheld : context.keyboardGrab = true)
    (hreleased : (context.inputMethodEvent event).1.keyboardGrab = false) :
    event = .done ∧ context.pendingDeactivate = true := by
  cases event with
  | done =>
      refine ⟨rfl, ?_⟩
      by_contra hpending
      have hkept : context.done.1.keyboardGrab = true := by
        simp [InputContext.done, hheld, hpending]
      exact absurd (hkept.symm.trans hreleased) (by simp)
  | _ => exact absurd (hheld.symm.trans hreleased) (by simp)

/-- **What is left to happen** to a seat that repeats nothing and gets no keys. -/
theorem Handles.silent {event : Event} (hidle : context.repeatTimer = none)
    (hkeys : ∀ k, k ∉ event.key?)
    (h : Handles xkb backend loopHandle seatIndex context event handled) :
    handled.context.repeatTimer = none ∧ handled.context.buffer = context.buffer ∧
      ∀ request ∈ handled.requests, request.isTyping = false := by
  cases h with
  | keyboardGrab h =>
      cases InputContext.keyboardGrabEvent_ok h with
      | ignored => exact absurd rfl (hkeys _)
      | press => exact absurd rfl (hkeys _)
      | release => exact absurd rfl (hkeys _)
      | noKey _ hcontext _ htyping =>
          rw [hcontext]
          exact ⟨hidle, rfl, htyping⟩
  | inputMethod =>
      obtain ⟨⟨_, _, _, _, _, hcontext⟩, htyping⟩ := context.inputMethodEvent_frame _
      refine ⟨?_, ?_, htyping⟩
      · rw [hcontext]
        exact hidle
      · rw [hcontext]
  | timer _ _ h =>
      -- a timer that fires ends the program, since there is nothing to repeat
      obtain ⟨after, hrepeat, _⟩ := InputContext.timerEvent_ok h
      obtain ⟨_, repeating, _, _, _, ht, _⟩ := InputContext.repeatKey_ok hrepeat
      rw [hidle] at ht
      cases ht

variable {state state' : State κ σ} {event : Event} {requests : List (SeatIndex × Request)}

theorem Quiet.noKeys (hquiet : Quiet seatIndex state event)
    (hcontext : state.context? seatIndex = some context) (hgrab : context.keyboardGrab = false)
    (h : Handles xkb backend loopHandle seatIndex context event handled) :
    ∀ k, k ∉ event.key? := by
  intro k hk
  have := (hquiet context hcontext).1 k hk (h.seat?_eq (Event.seat?_of_key? hk))
  rw [hgrab] at this
  cases this

theorem idle_step (hquiet : Quiet seatIndex state event)
    (hstep : state.dispatch xkb backend event = .ok (state', requests))
    (hidle : ∀ context, state.context? seatIndex = some context → context.Idle) :
    ∀ context, state'.context? seatIndex = some context → context.Idle := by
  intro context' hcontext'
  rcases State.dispatch_seat hstep seatIndex with ⟨hsame, _⟩ |
    ⟨context, handled, hcontext, hhandles, hafter, _⟩
  · exact hidle context' (hsame context' hcontext')
  · rw [hafter] at hcontext'
    cases hcontext'
    intro hreleased
    by_cases hgrab : context.keyboardGrab = true
    · -- the grab was released just now
      by_cases hinput : ∃ inputMethodEvent, event = .inputMethod seatIndex inputMethodEvent
      · obtain ⟨inputMethodEvent, rfl⟩ := hinput
        cases hhandles with
        | inputMethod =>
            obtain ⟨rfl, hpending⟩ := InputContext.keyboardGrab_inputMethodEvent hgrab hreleased
            exact (context.repeatTimer_inputMethodEvent _).trans
              ((hquiet context hcontext).2 rfl hgrab hpending)
      · have hsame := hhandles.sameActivation fun inputMethodEvent heq => hinput ⟨_, heq⟩
        rw [hsame.keyboardGrab, hgrab] at hreleased
        cases hreleased
    · have hgrab' : context.keyboardGrab = false := by simpa using hgrab
      exact (hhandles.silent (hidle context hcontext hgrab')
        (hquiet.noKeys hcontext hgrab' hhandles)).1

/-- **A deactivated seat is silent**, in every run in which keys come by the grab and no key is
being repeated when the grab is released: an event that finds the seat without a grab does not
change its buffer, and nothing is typed. -/
theorem silent_of_quiet {seatIds : List UInt32} {events : List Event}
    {requests more : List (SeatIndex × Request)}
    (hrun : Run (State.dispatch xkb backend) (fun _ => Quiet seatIndex) (State.init seatIds)
      events requests state)
    (hcontext : state.context? seatIndex = some context) (hgrab : context.keyboardGrab = false)
    (hquiet : Quiet seatIndex state event)
    (hstep : state.dispatch xkb backend event = .ok (state', more)) :
    (∀ context', state'.context? seatIndex = some context' → context'.buffer = context.buffer) ∧
      ∀ request ∈ requestsOf seatIndex more, request.isTyping = false := by
  have hidle : ∀ context, state.context? seatIndex = some context → context.Idle := by
    refine hrun.invariant
      (fun _ _ state => ∀ context, state.context? seatIndex = some context → context.Idle) ?_ ?_
    · intro context hcontext _
      exact State.repeatTimer_init hcontext
    · intro _ _ _ _ _ _ hidle hquiet hstep
      exact idle_step hquiet hstep hidle
  rcases State.dispatch_seat hstep seatIndex with ⟨hsame, hnone, _⟩ |
    ⟨context', handled, hcontext', hhandles, hafter, hmore⟩
  · refine ⟨?_, by simp [hnone]⟩
    intro context' hcontext'
    have heq := hsame context' hcontext'
    rw [hcontext] at heq
    cases heq
    rfl
  · rw [hcontext] at hcontext'
    cases hcontext'
    obtain ⟨_, hbuffer, htyping⟩ :=
      hhandles.silent (hidle context hcontext hgrab) (hquiet.noKeys hcontext hgrab hhandles)
    rw [hafter, hmore]
    refine ⟨?_, htyping⟩
    rintro _ ⟨⟩
    exact hbuffer

/-- A seat that is deactivated after a key was typed, and told so twice. -/
theorem silent_of_quiet_done :
    ∃ requests state,
      Run (State.dispatch smallKeyboard emptyBackend) (fun _ => Quiet 0) (State.init [1])
        (setUp ++ [.keyboardGrab 0 (.key 0 30 .pressed), .keyboardGrab 0 (.key 9 30 .released),
          .inputMethod 0 .deactivate, .inputMethod 0 .done]) requests state ∧
      ∃ state' more, state.dispatch smallKeyboard emptyBackend (.inputMethod 0 .done)
          = .ok (state', more) ∧
        ∀ request ∈ requestsOf 0 more, request.isTyping = false := by
  refine Run.exists_of_exec (fun _ state => Quiet 0 state (.inputMethod 0 .done) ∧
    (state.context? 0).any (fun context => !context.keyboardGrab) ∧
    (state.dispatch smallKeyboard emptyBackend (.inputMethod 0 .done)).isOk) (by decide) ?_
  intro requests state hrun htest
  obtain ⟨hquiet, hgrab, hok⟩ := of_decide_eq_true htest
  obtain ⟨context, hcontext, hgrab⟩ := (Option.any_eq_true _ _).mp hgrab
  cases hstep : state.dispatch smallKeyboard emptyBackend (.inputMethod 0 .done) with
  | error panic => rw [hstep] at hok; cases hok
  | ok result =>
      exact ⟨result.1, result.2, rfl,
        (silent_of_quiet hrun hcontext (by simpa using hgrab) hquiet hstep).2⟩

/-- **A deactivated seat that types**: `A` is repeated when the grab is released, and the timer
fires once more. -/
theorem repeat_after_deactivation :
    ∃ requests state,
      Run (State.dispatch smallKeyboard emptyBackend) (fun _ _ _ => True) (State.init [1])
        (setUp ++ [.keyboardGrab 0 (.key 0 30 .pressed), .inputMethod 0 .deactivate,
          .inputMethod 0 .done]) requests state ∧
      (state.context? 0).map (fun context => (context.keyboardGrab, context.buffer))
          = some (false, some "a") ∧
      (state.dispatch smallKeyboard emptyBackend (.timer 0)).toOption.map
          (fun after => ((after.1.context? 0).map (·.buffer), requestsOf 0 after.2))
        = some (some (some "aa"), [.setPreeditString "aa" 2 2, .commit 2]) := by
  refine Run.exists_of_exec (fun _ state => decide (
    (state.context? 0).map (fun context => (context.keyboardGrab, context.buffer))
        = some (false, some "a") ∧
    (state.dispatch smallKeyboard emptyBackend (.timer 0)).toOption.map
        (fun after => ((after.1.context? 0).map (·.buffer), requestsOf 0 after.2))
      = some (some (some "aa"), [.setPreeditString "aa" 2 2, .commit 2]))) (by decide) ?_
  intro requests state _ htest
  exact of_decide_eq_true htest

end Shinran.Wayland
