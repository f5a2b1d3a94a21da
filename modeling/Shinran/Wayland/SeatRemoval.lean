/-
  Shinran.Wayland.SeatRemoval
  ───────────────────────────
  **SEATS THAT ARE TAKEN AWAY.**

  The context of a seat goes with it, while timers and the objects of the seat
  keep the key of the context.

    • `live_of_orderly`    — whatever still has a key of a context finds it,
    • `noRemovedContext_of_orderly` — no context is looked up in vain,
    • `removedContext_repeat`       — a timer that outlives its context.
-/
import Shinran.Wayland.Timers

namespace Shinran.Wayland

open Machine (Run)

variable {κ σ ε : Type} {xkb : Xkb κ σ} {backend : Backend ε} {context : InputContext κ σ}
  {seatIndex : SeatIndex} {handled : Handled κ σ}

/-! ## §1. Orderly removals. -/

/-- Whether a timer calls a context of the seat. -/
def State.calls (state : State κ σ) (seatId : UInt32) : Bool :=
  state.loopHandle.values.any fun timer =>
    (state.context? timer.seatIndex).any fun context => context.seatId = seatId

/-- A seat is removed when no timer calls it, and there are no events for it afterwards. -/
def Orderly (seatIds : List UInt32) (history : List Event) (state : State κ σ) (event : Event) :
    Prop :=
  (∀ seatIndex ∈ event.seat?, ∃ seatId ∈ seatIds[seatIndex]?,
    .registry (.globalRemove seatId) ∉ history) ∧
  ∀ seatId ∈ event.removed?, state.calls seatId = false

instance (seatIds : List UInt32) (history : List Event) (state : State κ σ) (event : Event) :
    Decidable (Orderly seatIds history state event) :=
  @instDecidableAnd _ _ inferInstance (Option.decidableForallMem event.removed?)

/-- The invariant: a seat that was not removed has its context, and so has whatever a timer
calls. -/
structure Live (seatIds : List UInt32) (history : List Event) (state : State κ σ) : Prop where
  ofSeat : ∀ seatIndex seatId, seatIds[seatIndex]? = some seatId →
    .registry (.globalRemove seatId) ∉ history →
    ∃ context, state.context? seatIndex = some context ∧ context.seatId = seatId
  ofTimer : ∀ seatIndex, timersOf state.loopHandle seatIndex ≠ [] →
    ∃ context, state.context? seatIndex = some context

/-! ## §2. Steps. -/

theorem Handles.seatId {loopHandle : TokenMap Timer} {event : Event}
    (h : Handles xkb backend loopHandle seatIndex context event handled) :
    handled.context.seatId = context.seatId := by
  by_cases hinput : ∃ inputMethodEvent, event = .inputMethod seatIndex inputMethodEvent
  · obtain ⟨inputMethodEvent, rfl⟩ := hinput
    cases h with
    | inputMethod =>
        obtain ⟨⟨_, _, _, _, _, hcontext⟩, _⟩ := context.inputMethodEvent_frame inputMethodEvent
        rw [hcontext]
  · exact (h.sameActivation fun inputMethodEvent heq => hinput ⟨_, heq⟩).seatId

/-- Timers are registered for the seat of the event only. -/
theorem TimerChange.timersOf_ne_nil {loopHandle : TokenMap Timer} {tame : Prop}
    (h : TimerChange seatIndex context loopHandle handled tame) {other : SeatIndex}
    (hne : timersOf handled.loopHandle other ≠ []) :
    other = seatIndex ∨ timersOf loopHandle other ≠ [] := by
  have hremove : ∀ token, handled.loopHandle = loopHandle.remove token →
      timersOf loopHandle other ≠ [] := by
    intro token hloop hnil
    rw [hloop, timersOf_remove, hnil] at hne
    exact hne rfl
  cases h with
  | none _ hloop _ => exact Or.inr (hloop other ▸ hne)
  | removed _ _ hloop _ => exact Or.inr (hremove _ hloop)
  | dropped _ _ _ hloop _ => exact Or.inr (hremove _ hloop)
  | forgotten _ _ hloop _ => exact Or.inr (hloop ▸ hne)
  | started _ hloop _ =>
      by_cases heq : other = seatIndex
      · exact Or.inl heq
      · rw [hloop, timersOf_register, if_neg (Ne.symm heq), List.append_nil] at hne
        exact Or.inr hne

variable {seatIds : List UInt32} {history : List Event} {state state' : State κ σ}
  {event : Event} {requests : List (SeatIndex × Request)}

theorem calls_of_timersOf (hcontext : state.context? seatIndex = some context)
    (htimers : timersOf state.loopHandle seatIndex ≠ []) :
    state.calls context.seatId = true := by
  obtain ⟨token, htoken⟩ := List.exists_mem_of_ne_nil _ htimers
  obtain ⟨timer, hfind, rfl⟩ := mem_timersOf.mp htoken
  refine List.any_eq_true.mpr ⟨timer, TokenMap.mem_values_of_find hfind, ?_⟩
  rw [hcontext]
  simp

theorem live_globalRemove {id : UInt32} (hlive : Live seatIds history state)
    (hcalls : state.calls id = false) :
    Live seatIds (history ++ [.registry (.globalRemove id)])
      (state.registryEvent (.globalRemove id)) where
  ofSeat seatIndex seatId hid hhistory := by
    have hne : seatId ≠ id := by
      rintro rfl
      exact hhistory (by simp)
    obtain ⟨context, hcontext, hseatId⟩ :=
      hlive.ofSeat seatIndex seatId hid fun hmem => hhistory (by simp [hmem])
    refine ⟨context, ?_, hseatId⟩
    rw [State.context?_globalRemove, hcontext]
    simp [hseatId, hne]
  ofTimer seatIndex htimers := by
    obtain ⟨context, hcontext⟩ := hlive.ofTimer seatIndex htimers
    -- a context that a timer calls is not one of those that are removed
    have hne : context.seatId ≠ id := by
      rintro rfl
      rw [calls_of_timersOf hcontext htimers] at hcalls
      cases hcalls
    exact ⟨context, by rw [State.context?_globalRemove, hcontext]; simp [hne]⟩

theorem live_step (hlive : Live seatIds history state)
    (horderly : Orderly seatIds history state event)
    (hstep : state.dispatch xkb backend event = .ok (state', requests)) :
    Live seatIds (history ++ [event]) state' := by
  rcases State.dispatch_ok hstep with ⟨registryEvent, rfl, rfl, _⟩ | ⟨token, rfl, _, rfl, _⟩ |
    ⟨seatIndex, context, handled, hcontext, hhandles, rfl, _⟩
  · cases registryEvent with
    | globalRemove id => exact live_globalRemove hlive (horderly.2 id rfl)
    | seat id =>
        refine ⟨fun seatIndex seatId hid hhistory => ?_, hlive.ofTimer⟩
        exact hlive.ofSeat seatIndex seatId hid fun hmem => hhistory (by simp [hmem])
  · refine ⟨fun seatIndex seatId hid hhistory => ?_, hlive.ofTimer⟩
    exact hlive.ofSeat seatIndex seatId hid fun hmem => hhistory (by simp [hmem])
  · refine ⟨?_, ?_⟩
    · intro other seatId hid hhistory
      obtain ⟨context', hcontext', hseatId⟩ :=
        hlive.ofSeat other seatId hid fun hmem => hhistory (by simp [hmem])
      rw [State.context?_put hcontext]
      by_cases heq : other = seatIndex
      · subst heq
        rw [hcontext] at hcontext'
        cases hcontext'
        exact ⟨handled.context, if_pos rfl, hhandles.seatId.trans hseatId⟩
      · exact ⟨context', by rw [if_neg heq, hcontext'], hseatId⟩
    · intro other htimers
      rw [State.context?_put hcontext]
      by_cases heq : other = seatIndex
      · exact ⟨handled.context, if_pos heq⟩
      · rw [if_neg heq]
        exact hlive.ofTimer other ((hhandles.timerChange.timersOf_ne_nil htimers).resolve_left heq)

theorem live_init : Live seatIds [] (State.init seatIds : State κ σ) where
  ofSeat seatIndex seatId hid _ :=
    ⟨{ seatId }, by simp [State.context?, State.init, List.getElem?_map, hid], rfl⟩
  ofTimer _ htimers := absurd rfl htimers

/-- An orderly event of a live state finds the context it is for. -/
theorem Live.noRemovedContext (hlive : Live seatIds history state)
    (horderly : Orderly seatIds history state event) :
    state.dispatch xkb backend event ≠ .error .removedContext := by
  intro h
  have hseat : ∀ seatIndex ∈ event.seat?, state.context? seatIndex ≠ none := by
    intro seatIndex hmem hnone
    obtain ⟨seatId, hid, hhistory⟩ := horderly.1 seatIndex hmem
    obtain ⟨context, hcontext, _⟩ := hlive.ofSeat seatIndex seatId hid hhistory
    rw [hnone] at hcontext
    cases hcontext
  cases event with
  | registry event => cases h
  | unknown seatIndex event => cases event <;> cases h
  | keyboardGrab seatIndex event =>
      rw [State.dispatch] at h
      rcases State.withContext_error h with ⟨hnone, _⟩ | ⟨context, _, hhandler⟩
      · exact hseat seatIndex rfl hnone
      · exact InputContext.keyboardGrabEvent_error hhandler rfl
  | inputMethod seatIndex event =>
      rw [State.dispatch] at h
      rcases State.withContext_error h with ⟨hnone, _⟩ | ⟨context, _, hhandler⟩
      · exact hseat seatIndex rfl hnone
      · cases hhandler
  | timer token =>
      obtain ⟨timer, hfind, ⟨hnone, _⟩ | ⟨context, _, hrepeat⟩⟩ := State.dispatch_timer_error h
      · obtain ⟨context, hcontext⟩ := hlive.ofTimer timer.seatIndex
          (List.ne_nil_of_mem (mem_timersOf.mpr ⟨timer, hfind, rfl⟩))
        rw [hnone] at hcontext
        cases hcontext
      · exact (InputContext.repeatKey_error hrepeat).1 rfl

/-! ## §3. Runs. -/

theorem live_of_orderly
    (hrun : Run (State.dispatch xkb backend) (Orderly seatIds) (State.init seatIds)
      history requests state) : Live seatIds history state := by
  refine hrun.invariant (fun history _ state => Live seatIds history state) live_init ?_
  intro _ _ _ _ _ _ hlive horderly hstep
  exact live_step hlive horderly hstep

/-- **No context is looked up in vain** in a run in which seats are removed in an orderly way,
whatever the next event may be. -/
theorem noRemovedContext_of_orderly
    (hrun : Run (State.dispatch xkb backend) (Orderly seatIds) (State.init seatIds)
      history requests state)
    (horderly : Orderly seatIds history state event) :
    state.dispatch xkb backend event ≠ .error .removedContext :=
  (live_of_orderly hrun).noRemovedContext horderly

/-- A seat that is removed after its keys were released, next to one that stays. -/
theorem noRemovedContext_of_orderly_twoSeats :
    ∃ requests state,
      Run (State.dispatch smallKeyboard emptyBackend) (Orderly [1, 2]) (State.init [1, 2])
        (setUp ++ [.keyboardGrab 0 (.key 0 30 .pressed), .keyboardGrab 0 (.key 9 30 .released),
          .registry (.globalRemove 1), .timer 0]) requests state ∧
      state.dispatch smallKeyboard emptyBackend (.inputMethod 1 .activate)
        ≠ .error .removedContext := by
  refine Run.exists_of_exec (fun _ _ => true) (by decide) ?_
  intro requests state hrun _
  exact noRemovedContext_of_orderly hrun ⟨by decide, fun _ hremoved => by cases hremoved⟩

/-- **A timer that outlives its context**: the seat is removed while `A` is repeated. -/
theorem removedContext_repeat :
    ∃ requests state,
      Run (State.dispatch smallKeyboard emptyBackend) (fun _ _ _ => True) (State.init [1])
        (setUp ++ [.keyboardGrab 0 (.key 0 30 .pressed), .registry (.globalRemove 1)])
        requests state ∧
      state.dispatch smallKeyboard emptyBackend (.timer 0) = .error .removedContext := by
  refine Run.exists_of_exec
    (fun _ state => state.dispatch smallKeyboard emptyBackend (.timer 0) = .error .removedContext)
    (by decide) ?_
  intro requests state _ htest
  exact of_decide_eq_true htest

end Shinran.Wayland
