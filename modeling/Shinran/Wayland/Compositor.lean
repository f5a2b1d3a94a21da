/-
  Shinran.Wayland.Compositor
  ──────────────────────────
  **THE COMPOSITOR'S SIDE OF THE PROTOCOLS.**

  A compositor keeps a record of the objects that it shares with the frontend
  for a seat: how many `Done` events it has sent, which every commit has to
  repeat, whether the keyboard is grabbed, whether the virtual keyboard has a
  keymap, and whether a text waits to be committed.  It objects to what breaks
  the rules.

    • `SeatObjects.observe`  — the rules, as an observer of the frontend,
    • `Agrees.handleKey`, `Agrees.keyboardGrabEvent`, `Agrees.inputMethodEvent`
                             — every handler keeps to them,
    • `conforms_of_run`      — so no run gives rise to an objection.
-/
import Shinran.Observer
import Shinran.Wayland.Preedit

namespace Shinran.Wayland

open Machine (Run Observer watched)
open InputContext (scancodeOffset)

/-! ## §1. The rules. -/

/-- What a compositor knows of the objects of a seat. -/
structure SeatObjects where
  /-- the `Done` events that have been sent, modulo 2^32 -/
  serial : UInt32 := 0
  grabbed : Bool := false
  hasKeymap : Bool := false
  /-- A text has been set that is not committed yet. -/
  uncommitted : Bool := false
  deriving DecidableEq, Repr

namespace SeatObjects

/-- A `Done` event is sent to the input method of the seat. -/
def send (objects : SeatObjects) (seatIndex : SeatIndex) (event : Event) : SeatObjects :=
  if event = .inputMethod seatIndex .done then { objects with serial := objects.serial + 1 }
  else objects

/-- A request arrives; `none` is a breach of the protocol. -/
def receive (objects : SeatObjects) : Request → Option SeatObjects
  | .setPreeditString .. | .commitString _ => some { objects with uncommitted := true }
  | .commit serial =>
    if serial = objects.serial then some { objects with uncommitted := false } else none
  | .grabKeyboard => if objects.grabbed then none else some { objects with grabbed := true }
  | .release => if objects.grabbed then some { objects with grabbed := false } else none
  | .key .. | .modifiers .. => if objects.hasKeymap then some objects else none
  | .keymap .xkbV1 _ _ => some { objects with hasKeymap := true }
  | .keymap .noKeymap _ _ => some objects

def receiveAll (objects : SeatObjects) (requests : List Request) : Option SeatObjects :=
  requests.foldlM receive objects

/-- The compositor sends an event, and receives the requests for the seat; no text may be left
without a commit. -/
def observe {ε : Type} (seatIndex : SeatIndex) :
    Observer SeatObjects (Backend ε × Event) (SeatIndex × Request) :=
  fun objects (_, event) emitted =>
    ((objects.send seatIndex event).receiveAll (requestsOf seatIndex emitted)).filter
      fun objects => !objects.uncommitted

variable {objects : SeatObjects} {requests more : List Request}

@[simp] theorem receiveAll_nil : objects.receiveAll [] = some objects := rfl

@[simp] theorem receiveAll_append : objects.receiveAll (requests ++ more)
    = (objects.receiveAll requests).bind fun objects => objects.receiveAll more :=
  List.foldlM_append

theorem receiveAll_singleton (request : Request) :
    objects.receiveAll [request] = objects.receive request := by
  show (objects.receive request).bind some = _
  cases objects.receive request <;> rfl

end SeatObjects

/-! ## §2. What the handlers send. -/

variable {κ σ ε : Type} {xkb : Xkb κ σ} {backend : Backend ε} {context : InputContext κ σ}
  {loopHandle : TokenMap Timer} {seatIndex : SeatIndex} {handled : Handled κ σ}
  {objects : SeatObjects}

/-- Both sides have the same idea of a seat. -/
structure Agrees (objects : SeatObjects) (context : InputContext κ σ) : Prop where
  serial : objects.serial = context.numDoneEvents
  grabbed : objects.grabbed = context.keyboardGrab
  hasKeymap : context.xkbState.isSome → objects.hasKeymap = true
  committed : objects.uncommitted = false

namespace Agrees

/-- Nothing is left of a text that is set and committed at once. -/
theorem composingUpdate (h : Agrees objects context) (text : String) :
    objects.receiveAll (context.composingUpdate text) = some objects := by
  obtain ⟨serial, _, _, _⟩ := objects
  obtain rfl : _ = _ := h.serial
  obtain rfl : _ = _ := h.committed
  simp [SeatObjects.receiveAll, InputContext.composingUpdate, SeatObjects.receive]

theorem composingCommit (h : Agrees objects context) (output : String) :
    objects.receiveAll (context.composingCommit output) = some objects := by
  obtain ⟨serial, _, _, _⟩ := objects
  obtain rfl : _ = _ := h.serial
  obtain rfl : _ = _ := h.committed
  simp [SeatObjects.receiveAll, InputContext.composingCommit, SeatObjects.receive]

theorem showBuffer (h : Agrees objects context) :
    objects.receiveAll context.showBuffer = some objects := by
  unfold InputContext.showBuffer
  cases context.buffer with
  | none => rfl
  | some text => exact h.composingUpdate text

theorem key (h : Agrees objects context) {xkbState : σ} (hx : context.xkbState = some xkbState)
    (time code : UInt32) (keyState : KeyState) :
    objects.receiveAll [.key time code keyState] = some objects := by
  rw [SeatObjects.receiveAll_singleton]
  simp [SeatObjects.receive, h.hasKeymap (by simp [hx])]

/-- The buffer and the timer are no business of the compositor. -/
theorem frame {context' : InputContext κ σ} (h : Agrees objects context)
    (hserial : context'.numDoneEvents = context.numDoneEvents)
    (hgrab : context'.keyboardGrab = context.keyboardGrab)
    (hstate : context'.xkbState = context.xkbState) : Agrees objects context' where
  serial := by rw [hserial]; exact h.serial
  grabbed := by rw [hgrab]; exact h.grabbed
  hasKeymap := by rw [hstate]; exact h.hasKeymap
  committed := h.committed

/-- **`handle_key` commits all that it sets**, and knows the serial. -/
theorem handleKey {key : Keycode} {after : HandledKey κ σ} (h : Agrees objects context)
    (hafter : context.handleKey xkb backend key = .ok after) :
    objects.receiveAll after.requests = some objects := by
  unfold InputContext.handleKey at hafter
  split at hafter
  · cases hafter
  · split at hafter
    case h_1 => cases hafter; exact h.composingUpdate ""
    case h_2 =>
      split at hafter
      · cases hafter
        rfl
      · split at hafter
        · cases hafter
        · rename_i output _
          cases hafter
          cases output with
          | none => exact h.composingUpdate ""
          | some output => exact h.composingCommit output
    case h_3 | h_4 =>
      cases hafter
      rfl
    case h_5 =>
      split at hafter
      · rename_i ch _
        cases hafter
        have happend : Agrees objects (context.append ch) := h.frame rfl rfl rfl
        exact happend.showBuffer
      · cases hafter
        exact h.showBuffer

theorem press {time key : UInt32} {after : HandledKey κ σ} (h : Agrees objects context)
    (hafter : context.handleKey xkb backend (key + scancodeOffset) = .ok after)
    (hpress : Press xkb seatIndex context loopHandle time key after handled) :
    objects.receiveAll handled.requests = some objects ∧ Agrees objects handled.context := by
  obtain ⟨xkbState, hx, _, hcontext, _⟩ := InputContext.handleKey_ok hafter
  have hsent := h.handleKey hafter
  have hkept : Agrees objects after.context := by
    rw [hcontext]
    exact h.frame rfl rfl rfl
  have hforward : objects.receiveAll (after.requests ++ [.key time key .pressed])
      = some objects := by
    rw [SeatObjects.receiveAll_append, hsent]
    exact h.key hx time key .pressed
  cases hpress with
  | stopped => exact ⟨hforward, hkept.frame rfl rfl rfl⟩
  | forwarded => exact ⟨hforward, hkept⟩
  | _ => exact ⟨hsent, hkept.frame rfl rfl rfl⟩

theorem release {time key : UInt32} {xkbState : σ} (h : Agrees objects context)
    (hx : context.xkbState = some xkbState)
    (hrelease : Release context loopHandle time key handled) :
    objects.receiveAll handled.requests = some objects ∧ Agrees objects handled.context := by
  cases hrelease with
  | stopped => exact ⟨rfl, h.frame rfl rfl rfl⟩
  | kept => exact ⟨rfl, h.frame rfl rfl rfl⟩
  | forwarded => exact ⟨h.key hx time key .released, h⟩

/-- **Keys follow a keymap**, since the context has no keyboard state before. -/
theorem keyboardGrabEvent {event : GrabEvent} (h : Agrees objects context)
    (hhandled : context.keyboardGrabEvent xkb backend seatIndex loopHandle event = .ok handled) :
    ∃ objects', objects.receiveAll handled.requests = some objects' ∧
      Agrees objects' handled.context := by
  cases event with
  | key time key keyState =>
      unfold InputContext.keyboardGrabEvent at hhandled
      simp only at hhandled
      split at hhandled
      · cases hhandled
        exact ⟨objects, rfl, h⟩
      · rename_i xkbState hx
        cases keyState with
        | pressed =>
            obtain ⟨after, hafter, hpress⟩ := InputContext.pressedKey_ok hhandled
            exact ⟨objects, h.press hafter hpress⟩
        | released =>
            cases hhandled
            exact ⟨objects, h.release hx InputContext.releasedKey_release⟩
  | modifiers depressed latched locked group =>
      unfold InputContext.keyboardGrabEvent at hhandled
      simp only at hhandled
      split at hhandled
      · cases hhandled
        exact ⟨objects, rfl, h⟩
      · rename_i xkbState hx
        cases hhandled
        have hkeymap := h.hasKeymap (by simp [hx])
        refine ⟨objects, ?_, h.serial, h.grabbed, fun _ => hkeymap, h.committed⟩
        rw [SeatObjects.receiveAll_singleton]
        simp [SeatObjects.receive, hkeymap]
  | keymap format fd size =>
      unfold InputContext.keyboardGrabEvent InputContext.keymapEvent at hhandled
      simp only at hhandled
      split at hhandled
      · cases hhandled
        exact ⟨objects, rfl, h⟩
      · have hset : objects.receiveAll [.keymap .xkbV1 fd size]
            = some { objects with hasKeymap := true } := rfl
        split at hhandled
        · cases hhandled
        · cases hhandled
          exact ⟨_, hset, h.serial, h.grabbed, fun _ => rfl, h.committed⟩
        · cases hhandled
          exact ⟨_, hset, h.serial, h.grabbed, fun _ => rfl, h.committed⟩
  | repeatInfo rate delay =>
      cases hhandled
      exact ⟨objects, rfl, h.frame rfl rfl rfl⟩

/-- **The grab is requested and released in turns**, and the serial counts the `Done` events. -/
theorem inputMethodEvent (h : Agrees objects context) (event : InputMethodEvent) :
    ∃ objects', (objects.send seatIndex (.inputMethod seatIndex event)).receiveAll
        (context.inputMethodEvent event).2 = some objects' ∧
      Agrees objects' (context.inputMethodEvent event).1 := by
  obtain ⟨serial, grabbed, hasKeymap, uncommitted⟩ := objects
  obtain ⟨hserial, hgrabbed, hkeymap, hcommitted⟩ := h
  dsimp only at hserial hgrabbed hkeymap hcommitted
  subst hserial hgrabbed hcommitted
  cases event with
  | done =>
      have hsent : SeatObjects.send ⟨context.numDoneEvents, context.keyboardGrab, hasKeymap, false⟩
          seatIndex (.inputMethod seatIndex .done)
          = ⟨context.numDoneEvents + 1, context.keyboardGrab, hasKeymap, false⟩ := by
        simp [SeatObjects.send]
      rw [hsent]
      refine ⟨⟨context.numDoneEvents + 1, context.done.1.keyboardGrab, hasKeymap, false⟩, ?_,
        ?_, rfl, ?_, rfl⟩
      all_goals
        simp only [InputContext.inputMethodEvent, InputContext.done]
        cases context.keyboardGrab <;> cases context.pendingDeactivate <;>
          cases context.pendingActivate <;> first | rfl | exact hkeymap
  | _ =>
      refine ⟨⟨context.numDoneEvents, context.keyboardGrab, hasKeymap, false⟩, ?_, rfl, rfl,
        hkeymap, rfl⟩
      simp [SeatObjects.send, InputContext.inputMethodEvent]

theorem timerEvent {token : Nat} (h : Agrees objects context)
    (hhandled : context.timerEvent xkb backend loopHandle token = .ok handled) :
    objects.receiveAll handled.requests = some objects ∧ Agrees objects handled.context := by
  obtain ⟨after, hrepeat, rfl⟩ := InputContext.timerEvent_ok hhandled
  obtain ⟨_, repeating, handledKey, _, _, _, hhandle, hafter⟩ := InputContext.repeatKey_ok hrepeat
  obtain ⟨xkbState, hx, _, hcontext, _⟩ := InputContext.handleKey_ok hhandle
  have hsent : objects.receiveAll handledKey.requests = some objects := by
    refine handleKey ?_ hhandle
    exact h.frame rfl rfl rfl
  have hkept : Agrees objects handledKey.context := by
    rw [hcontext]
    exact h.frame rfl rfl rfl
  rcases hafter with ⟨_, rfl⟩ | ⟨_, rfl⟩
  · refine ⟨?_, hkept.frame rfl rfl rfl⟩
    rw [SeatObjects.receiveAll_append, hsent]
    exact h.key hx _ _ .pressed
  · exact ⟨hsent, hkept⟩

end Agrees

/-! ## §3. Every run. -/

/-- **Whatever a handler does for a seat**, the compositor follows. -/
theorem Handles.agrees {event : Event}
    (h : Handles xkb backend loopHandle seatIndex context event handled)
    (hagrees : Agrees objects context) :
    ∃ objects', (objects.send seatIndex event).receiveAll handled.requests = some objects' ∧
      Agrees objects' handled.context := by
  cases h with
  | keyboardGrab h =>
      obtain ⟨objects', hreceived, hagrees'⟩ := hagrees.keyboardGrabEvent h
      exact ⟨objects', by simpa [SeatObjects.send] using hreceived, hagrees'⟩
  | inputMethod => exact hagrees.inputMethodEvent _
  | timer _ _ h =>
      obtain ⟨hreceived, hagrees'⟩ := hagrees.timerEvent h
      exact ⟨objects, by simpa [SeatObjects.send] using hreceived, hagrees'⟩

/-- Nothing waits for a commit, and both sides agree on the seat as long as there is one. -/
def SeatObjects.Follows (seatIndex : SeatIndex) (objects : SeatObjects) (state : State κ σ) :
    Prop :=
  objects.uncommitted = false ∧
    ∀ context, state.context? seatIndex = some context → Agrees objects context

/-- **The frontend conforms to the protocols**: in no run does the compositor object to a request
for a seat.  Every commit repeats the number of `Done` events, a text that is set is committed
before the next event, the keyboard is grabbed when it is not and released when it is, and keys
and modifiers are sent to a virtual keyboard that has a keymap. -/
theorem conforms_of_run {seatIds : List UInt32} {events : List (Backend ε × Event)}
    {emitted : List (SeatIndex × Request)} {state : State κ σ} (seatIndex : SeatIndex)
    (hrun : Run (State.dispatchAsking xkb) (fun _ _ _ => True) (State.init seatIds) events emitted
      state) :
    ∃ objects : SeatObjects,
      Run (watched (State.dispatchAsking xkb) (SeatObjects.observe seatIndex))
        (fun _ _ _ => True) (State.init seatIds, some {}) events emitted (state, some objects) ∧
      objects.Follows seatIndex state := by
  refine hrun.approves (SeatObjects.Follows seatIndex) ?_ ?_
  · refine ⟨rfl, fun context hcontext => ?_⟩
    obtain ⟨seatId, _, rfl⟩ := State.context?_init hcontext
    exact ⟨rfl, rfl, by simp, rfl⟩
  · rintro _ objects state ⟨backend, event⟩ state' more ⟨hcommitted, hagrees⟩ _ hstep
    unfold SeatObjects.observe
    dsimp only
    rcases State.dispatch_seat hstep seatIndex with ⟨hsame, hnothing, hother⟩ |
      ⟨context, handled, hcontext, hhandles, hafter, hrequests⟩
    · have hsent : objects.send seatIndex event = objects := by
        refine if_neg ?_
        rintro rfl
        exact hother rfl
      rw [hnothing, hsent]
      refine ⟨objects, by simp [Option.filter, hcommitted], hcommitted, ?_⟩
      exact fun context hcontext => hagrees context (hsame context hcontext)
    · obtain ⟨objects', hreceived, hagrees'⟩ := hhandles.agrees (hagrees context hcontext)
      rw [hrequests, hreceived]
      refine ⟨objects', by simp [Option.filter, hagrees'.committed], hagrees'.committed, ?_⟩
      intro context' hcontext'
      rw [hafter] at hcontext'
      cases hcontext'
      exact hagrees'

/-- A key is typed and forwarded, and the seat is deactivated and activated again. -/
theorem conforms_of_run_reactivated :
    ∃ emitted state,
      Run (State.dispatchAsking smallKeyboard) (fun _ _ _ => True) (State.init [1])
        ((setUp ++ [Event.keyboardGrab 0 (.key 0 30 .pressed),
          Event.keyboardGrab 0 (.key 5 30 .released), Event.keyboardGrab 0 (.key 9 42 .pressed),
          Event.inputMethod 0 .deactivate, Event.inputMethod 0 .done, Event.inputMethod 0 .activate,
          Event.inputMethod 0 .done]).map fun event => (emptyBackend, event)) emitted state
        ∧ ∃ objects : SeatObjects, objects.serial = 3 ∧ objects.Follows 0 state := by
  refine Run.exists_of_exec (fun _ state => decide
    ((state.context? 0).map (·.numDoneEvents) = some 3)) (by decide) ?_
  intro emitted state hrun htest
  obtain ⟨objects, _, hfollows⟩ := conforms_of_run 0 hrun
  obtain ⟨context, hcontext, hserial⟩ := Option.map_eq_some_iff.mp (of_decide_eq_true htest)
  exact ⟨objects, by rw [(hfollows.2 context hcontext).serial, hserial], hfollows⟩

end Shinran.Wayland
