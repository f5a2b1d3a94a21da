/-
  Shinran.Wayland.Preedit
  ───────────────────────
  **THE PREEDIT TEXT OF A SEAT.**

  A preedit text that is set is pending until the next commit, which applies it
  and takes the pending text back to the empty one.  A context commits every
  text that it sets, so nothing stays pending, and a seat without a buffer
  displays nothing.  The backend may answer differently every time that it is
  asked.

    • `displays_of_run`    — the invariant, after every run,
    • `Press.windsDown`    — what a key that winds the program down does,
    • `returnSurvives_iff` — when Return is handled to its end.
-/
import Shinran.Machine
import Shinran.Wayland.Steps

namespace Shinran.Wayland

open Machine (Run)

variable {κ σ ε : Type} {xkb : Xkb κ σ} {backend : Backend ε} {context : InputContext κ σ}
  {loopHandle : TokenMap Timer} {seatIndex : SeatIndex} {handled : Handled κ σ}
  {requests more : List Request}

/-! ## §1. What is displayed. -/

/-- The preedit text of a text field, and the one that the next commit makes it. -/
structure Preedit where
  pending : String := ""
  current : String := ""
  deriving DecidableEq, Repr

/-- What the compositor makes of a request. -/
def Preedit.apply (preedit : Preedit) : Request → Preedit
  | .setPreeditString text _ _ => { preedit with pending := text }
  | .commit _ => { current := preedit.pending }
  | _ => preedit

/-- The preedit text after all requests of a seat. -/
def preedit (requests : List Request) : Preedit := requests.foldl Preedit.apply {}

theorem preedit_append :
    preedit (requests ++ more) = more.foldl Preedit.apply (preedit requests) :=
  List.foldl_append

/-- The requests that have nothing to do with the preedit text. -/
def Request.KeepsPreedit (request : Request) : Prop :=
  ∀ preedit : Preedit, preedit.apply request = preedit

theorem Request.KeepsPreedit.of_not_typing {request : Request} (h : request.isTyping = false) :
    request.KeepsPreedit := by
  intro preedit
  cases request <;> first | rfl | cases h

theorem preedit_append_of_keeps (h : ∀ request ∈ more, request.KeepsPreedit) :
    preedit (requests ++ more) = preedit requests := by
  rw [preedit_append]
  induction more with
  | nil => rfl
  | cons request more ih =>
      rw [List.foldl_cons, h request List.mem_cons_self]
      exact ih fun request hrequest => h request (List.mem_cons_of_mem _ hrequest)

@[simp] theorem preedit_composingUpdate (text : String) :
    preedit (requests ++ context.composingUpdate text) = { current := text } := by
  rw [preedit_append]
  rfl

/-! ## §2. What a seat displays. -/

/-- Nothing is pending, and without a buffer nothing is displayed. -/
structure InputContext.Displays (context : InputContext κ σ) (requests : List Request) : Prop where
  pending : (preedit requests).pending = ""
  current : context.buffer = none → (preedit requests).current = ""

namespace InputContext.Displays

/-- The buffer and the preedit text stay as they are. -/
theorem frame {context' : InputContext κ σ} (h : context.Displays requests)
    (hbuffer : context'.buffer = context.buffer) (hmore : ∀ request ∈ more, request.KeepsPreedit) :
    context'.Displays (requests ++ more) := by
  constructor
  · rw [preedit_append_of_keeps hmore]
    exact h.pending
  · rw [preedit_append_of_keeps hmore, hbuffer]
    exact h.current

/-- A key event is sent. -/
theorem key {context' : InputContext κ σ} {time code : UInt32} {keyState : KeyState}
    (h : context.Displays requests) (hbuffer : context'.buffer = context.buffer) :
    context'.Displays (requests ++ [.key time code keyState]) := by
  refine h.frame hbuffer fun request hrequest => ?_
  rw [List.mem_singleton.mp hrequest]
  exact fun _ => rfl

/-- A text is shown that is the buffer, or empty. -/
theorem composingUpdate {text : String} {context' : InputContext κ σ}
    (htext : context'.buffer = none → text = "") :
    context'.Displays (requests ++ context.composingUpdate text) := by
  constructor
  · rw [preedit_composingUpdate]
  · rw [preedit_composingUpdate]
    exact htext

theorem composingCommit {output : String} {context' : InputContext κ σ}
    (h : context.Displays requests) :
    context'.Displays (requests ++ context.composingCommit output) := by
  have hpreedit : preedit (requests ++ context.composingCommit output)
      = { current := (preedit requests).pending } := by
    rw [preedit_append]
    rfl
  constructor
  · rw [hpreedit]
  · rw [hpreedit, h.pending]
    exact fun _ => rfl

theorem showBuffer (h : context.Displays requests) :
    context.Displays (requests ++ context.showBuffer) := by
  unfold InputContext.showBuffer
  cases hbuffer : context.buffer with
  | none => exact h.frame rfl (by simp)
  | some text => exact composingUpdate fun hnone => by rw [hbuffer] at hnone; cases hnone

/-- **`handle_key` displays the buffer**, or nothing once there is none. -/
theorem handleKey {key : Keycode} {after : HandledKey κ σ} (h : context.Displays requests)
    (hafter : context.handleKey xkb backend key = .ok after) :
    after.context.Displays (requests ++ after.requests) := by
  unfold InputContext.handleKey at hafter
  split at hafter
  · cases hafter
  · split at hafter
    case h_1 => cases hafter; exact composingUpdate fun _ => rfl
    case h_2 =>
      split at hafter
      · cases hafter
        exact h.frame rfl (by simp)
      · split at hafter
        · cases hafter
        · rename_i output _
          cases hafter
          cases output with
          | none => exact composingUpdate fun _ => rfl
          | some output => exact composingCommit h
    case h_3 | h_4 =>
      cases hafter
      exact h.frame rfl (by simp)
    case h_5 =>
      split at hafter
      · rename_i ch _
        cases hafter
        have happend : (context.append ch).Displays requests :=
          ⟨h.pending, fun hnone => by cases hnone⟩
        exact happend.showBuffer
      · cases hafter
        exact h.showBuffer

end InputContext.Displays

/-! ## §3. Every event keeps it. -/

/-- **A press displays what `handle_key` has.** -/
theorem Press.displays {time key : UInt32} {after : HandledKey κ σ}
    (h : Press xkb seatIndex context loopHandle time key after handled)
    (hafter : after.context.Displays (requests ++ after.requests)) :
    handled.context.Displays (requests ++ handled.requests) := by
  cases h with
  | stopped =>
      rw [← List.append_assoc]
      exact hafter.key rfl
  | forwarded =>
      rw [← List.append_assoc]
      exact hafter.key rfl
  | _ => exact ⟨hafter.pending, hafter.current⟩

/-- A key that winds the program down ends the event loop. -/
theorem Press.windsDown {time key : UInt32} {after : HandledKey κ σ}
    (h : Press xkb seatIndex context loopHandle time key after handled)
    (hnone : after.handled = none) : handled.shutDown = true := by
  cases h with
  | retargeted _ _ htrue => rw [hnone] at htrue; cases htrue
  | forgotten _ _ htrue => rw [hnone] at htrue; cases htrue
  | stopped _ _ hfalse => rw [hnone] at hfalse; cases hfalse
  | forwarded _ hfalse => rw [hnone] at hfalse; cases hfalse
  | shutDown => rfl
  | started => rw [hnone]; rfl
  | kept => rw [hnone]; rfl

theorem Handles.displays {event : Event}
    (h : Handles xkb backend loopHandle seatIndex context event handled)
    (hdisplays : context.Displays requests) :
    handled.context.Displays (requests ++ handled.requests) := by
  have hquiet : ∀ {more : List Request}, (∀ request ∈ more, request.isTyping = false) →
      ∀ request ∈ more, request.KeepsPreedit :=
    fun htyping request hrequest => .of_not_typing (htyping request hrequest)
  cases h with
  | keyboardGrab h =>
      cases InputContext.keyboardGrabEvent_ok h with
      | ignored => exact hdisplays.frame rfl (by simp)
      | press hafter hpress => exact hpress.displays (hdisplays.handleKey hafter)
      | release hrelease =>
          cases hrelease with
          | stopped => exact hdisplays.frame rfl (by simp)
          | kept => exact hdisplays.frame rfl (by simp)
          | forwarded => exact hdisplays.key rfl
      | noKey _ hcontext _ htyping => exact hdisplays.frame (by rw [hcontext]) (hquiet htyping)
  | inputMethod =>
      obtain ⟨⟨_, _, _, _, _, hcontext⟩, htyping⟩ := context.inputMethodEvent_frame _
      exact hdisplays.frame (by rw [hcontext]) (hquiet htyping)
  | timer _ _ h =>
      obtain ⟨after, hrepeat, rfl⟩ := InputContext.timerEvent_ok h
      obtain ⟨_, repeating, handledKey, _, _, _, hhandle, hafter⟩ :=
        InputContext.repeatKey_ok hrepeat
      have hkey : handledKey.context.Displays (requests ++ handledKey.requests) := by
        refine InputContext.Displays.handleKey ?_ hhandle
        exact ⟨hdisplays.pending, hdisplays.current⟩
      rcases hafter with ⟨_, rfl⟩ | ⟨_, rfl⟩
      · show InputContext.Displays _ (requests ++ (handledKey.requests ++ _))
        rw [← List.append_assoc]
        exact hkey.key rfl
      · exact hkey

/-- An event, while the backend answers in this way. -/
def State.dispatchAsking (xkb : Xkb κ σ) (state : State κ σ) :
    Backend ε × Event → Except (Panic ε) (State κ σ × List (SeatIndex × Request))
  | (backend, event) => state.dispatch xkb backend event

/-- **After every run, a seat without a buffer displays nothing.** -/
theorem displays_of_run {seatIds : List UInt32} {events : List (Backend ε × Event)}
    {emitted : List (SeatIndex × Request)} {state : State κ σ}
    (hrun : Run (State.dispatchAsking xkb) (fun _ _ _ => True) (State.init seatIds) events
      emitted state)
    (hcontext : state.context? seatIndex = some context) :
    context.Displays (requestsOf seatIndex emitted) := by
  have hinv : ∀ context, state.context? seatIndex = some context →
      context.Displays (requestsOf seatIndex emitted) := by
    refine hrun.invariant (fun _ emitted state => ∀ context,
      state.context? seatIndex = some context → context.Displays (requestsOf seatIndex emitted))
      (fun _ _ => ⟨rfl, fun _ => rfl⟩) ?_
    intro _ emitted state event state' more hdisplays _ hstep context' hcontext'
    rw [requestsOf_append]
    rcases State.dispatch_seat hstep seatIndex with ⟨hsame, hnothing, _⟩ |
      ⟨context, handled, hbefore, hhandles, hafter, hrequests⟩
    · rw [hnothing, List.append_nil]
      exact hdisplays context' (hsame context' hcontext')
    · rw [hafter] at hcontext'
      cases hcontext'
      rw [hrequests]
      exact hhandles.displays (hdisplays context hbefore)
  exact hinv context hcontext

/-! ## §4. Return. -/

namespace InputContext

/-- **Return survives**: `handle_key` comes to its end, nothing is displayed any more, nothing is
committed if the backend fails, and the program winds down, which ends the event loop as soon as
the press of the key is through. -/
def ReturnSurvives (xkb : Xkb κ σ) (backend : Backend ε) (requests : List Request)
    (context : InputContext κ σ) (key : Keycode) : Prop :=
  ∃ after, context.handleKey xkb backend key = .ok after
    ∧ after.context.buffer = none ∧ (preedit (requests ++ after.requests)).current = ""
    ∧ (∀ text ∈ context.buffer, ∀ error, backend.checkTrigger text = .error error →
        ∀ output, .commitString output ∉ after.requests)
    ∧ after.handled = none
    ∧ ∀ seatIndex loopHandle time code handled, code + scancodeOffset = key →
        context.pressedKey xkb backend seatIndex loopHandle time code = .ok handled →
        handled.shutDown = true

/-- **When Return survives**, after every run: nothing has been typed, or the backend answers. -/
theorem returnSurvives_iff {seatIds : List UInt32} {events : List (Backend ε × Event)}
    {emitted : List (SeatIndex × Request)} {state : State κ σ} {xkbState : σ} {key : Keycode}
    (hrun : Run (State.dispatchAsking xkb) (fun _ _ _ => True) (State.init seatIds) events
      emitted state)
    (hcontext : state.context? seatIndex = some context) (hx : context.xkbState = some xkbState)
    (hreturn : Keysym.new (xkb.keyGetOneSym xkbState key) = .return_) :
    context.ReturnSurvives xkb backend (requestsOf seatIndex emitted) key
      ↔ ∀ text ∈ context.buffer, ∃ output, backend.checkTrigger text = .ok output := by
  have hdisplays := displays_of_run hrun hcontext
  constructor
  · intro h text htext
    obtain ⟨after, hafter, _⟩ := h
    unfold handleKey at hafter
    rw [Option.mem_def] at htext
    simp only [hx, hreturn, htext] at hafter
    cases hanswer : backend.checkTrigger text with
    | error error => rw [hanswer] at hafter; cases hafter
    | ok output => exact ⟨output, rfl⟩
  · intro h
    obtain ⟨after, hafter, hbuffer, hnone⟩ : ∃ after,
        context.handleKey xkb backend key = .ok after ∧ after.context.buffer = none
          ∧ after.handled = none := by
      unfold handleKey
      simp only [hx, hreturn]
      cases hbuffer : context.buffer with
      | none => exact ⟨_, rfl, hbuffer, rfl⟩
      | some text =>
          obtain ⟨output, houtput⟩ := h text hbuffer
          simp only [houtput]
          exact ⟨_, rfl, rfl, rfl⟩
    refine ⟨after, hafter, hbuffer, (hdisplays.handleKey hafter).current hbuffer, ?_, hnone, ?_⟩
    · intro text htext error herror
      obtain ⟨output, houtput⟩ := h text htext
      rw [houtput] at herror
      cases herror
    · intro seatIndex loopHandle time code handled hcode hpressed
      obtain ⟨after', hafter', hpress⟩ := pressedKey_ok hpressed
      rw [hcode, hafter, Except.ok.injEq] at hafter'
      subst hafter'
      exact hpress.windsDown hnone

end InputContext

end Shinran.Wayland
