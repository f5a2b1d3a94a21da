/-
  Shinran.Wayland.Steps
  ─────────────────────
  **WHAT A STEP DOES TO A SEAT.**

  The handlers of the frontend, read backwards: what they leave behind if they
  come to their end.

    • `handleKey_ok`, `repeatKey_ok` — the methods of a context,
    • `Press`, `pressedKey_ok`       — the ways in which the press of a key ends,
    • `Release`, `releasedKey_eq`    — the same for its release,
    • `Grabs`, `keyboardGrabEvent_ok` — an event of the keyboard grab,
    • `inputMethodEvent_frame`       — an event of the input method,
    • `Handles`, `dispatch_ok`       — one event of the frontend,
    • `Handles.sameActivation`       — only the input method activates a seat.
-/
import Shinran.Wayland.State

namespace Shinran.Wayland

variable {κ σ ε : Type} {xkb : Xkb κ σ} {backend : Backend ε} {context : InputContext κ σ}
  {loopHandle : TokenMap Timer}

/-! ## §1. Requests. -/

/-- The key events among requests, as the virtual keyboard sees them. -/
def Request.keyEvent? : Request → Option (UInt32 × KeyState)
  | .key _ code state => some (code, state)
  | _ => none

def keyEvents (requests : List Request) : List (UInt32 × KeyState) :=
  requests.filterMap Request.keyEvent?

@[simp] theorem keyEvents_append (requests requests' : List Request) :
    keyEvents (requests ++ requests') = keyEvents requests ++ keyEvents requests' :=
  List.filterMap_append

@[simp] theorem keyEvents_composingUpdate (text : String) :
    keyEvents (context.composingUpdate text) = [] := by
  simp [keyEvents, InputContext.composingUpdate, Request.keyEvent?]

@[simp] theorem keyEvents_composingCommit (output : String) :
    keyEvents (context.composingCommit output) = [] := by
  simp [keyEvents, InputContext.composingCommit, Request.keyEvent?]

@[simp] theorem keyEvents_showBuffer : keyEvents context.showBuffer = [] := by
  unfold InputContext.showBuffer
  split
  · exact keyEvents_composingUpdate _
  · rfl

/-- The requests that put something into the application. -/
def Request.isTyping : Request → Bool
  | .setPreeditString .. | .commitString _ | .commit _ | .key .. => true
  | _ => false

theorem keyEvents_eq_nil {requests : List Request}
    (h : ∀ request ∈ requests, request.isTyping = false) : keyEvents requests = [] := by
  refine List.filterMap_eq_nil_iff.mpr ?_
  intro request hrequest
  have htyping := h request hrequest
  cases request <;> first | rfl | cases htyping

/-! ## §2. The methods of a context. -/

/-- **`handle_key` changes the buffer and nothing else**, and no key event comes of it. -/
theorem InputContext.handleKey_ok {key : Keycode} {after : HandledKey κ σ}
    (h : context.handleKey xkb backend key = .ok after) :
    ∃ xkbState, context.xkbState = some xkbState ∧ after.handled = classify xkb xkbState key ∧
      after.context = { context with buffer := after.context.buffer } ∧
      keyEvents after.requests = [] := by
  unfold InputContext.handleKey at h
  split at h
  · cases h
  · rename_i xkbState hx
    refine ⟨xkbState, hx, ?_⟩
    unfold classify
    split at h
    case h_1 => cases h; exact ⟨rfl, rfl, keyEvents_composingUpdate _⟩
    case h_2 =>
      split at h
      · cases h; exact ⟨rfl, rfl, rfl⟩
      · split at h
        · cases h
        · rename_i output _
          cases h
          cases output with
          | none => exact ⟨rfl, rfl, keyEvents_composingUpdate _⟩
          | some output => exact ⟨rfl, rfl, keyEvents_composingCommit _⟩
    case h_3 => cases h; exact ⟨rfl, rfl, rfl⟩
    case h_4 => cases h; exact ⟨rfl, rfl, rfl⟩
    case h_5 =>
      cases hc : typedCharacter xkb xkbState key with
      | none => rw [hc] at h; cases h; exact ⟨rfl, rfl, keyEvents_showBuffer⟩
      | some ch => rw [hc] at h; cases h; exact ⟨rfl, rfl, by rw [keyEvents_showBuffer]⟩

theorem InputContext.handleKey_error {key : Keycode} {panic : Panic ε}
    (h : context.handleKey xkb backend key = .error panic) :
    panic = .noState ∨ ∃ error, panic = .checkTrigger error := by
  unfold InputContext.handleKey at h
  split at h
  · cases h
    exact Or.inl rfl
  · split at h
    case h_2 =>
      split at h
      · cases h
      · split at h
        · cases h
          exact Or.inr ⟨_, rfl⟩
        · cases h
    case h_5 => split at h <;> cases h
    all_goals cases h

theorem InputContext.handleKey_error_ne {key : Keycode} {panic : Panic ε}
    (h : context.handleKey xkb backend key = .error panic) : panic ≠ .removedContext := by
  rcases InputContext.handleKey_error h with rfl | ⟨error, rfl⟩ <;> simp

/-- `repeat_key` handles the key that is being repeated. -/
theorem InputContext.repeatKey_ok {after : RepeatedKey κ σ}
    (h : context.repeatKey xkb backend = .ok after) :
    ∃ repeatRate repeating handled timestamp, context.repeatRate = some repeatRate ∧
      context.repeatTimer = some repeating ∧
      ({ context with repeatTimer := some { repeating with timestamp } }).handleKey xkb backend
        repeating.keycode = .ok handled ∧
      (handled.handled = some false ∧
          after = ⟨{ handled.context with repeatTimer := none },
            handled.requests ++ [.key repeating.timestamp (repeating.keycode - 8) .pressed], .drop⟩
        ∨ handled.handled ≠ some false ∧
          after = ⟨handled.context, handled.requests, .toDuration repeatRate⟩) := by
  unfold InputContext.repeatKey at h
  cases hr : context.repeatRate with
  | none => rw [hr] at h; cases h
  | some repeatRate =>
  cases ht : context.repeatTimer with
  | none => rw [hr, ht] at h; cases h
  | some repeating =>
      rw [hr, ht] at h
      simp only at h
      split at h
      · cases h
      · split at h
        · cases h
        · rename_i handled hhandle
          refine ⟨repeatRate, repeating, handled, _, rfl, rfl, hhandle, ?_⟩
          split at h
          · rename_i hfalse
            cases h
            exact Or.inl ⟨hfalse, rfl⟩
          · rename_i hfalse
            cases h
            exact Or.inr ⟨hfalse, rfl⟩

theorem InputContext.repeatKey_error {panic : Panic ε}
    (h : context.repeatKey xkb backend = .error panic) :
    panic ≠ .removedContext ∧ (panic = .noRepeatTimer → context.repeatTimer = none) := by
  unfold InputContext.repeatKey at h
  split at h
  · cases h
    simp
  · split at h
    · rename_i ht
      cases h
      exact ⟨by simp, fun _ => ht⟩
    · simp only at h
      split at h
      · cases h
        simp
      · split at h
        · rename_i hhandle
          cases h
          rcases InputContext.handleKey_error hhandle with rfl | ⟨error, rfl⟩ <;> simp
        · split at h <;> cases h

/-! ## §3. Keys that are pressed and released. -/

open InputContext (scancodeOffset)

/-- **The ways in which the press of a key ends**, once `handle_key` has left `after` behind. -/
inductive Press (xkb : Xkb κ σ) (seatIndex : SeatIndex) (context : InputContext κ σ)
    (loopHandle : TokenMap Timer) (time key : UInt32) (after : HandledKey κ σ) :
    Handled κ σ → Prop
  /-- The timer of another key goes on with this one. -/
  | retargeted {repeating : RepeatTimer} {keymap : κ} {repeatDelay : UInt64} :
      context.repeatTimer = some repeating → repeating.keycode ≠ key + scancodeOffset →
      after.handled = some true → after.context.xkbKeymap = some keymap →
      xkb.keyRepeats keymap (key + scancodeOffset) = true →
      after.context.repeatDelay = some repeatDelay →
      Press xkb seatIndex context loopHandle time key after {
        context := { after.context.markAsPressed (key + scancodeOffset) with
          repeatTimer := some { repeating with
            keycode := key + scancodeOffset, timestamp := time + repeatDelay.toUInt32 } }
        loopHandle := loopHandle.update repeating.registration
          fun timer => { timer with duration := repeatDelay }
        requests := after.requests }
  /-- The timer of another key is forgotten. -/
  | forgotten {repeating : RepeatTimer} {keymap : κ} :
      context.repeatTimer = some repeating → repeating.keycode ≠ key + scancodeOffset →
      after.handled = some true → after.context.xkbKeymap = some keymap →
      xkb.keyRepeats keymap (key + scancodeOffset) = false →
      Press xkb seatIndex context loopHandle time key after {
        context := { after.context.markAsPressed (key + scancodeOffset) with repeatTimer := none }
        loopHandle, requests := after.requests }
  /-- The timer of another key is removed, and this one is forwarded. -/
  | stopped {repeating : RepeatTimer} :
      context.repeatTimer = some repeating → repeating.keycode ≠ key + scancodeOffset →
      after.handled = some false →
      Press xkb seatIndex context loopHandle time key after {
        context := { after.context with repeatTimer := none }
        loopHandle := loopHandle.remove repeating.registration
        requests := after.requests ++ [.key time key .pressed] }
  /-- The program winds down while another key is being repeated. -/
  | shutDown {repeating : RepeatTimer} :
      context.repeatTimer = some repeating → repeating.keycode ≠ key + scancodeOffset →
      after.handled = none →
      Press xkb seatIndex context loopHandle time key after
        { context := after.context, loopHandle, requests := after.requests, shutDown := true }
  /-- A new timer repeats the key. -/
  | started {keymap : κ} {repeatDelay : UInt64} :
      context.repeatsOther (key + scancodeOffset) = false → after.handled ≠ some false →
      after.context.xkbKeymap = some keymap →
      xkb.keyRepeats keymap (key + scancodeOffset) = true →
      after.context.repeatDelay = some repeatDelay →
      Press xkb seatIndex context loopHandle time key after {
        context := { after.context.markAsPressed (key + scancodeOffset) with
          repeatTimer := some {
            keycode := key + scancodeOffset, timestamp := time + repeatDelay.toUInt32
            registration := loopHandle.next } }
        loopHandle := loopHandle.register ⟨seatIndex, repeatDelay⟩
        requests := after.requests, shutDown := after.handled.isNone }
  /-- The key is kept, and cannot be repeated. -/
  | kept {keymap : κ} :
      context.repeatsOther (key + scancodeOffset) = false → after.handled ≠ some false →
      after.context.xkbKeymap = some keymap →
      xkb.keyRepeats keymap (key + scancodeOffset) = false →
      Press xkb seatIndex context loopHandle time key after {
        context := after.context.markAsPressed (key + scancodeOffset), loopHandle
        requests := after.requests, shutDown := after.handled.isNone }
  /-- The key is forwarded. -/
  | forwarded :
      context.repeatsOther (key + scancodeOffset) = false → after.handled = some false →
      Press xkb seatIndex context loopHandle time key after {
        context := after.context, loopHandle
        requests := after.requests ++ [.key time key .pressed] }

variable {seatIndex : SeatIndex} {time key : UInt32} {handled : Handled κ σ}

theorem InputContext.pressedWhileRepeating_ok {repeating : RepeatTimer}
    (ht : context.repeatTimer = some repeating) (hk : repeating.keycode ≠ key + scancodeOffset)
    (h : context.pressedWhileRepeating xkb backend loopHandle repeating time key = .ok handled) :
    ∃ after, context.handleKey xkb backend (key + scancodeOffset) = .ok after ∧
      Press xkb seatIndex context loopHandle time key after handled := by
  unfold InputContext.pressedWhileRepeating at h
  simp only at h
  split at h
  · cases h
  · rename_i after hafter
    refine ⟨after, hafter, ?_⟩
    split at h
    case h_1 htrue =>
      split at h
      · cases h
      · rename_i keymap hkeymap
        split at h
        · rename_i hrepeats
          split at h
          · cases h
          · rename_i hdelay
            split at h
            · cases h
            · cases h
              exact .retargeted ht hk htrue hkeymap hrepeats hdelay
        · rename_i hrepeats
          cases h
          exact .forgotten ht hk htrue hkeymap (by simpa using hrepeats)
    case h_2 hfalse => cases h; exact .stopped ht hk hfalse
    case h_3 hnone => cases h; exact .shutDown ht hk hnone

theorem InputContext.pressedOtherwise_ok
    (ht : context.repeatsOther (key + scancodeOffset) = false)
    (h : context.pressedOtherwise xkb backend seatIndex loopHandle time key = .ok handled) :
    ∃ after, context.handleKey xkb backend (key + scancodeOffset) = .ok after ∧
      Press xkb seatIndex context loopHandle time key after handled := by
  unfold InputContext.pressedOtherwise at h
  simp only at h
  split at h
  · cases h
  · rename_i after hafter
    refine ⟨after, hafter, ?_⟩
    split at h
    · cases h
    · rename_i keymap hkeymap
      by_cases hhandled : after.handled = some false
      · have hshutDown : after.handled.isNone = false := by rw [hhandled]; rfl
        rw [if_neg (by simp [hhandled]), if_neg (by simp [hhandled]), hshutDown] at h
        cases h
        exact .forwarded ht hhandled
      · by_cases hrepeats : xkb.keyRepeats keymap (key + scancodeOffset) = true
        · rw [if_pos ⟨hrepeats, by simpa using hhandled⟩] at h
          split at h
          · cases h
          · rename_i hdelay
            cases h
            exact .started ht hhandled hkeymap hrepeats hdelay
        · rw [if_neg (fun hboth => hrepeats hboth.1), if_pos (by simpa using hhandled)] at h
          cases h
          exact .kept ht hhandled hkeymap (by simpa using hrepeats)

/-- **What the press of a key leaves behind** is one of the seven ways. -/
theorem InputContext.pressedKey_ok
    (h : context.pressedKey xkb backend seatIndex loopHandle time key = .ok handled) :
    ∃ after, context.handleKey xkb backend (key + scancodeOffset) = .ok after ∧
      Press xkb seatIndex context loopHandle time key after handled := by
  unfold InputContext.pressedKey at h
  split at h
  · rename_i repeating ht
    split at h
    · rename_i hk
      exact InputContext.pressedWhileRepeating_ok ht hk h
    · rename_i hk
      exact InputContext.pressedOtherwise_ok (by simpa [InputContext.repeatsOther, ht] using hk) h
  · rename_i ht
    exact InputContext.pressedOtherwise_ok (by simp [InputContext.repeatsOther, ht]) h

/-- **The ways in which the release of a key ends.** -/
inductive Release (context : InputContext κ σ) (loopHandle : TokenMap Timer)
    (time key : UInt32) : Handled κ σ → Prop
  /-- The key was being repeated. -/
  | stopped {repeating : RepeatTimer} :
      context.repeatTimer = some repeating → repeating.keycode = key + scancodeOffset →
      Release context loopHandle time key {
        context := { context with
          pressed := context.pressed.replace (key + scancodeOffset) 0, repeatTimer := none }
        loopHandle := loopHandle.remove repeating.registration }
  /-- The press was kept, and so is the release. -/
  | kept :
      context.repeatsKey (key + scancodeOffset) = false → key + scancodeOffset ∈ context.pressed →
      Release context loopHandle time key {
        context := { context with pressed := context.pressed.replace (key + scancodeOffset) 0 }
        loopHandle }
  | forwarded :
      context.repeatsKey (key + scancodeOffset) = false → key + scancodeOffset ∉ context.pressed →
      Release context loopHandle time key
        { context, loopHandle, requests := [.key time key .released] }

theorem InputContext.releasedOtherwise_release
    (ht : context.repeatsKey (key + scancodeOffset) = false) :
    Release context loopHandle time key (context.releasedOtherwise loopHandle time key) := by
  unfold InputContext.releasedOtherwise InputContext.releaseIfPressed
  by_cases hmem : key + scancodeOffset ∈ context.pressed
  · simp only [List.contains_iff_mem.mpr hmem, if_true]
    exact .kept ht hmem
  · have hcontains : context.pressed.contains (key + scancodeOffset) = false := by
      simpa using hmem
    simp only [hcontains, Bool.false_eq_true, if_false, List.replace_of_not_mem hmem]
    exact .forwarded ht hmem

theorem InputContext.releasedKey_release :
    Release context loopHandle time key (context.releasedKey loopHandle time key) := by
  unfold InputContext.releasedKey
  split
  · rename_i repeating ht
    split
    · rename_i hk
      exact .stopped ht hk
    · rename_i hk
      exact InputContext.releasedOtherwise_release
        (by simpa [InputContext.repeatsKey, ht] using hk)
  · rename_i ht
    exact InputContext.releasedOtherwise_release (by simp [InputContext.repeatsKey, ht])

/-! ## §4. Events of the grab, the input method and timers. -/

/-- **What an event of the keyboard grab does.** -/
inductive Grabs (xkb : Xkb κ σ) (backend : Backend ε) (seatIndex : SeatIndex)
    (context : InputContext κ σ) (loopHandle : TokenMap Timer) :
    GrabEvent → Handled κ σ → Prop
  | ignored {time key : UInt32} {keyState : KeyState} :
      context.xkbState = none →
      Grabs xkb backend seatIndex context loopHandle (.key time key keyState)
        { context, loopHandle }
  | press {time key : UInt32} {after : HandledKey κ σ} {handled : Handled κ σ} :
      context.handleKey xkb backend (key + scancodeOffset) = .ok after →
      Press xkb seatIndex context loopHandle time key after handled →
      Grabs xkb backend seatIndex context loopHandle (.key time key .pressed) handled
  | release {time key : UInt32} {handled : Handled κ σ} :
      Release context loopHandle time key handled →
      Grabs xkb backend seatIndex context loopHandle (.key time key .released) handled
  /-- The keymap, the modifiers and the speed of repetition are no more than kept. -/
  | noKey {event : GrabEvent} {handled : Handled κ σ} :
      (∀ time key keyState, event ≠ .key time key keyState) →
      handled.context = { context with
        xkbKeymap := handled.context.xkbKeymap, xkbState := handled.context.xkbState
        repeatRate := handled.context.repeatRate, repeatDelay := handled.context.repeatDelay } →
      handled.loopHandle = loopHandle →
      (∀ request ∈ handled.requests, request.isTyping = false) →
      Grabs xkb backend seatIndex context loopHandle event handled

theorem InputContext.keyboardGrabEvent_ok {event : GrabEvent}
    (h : context.keyboardGrabEvent xkb backend seatIndex loopHandle event = .ok handled) :
    Grabs xkb backend seatIndex context loopHandle event handled := by
  cases event with
  | key time key keyState =>
      unfold InputContext.keyboardGrabEvent at h
      simp only at h
      split at h
      · rename_i hnone
        cases h
        exact .ignored hnone
      · cases keyState with
        | pressed =>
            obtain ⟨after, hafter, hpress⟩ := InputContext.pressedKey_ok h
            exact .press hafter hpress
        | released =>
            cases h
            exact .release InputContext.releasedKey_release
  | modifiers depressed latched locked group =>
      unfold InputContext.keyboardGrabEvent at h
      simp only at h
      split at h
      · cases h
        exact .noKey (by simp) rfl rfl (by simp)
      · cases h
        exact .noKey (by simp) rfl rfl (by simp [Request.isTyping])
  | keymap format fd size =>
      unfold InputContext.keyboardGrabEvent InputContext.keymapEvent at h
      simp only at h
      split at h
      · cases h
        exact .noKey (by simp) rfl rfl (by simp [Request.isTyping])
      · split at h
        · cases h
        · cases h
          exact .noKey (by simp) rfl rfl (by simp [Request.isTyping])
        · cases h
          exact .noKey (by simp) rfl rfl (by simp [Request.isTyping])
  | repeatInfo rate delay =>
      cases h
      exact .noKey (by simp) rfl rfl (by simp)

theorem InputContext.pressedOtherwise_error {panic : Panic ε}
    (h : context.pressedOtherwise xkb backend seatIndex loopHandle time key = .error panic) :
    panic ≠ .removedContext := by
  unfold InputContext.pressedOtherwise at h
  simp only at h
  split at h
  · rename_i hhandle
    cases h
    exact InputContext.handleKey_error_ne hhandle
  · split at h
    · cases h
      simp
    · split at h
      · split at h
        · cases h
          simp
        · cases h
      · split at h <;> cases h

theorem InputContext.pressedWhileRepeating_error {repeating : RepeatTimer} {panic : Panic ε}
    (h : context.pressedWhileRepeating xkb backend loopHandle repeating time key = .error panic) :
    panic ≠ .removedContext := by
  unfold InputContext.pressedWhileRepeating at h
  simp only at h
  split at h
  · rename_i hhandle
    cases h
    exact InputContext.handleKey_error_ne hhandle
  · split at h
    · split at h
      · cases h
        simp
      · split at h
        · split at h
          · cases h
            simp
          · split at h
            · cases h
              simp
            · cases h
        · cases h
    · cases h
    · cases h

theorem InputContext.pressedKey_error {panic : Panic ε}
    (h : context.pressedKey xkb backend seatIndex loopHandle time key = .error panic) :
    panic ≠ .removedContext := by
  unfold InputContext.pressedKey at h
  split at h
  · split at h
    · exact InputContext.pressedWhileRepeating_error h
    · exact InputContext.pressedOtherwise_error h
  · exact InputContext.pressedOtherwise_error h

theorem InputContext.keyboardGrabEvent_error {event : GrabEvent} {panic : Panic ε}
    (h : context.keyboardGrabEvent xkb backend seatIndex loopHandle event = .error panic) :
    panic ≠ .removedContext := by
  cases event with
  | key time key keyState =>
      unfold InputContext.keyboardGrabEvent at h
      simp only at h
      split at h
      · cases h
      · cases keyState with
        | pressed => exact InputContext.pressedKey_error h
        | released => cases h
  | modifiers depressed latched locked group =>
      unfold InputContext.keyboardGrabEvent at h
      simp only at h
      split at h <;> cases h
  | keymap format fd size =>
      unfold InputContext.keyboardGrabEvent InputContext.keymapEvent at h
      simp only at h
      split at h
      · cases h
      · split at h <;> cases h
        simp
  | repeatInfo rate delay => cases h

/-- **An event of the input method** is about the activation of the seat, and types nothing. -/
theorem InputContext.inputMethodEvent_frame (context : InputContext κ σ)
    (event : InputMethodEvent) :
    (∃ keyboardGrab pendingActivate pendingDeactivate numDoneEvents pressed,
        (context.inputMethodEvent event).1 = { context with
          keyboardGrab, pendingActivate, pendingDeactivate, numDoneEvents, pressed }) ∧
      ∀ request ∈ (context.inputMethodEvent event).2, request.isTyping = false := by
  cases event with
  | done =>
      show (∃ keyboardGrab pendingActivate pendingDeactivate numDoneEvents pressed,
        context.done.1 = _) ∧ ∀ request ∈ context.done.2, _
      unfold InputContext.done
      cases context.keyboardGrab <;> cases context.pendingDeactivate <;>
        cases context.pendingActivate <;>
        exact ⟨⟨_, _, _, _, _, rfl⟩, by simp [Request.isTyping]⟩
  | _ => exact ⟨⟨_, _, _, _, _, rfl⟩, by simp [InputContext.inputMethodEvent]⟩

/-- A timer that fires repeats the key, and goes on unless the key is forwarded. -/
theorem InputContext.timerEvent_ok {token : Nat}
    (h : context.timerEvent xkb backend loopHandle token = .ok handled) :
    ∃ after, context.repeatKey xkb backend = .ok after ∧ handled = {
      context := after.context
      loopHandle := InputContext.afterTimeout loopHandle token after.action
      requests := after.requests } := by
  unfold InputContext.timerEvent at h
  split at h
  · cases h
  · cases h
    exact ⟨_, ‹_›, rfl⟩

/-! ## §5. Events of the frontend. -/

/-- The handlers of the events that are about one seat. -/
inductive Handles (xkb : Xkb κ σ) (backend : Backend ε) (loopHandle : TokenMap Timer)
    (seatIndex : SeatIndex) (context : InputContext κ σ) : Event → Handled κ σ → Prop
  | keyboardGrab {event : GrabEvent} {handled : Handled κ σ} :
      context.keyboardGrabEvent xkb backend seatIndex loopHandle event = .ok handled →
      Handles xkb backend loopHandle seatIndex context (.keyboardGrab seatIndex event) handled
  | inputMethod {event : InputMethodEvent} :
      Handles xkb backend loopHandle seatIndex context (.inputMethod seatIndex event)
        { context := (context.inputMethodEvent event).1, loopHandle
          requests := (context.inputMethodEvent event).2 }
  | timer {token : Nat} {timer : Timer} {handled : Handled κ σ} :
      loopHandle.find token = some timer → timer.seatIndex = seatIndex →
      context.timerEvent xkb backend loopHandle token = .ok handled →
      Handles xkb backend loopHandle seatIndex context (.timer token) handled

namespace State

variable {state state' : State κ σ} {event : Event} {requests : List (SeatIndex × Request)}

theorem withContext_ok {handler : InputContext κ σ → Except (Panic ε) (Handled κ σ)}
    (h : state.withContext seatIndex handler = .ok (state', requests)) :
    ∃ context handled, state.context? seatIndex = some context ∧ handler context = .ok handled ∧
      state' = state.put seatIndex handled ∧ requests = handled.requests.map (seatIndex, ·) := by
  unfold withContext getContext at h
  split at h
  · cases h
  · rename_i context hcontext
    split at hcontext
    · cases hcontext
      split at h
      · cases h
      · rename_i hsome _ handled hhandled
        cases h
        exact ⟨_, handled, hsome, hhandled, rfl, rfl⟩
    · cases hcontext

theorem withContext_error {handler : InputContext κ σ → Except (Panic ε) (Handled κ σ)}
    {panic : Panic ε} (h : state.withContext seatIndex handler = .error panic) :
    state.context? seatIndex = none ∧ panic = .removedContext ∨
      ∃ context, state.context? seatIndex = some context ∧ handler context = .error panic := by
  unfold withContext getContext at h
  cases hcontext : state.context? seatIndex with
  | none =>
      rw [hcontext] at h
      cases h
      exact Or.inl ⟨rfl, rfl⟩
  | some context =>
      rw [hcontext] at h
      simp only at h
      split at h
      · rename_i hhandler
        cases h
        exact Or.inr ⟨context, rfl, hhandler⟩
      · cases h

/-- A timer that ends the program was registered, and its context was removed, or else the key
could not be repeated. -/
theorem dispatch_timer_error {token : Nat} {panic : Panic ε}
    (h : state.dispatch xkb backend (.timer token) = .error panic) :
    ∃ timer, state.loopHandle.find token = some timer ∧
      (state.context? timer.seatIndex = none ∧ panic = .removedContext ∨
        ∃ context, state.context? timer.seatIndex = some context ∧
          context.repeatKey xkb backend = .error panic) := by
  rw [dispatch] at h
  split at h
  · cases h
  · rename_i timer hfind
    refine ⟨timer, hfind, ?_⟩
    rcases withContext_error h with hnone | ⟨context, hcontext, hhandler⟩
    · exact Or.inl hnone
    · right
      refine ⟨context, hcontext, ?_⟩
      unfold InputContext.timerEvent at hhandler
      split at hhandler
      · cases hhandler
        assumption
      · cases hhandler

/-- **What one event does**: nothing, or something to the contexts and the seats only, or what
the handler of one seat does. -/
theorem dispatch_ok (h : state.dispatch xkb backend event = .ok (state', requests)) :
    (∃ registryEvent, event = .registry registryEvent ∧
        state' = state.registryEvent registryEvent ∧ requests = [])
      ∨ (∃ token, event = .timer token ∧ state.loopHandle.find token = none ∧
        state' = state ∧ requests = [])
      ∨ ∃ seatIndex context handled, state.context? seatIndex = some context ∧
        Handles xkb backend state.loopHandle seatIndex context event handled ∧
        state' = state.put seatIndex handled ∧ requests = handled.requests.map (seatIndex, ·) := by
  cases event with
  | registry event =>
      cases h
      exact Or.inl ⟨event, rfl, rfl, rfl⟩
  | keyboardGrab seatIndex event =>
      obtain ⟨context, handled, hcontext, hhandled, hstate, hrequests⟩ := withContext_ok h
      exact Or.inr (Or.inr ⟨seatIndex, context, handled, hcontext, .keyboardGrab hhandled,
        hstate, hrequests⟩)
  | unknown seatIndex event => cases event <;> cases h
  | inputMethod seatIndex event =>
      rw [dispatch] at h
      obtain ⟨context, handled, hcontext, hhandled, hstate, hrequests⟩ := withContext_ok h
      cases hhandled
      exact Or.inr (Or.inr ⟨seatIndex, context, _, hcontext, .inputMethod, hstate, hrequests⟩)
  | timer token =>
      unfold dispatch at h
      simp only at h
      split at h
      · rename_i hfind
        cases h
        exact Or.inr (Or.inl ⟨token, rfl, hfind, rfl, rfl⟩)
      · rename_i timer hfind
        obtain ⟨context, handled, hcontext, hhandled, hstate, hrequests⟩ := withContext_ok h
        exact Or.inr (Or.inr ⟨timer.seatIndex, context, handled, hcontext,
          .timer hfind rfl hhandled, hstate, hrequests⟩)

/-! ## §6. Other seats. -/

theorem context?_put {context : InputContext κ σ} (h : state.context? seatIndex = some context)
    (handled : Handled κ σ) (other : SeatIndex) :
    (state.put seatIndex handled).context? other
      = if other = seatIndex then some handled.context else state.context? other := by
  unfold context? at h
  have hlt : seatIndex < state.contexts.length := by
    by_contra hge
    rw [List.getElem?_eq_none (Nat.le_of_not_lt hge)] at h
    cases h
  unfold context? put
  simp only [List.getElem?_set]
  by_cases heq : seatIndex = other
  · subst heq
    simp [hlt]
  · rw [if_neg heq, if_neg (Ne.symm heq)]

theorem context?_globalRemove (id : UInt32) :
    (state.registryEvent (.globalRemove id)).context? seatIndex
      = (state.context? seatIndex).filter (·.seatId ≠ id) := by
  unfold context? registryEvent
  simp only [List.getElem?_map]
  cases state.contexts[seatIndex]? with
  | none => rfl
  | some slot => rfl

end State

/-! ## §7. Activation. -/

/-- What only the registry and the input method decide. -/
structure SameActivation (context context' : InputContext κ σ) : Prop where
  seatId : context'.seatId = context.seatId
  keyboardGrab : context'.keyboardGrab = context.keyboardGrab
  pendingActivate : context'.pendingActivate = context.pendingActivate
  pendingDeactivate : context'.pendingDeactivate = context.pendingDeactivate

theorem SameActivation.of_handleKey {key : Keycode} {after : HandledKey κ σ}
    (h : context.handleKey xkb backend key = .ok after) :
    SameActivation context after.context := by
  obtain ⟨_, _, _, hafter, _⟩ := InputContext.handleKey_ok h
  rw [hafter]
  exact ⟨rfl, rfl, rfl, rfl⟩

/-- **Keys, keymaps and timers do not activate a seat.** -/
theorem Handles.sameActivation {event : Event}
    (h : Handles xkb backend loopHandle seatIndex context event handled)
    (hevent : ∀ inputMethodEvent, event ≠ .inputMethod seatIndex inputMethodEvent) :
    SameActivation context handled.context := by
  cases h with
  | keyboardGrab h =>
      cases InputContext.keyboardGrabEvent_ok h with
      | ignored => exact ⟨rfl, rfl, rfl, rfl⟩
      | press hafter hpress =>
          obtain ⟨hseat, hgrab, hactivate, hdeactivate⟩ := SameActivation.of_handleKey hafter
          cases hpress <;> exact ⟨hseat, hgrab, hactivate, hdeactivate⟩
      | release hrelease => cases hrelease <;> exact ⟨rfl, rfl, rfl, rfl⟩
      | noKey _ hcontext =>
          rw [hcontext]
          exact ⟨rfl, rfl, rfl, rfl⟩
  | inputMethod => exact absurd rfl (hevent _)
  | timer _ _ h =>
      obtain ⟨after, hrepeat, rfl⟩ := InputContext.timerEvent_ok h
      obtain ⟨_, repeating, handled, _, _, _, hhandle, hafter⟩ := InputContext.repeatKey_ok hrepeat
      obtain ⟨hseat, hgrab, hactivate, hdeactivate⟩ := SameActivation.of_handleKey hhandle
      rcases hafter with ⟨_, rfl⟩ | ⟨_, rfl⟩
      · exact ⟨hseat, hgrab, hactivate, hdeactivate⟩
      · exact ⟨hseat, hgrab, hactivate, hdeactivate⟩

/-- The requests for one seat. -/
def requestsOf (seatIndex : SeatIndex) (requests : List (SeatIndex × Request)) : List Request :=
  (requests.filter fun request => request.1 = seatIndex).map (·.2)

@[simp] theorem requestsOf_append (requests requests' : List (SeatIndex × Request)) :
    requestsOf seatIndex (requests ++ requests')
      = requestsOf seatIndex requests ++ requestsOf seatIndex requests' := by
  simp [requestsOf]

theorem requestsOf_map (other : SeatIndex) (requests : List Request) :
    requestsOf seatIndex (requests.map (other, ·)) = if other = seatIndex then requests else [] := by
  unfold requestsOf
  by_cases heq : other = seatIndex
  · simp [List.filter_map, Function.comp_def, heq]
  · simp [List.filter_map, Function.comp_def, heq]

theorem Event.seat?_of_key? {event : Event} {k : SeatIndex × UInt32 × KeyState}
    (hk : k ∈ event.key?) : event.seat? = some k.1 := by
  cases event with
  | keyboardGrab seatIndex event =>
      cases event with
      | key => cases hk; rfl
      | _ => cases hk
  | _ => cases hk

theorem Handles.seat?_eq {event : Event} {other : SeatIndex}
    (h : Handles xkb backend loopHandle seatIndex context event handled)
    (hseat : event.seat? = some other) : other = seatIndex := by
  cases h with
  | keyboardGrab => cases hseat; rfl
  | inputMethod => cases hseat; rfl
  | timer => cases hseat

/-- **One seat in a step**: either the event is not for it, and nothing happens to it except that
it may be removed, or its context handles the event. -/
theorem State.dispatch_seat {state state' : State κ σ} {event : Event}
    {requests : List (SeatIndex × Request)}
    (h : state.dispatch xkb backend event = .ok (state', requests)) (seatIndex : SeatIndex) :
    ((∀ context, state'.context? seatIndex = some context →
          state.context? seatIndex = some context) ∧
        requestsOf seatIndex requests = [] ∧ event.seat? ≠ some seatIndex)
      ∨ ∃ context handled, state.context? seatIndex = some context ∧
        Handles xkb backend state.loopHandle seatIndex context event handled ∧
        state'.context? seatIndex = some handled.context ∧
        requestsOf seatIndex requests = handled.requests := by
  rcases State.dispatch_ok h with ⟨registryEvent, rfl, rfl, rfl⟩ | ⟨token, rfl, _, rfl, rfl⟩ |
    ⟨other, context, handled, hcontext, hhandles, rfl, rfl⟩
  · left
    refine ⟨?_, rfl, by simp [Event.seat?]⟩
    intro context hcontext
    cases registryEvent with
    | seat id => exact hcontext
    | globalRemove id =>
        rw [State.context?_globalRemove] at hcontext
        exact Option.eq_some_of_filter_eq_some hcontext
  · exact Or.inl ⟨fun _ h => h, rfl, by simp [Event.seat?]⟩
  · rw [requestsOf_map]
    by_cases heq : other = seatIndex
    · subst heq
      rw [if_pos rfl]
      exact Or.inr ⟨context, handled, hcontext, hhandles,
        by rw [State.context?_put hcontext, if_pos rfl], rfl⟩
    · rw [if_neg heq]
      refine Or.inl ⟨?_, rfl, fun hseat => heq (hhandles.seat?_eq hseat).symm⟩
      intro context' hcontext'
      rwa [State.context?_put hcontext, if_neg (Ne.symm heq)] at hcontext'

/-- A context that was set up is a new one. -/
theorem State.context?_init {seatIds : List UInt32}
    (h : (State.init seatIds).context? seatIndex = some context) :
    ∃ seatId, seatIds[seatIndex]? = some seatId ∧ context = { seatId } := by
  simp only [State.context?, State.init, List.getElem?_map] at h
  cases hid : seatIds[seatIndex]? with
  | none => rw [hid] at h; cases h
  | some seatId =>
      rw [hid] at h
      cases h
      exact ⟨seatId, rfl, rfl⟩

theorem State.repeatTimer_init {seatIds : List UInt32}
    (h : (State.init seatIds).context? seatIndex = some context) :
    context.repeatTimer = none := by
  obtain ⟨seatId, _, rfl⟩ := State.context?_init h
  rfl

/-! ## §8. A keyboard. -/

/-- A keyboard with `A` (code 30), `ß` (code 12, `?` with Shift), Shift (code 42) and Return
(code 28), whose state is the mask of the modifiers that are held. -/
def smallKeyboard : Xkb Unit UInt32 where
  newFromFd _ _ := .ok (some ())
  keyRepeats _ keycode := keycode ≠ 50
  newState _ := 0
  keyGetOneSym mods keycode :=
    if keycode = 38 then 0x61
    else if keycode = 20 then if mods = 1 then 0x3f else 0xdf
    else if keycode = 36 then 0xff0d
    else 0xffe1
  keyGetUtf32 mods keycode :=
    if keycode = 38 then 0x61
    else if keycode = 20 then if mods = 1 then 0x3f else 0xdf
    else if keycode = 36 then 0x0d
    else 0
  updateMask _ depressed _ _ _ _ _ := depressed

/-- A backend without matches. -/
def emptyBackend : Backend Unit where
  checkTrigger _ := .ok none
  fuzzyMatch _ := []

/-- What a seat is told before it is used. -/
def setUp : List Event :=
  [.inputMethod 0 .activate, .inputMethod 0 .done, .keyboardGrab 0 (.keymap .xkbV1 [] 0),
    .keyboardGrab 0 (.repeatInfo 25 600)]

end Shinran.Wayland
