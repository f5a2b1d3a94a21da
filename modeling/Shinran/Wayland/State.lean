/-
  Shinran.Wayland.State
  ─────────────────────
  **THE WAYLAND FRONTEND** (`shinran_wayland::main`).

  The event loop hands events to the frontend one at a time: events of the
  registry, events of a seat's keyboard grab and of its input method, which
  carry the key of the seat's context, and the firings of the timers that are
  registered with the loop.  Every seat has its context from the start, as
  `init_protocols` makes them.
-/
import Shinran.Wayland.InputContext
import Shinran.TokenMap

namespace Shinran.Wayland

/-! ## §1. State. -/

/-- The key of a context in the slot map. -/
abbrev SeatIndex := Nat

/-- A timer of the event loop: whom it calls, and what it was last set to. -/
structure Timer where
  seatIndex : SeatIndex
  duration : UInt64
  deriving DecidableEq

/-- `State`; a slot of the slot map is emptied when its context is removed. -/
structure State (κ σ : Type) where
  running : Bool := true
  seats : List UInt32
  contexts : List (Option (InputContext κ σ))
  loopHandle : TokenMap Timer := {}
  deriving DecidableEq

/-! ## §2. Events. -/

inductive RegistryEvent where
  /-- `Global` of the interface `wl_seat` -/
  | seat (id : UInt32)
  | globalRemove (id : UInt32)
  deriving DecidableEq, Repr

/-- `zwp_input_method_keyboard_grab_v2::Event`. -/
inductive GrabEvent where
  | key (time key : UInt32) (state : KeyState)
  | modifiers (depressed latched locked group : UInt32)
  | keymap (format : KeymapFormat) (fd : Fd) (size : UInt32)
  | repeatInfo (rate delay : Int32)
  deriving DecidableEq, Repr

/-- A `Key` or a `Keymap` event with a `WEnum::Unknown` for its state or its format. -/
inductive UnknownEvent where
  | keyState (raw : UInt32)
  | keymapFormat (raw : UInt32)
  deriving DecidableEq, Repr

/-- `zwp_input_method_v2::Event`. -/
inductive InputMethodEvent where
  | activate
  | deactivate
  | surroundingText
  | textChangeCause
  | contentType
  | done
  | unavailable
  deriving DecidableEq, Repr

inductive Event where
  | registry (event : RegistryEvent)
  | keyboardGrab (seatIndex : SeatIndex) (event : GrabEvent)
  | unknown (seatIndex : SeatIndex) (event : UnknownEvent)
  | inputMethod (seatIndex : SeatIndex) (event : InputMethodEvent)
  | timer (token : Nat)
  deriving DecidableEq, Repr

/-- The seat and the key of a key event, and what became of the key. -/
def Event.key? : Event → Option (SeatIndex × UInt32 × KeyState)
  | .keyboardGrab seatIndex (.key _ key keyState) => some (seatIndex, key, keyState)
  | _ => none

/-- The seat and the key of an event that presses one. -/
def Event.press? : Event → Option (SeatIndex × UInt32)
  | .keyboardGrab seatIndex (.key _ key .pressed) => some (seatIndex, key)
  | _ => none

/-- The seat whose context an event is for. -/
def Event.seat? : Event → Option SeatIndex
  | .keyboardGrab seatIndex _ | .inputMethod seatIndex _ => some seatIndex
  | _ => none

/-- What an input method is told, and that of which seat. -/
def Event.inputMethod? : Event → Option (SeatIndex × InputMethodEvent)
  | .inputMethod seatIndex event => some (seatIndex, event)
  | _ => none

/-- The timer that fires. -/
def Event.token? : Event → Option Nat
  | .timer token => some token
  | _ => none

/-- The global object that an event takes away. -/
def Event.removed? : Event → Option UInt32
  | .registry (.globalRemove id) => some id
  | _ => none

/-! ## §3. The handlers of a context. -/

/-- What a handler leaves behind of a context and of the event loop. -/
structure Handled (κ σ : Type) where
  context : InputContext κ σ
  loopHandle : TokenMap Timer
  requests : List Request := []
  shutDown : Bool := false
  deriving DecidableEq

variable {κ σ ε : Type}

namespace InputContext

/-- `SCANCODE_OFFSET`. -/
def scancodeOffset : UInt32 := 8

/-- The milliseconds of an event, as `Duration::from_millis(… as u64)`. -/
def fromMillis (millis : Int32) : UInt64 := millis.toInt64.toUInt64

/-- Whether this key is being repeated, and whether another one is. -/
def repeatsKey (context : InputContext κ σ) (keycode : Keycode) : Bool :=
  context.repeatTimer.any fun repeating => repeating.keycode = keycode

def repeatsOther (context : InputContext κ σ) (keycode : Keycode) : Bool :=
  context.repeatTimer.any fun repeating => repeating.keycode ≠ keycode

/-- The first check: a key is pressed while another one is being repeated. -/
def pressedWhileRepeating (xkb : Xkb κ σ) (backend : Backend ε) (context : InputContext κ σ)
    (loopHandle : TokenMap Timer) (repeating : RepeatTimer) (time key : UInt32) :
    Except (Panic ε) (Handled κ σ) :=
  let keycode := key + scancodeOffset
  match context.handleKey xkb backend keycode with
  | .error panic => .error panic
  | .ok after =>
    match after.handled with
    | some true =>
      let context := after.context.markAsPressed keycode
      match context.xkbKeymap with
      | none => .error .noKeymap
      | some keymap =>
        if xkb.keyRepeats keymap keycode then
          match context.repeatDelay with
          | none => .error .noRepeatDelay
          | some repeatDelay =>
            -- the timer that runs already repeats the new key from now on
            match loopHandle.find repeating.registration with
            | none => .error .updateTimer
            | some _ =>
              .ok {
                context := { context with
                  repeatTimer := some { repeating with
                    keycode, timestamp := time + repeatDelay.toUInt32 } }
                loopHandle := loopHandle.update repeating.registration
                  fun timer => { timer with duration := repeatDelay }
                requests := after.requests }
        else
          -- the timer stays registered
          .ok { context := { context with repeatTimer := none }, loopHandle
                requests := after.requests }
    | some false =>
      .ok { context := { after.context with repeatTimer := none }
            loopHandle := loopHandle.remove repeating.registration
            requests := after.requests ++ [.key time key .pressed] }
    | none => .ok { after with loopHandle, shutDown := true }

/-- The third check and what comes behind it, for a key that is pressed. -/
def pressedOtherwise (xkb : Xkb κ σ) (backend : Backend ε) (seatIndex : SeatIndex)
    (context : InputContext κ σ) (loopHandle : TokenMap Timer) (time key : UInt32) :
    Except (Panic ε) (Handled κ σ) :=
  let keycode := key + scancodeOffset
  match context.handleKey xkb backend keycode with
  | .error panic => .error panic
  | .ok after =>
    let shutDown := after.handled.isNone
    let handled := after.handled ≠ some false
    match after.context.xkbKeymap with
    | none => .error .noKeymap
    | some keymap =>
      if xkb.keyRepeats keymap keycode ∧ handled then
        match after.context.repeatDelay with
        | none => .error .noRepeatDelay
        | some repeatDelay =>
          .ok {
            context := { after.context.markAsPressed keycode with
              repeatTimer := some {
                keycode, timestamp := time + repeatDelay.toUInt32
                registration := loopHandle.next } }
            loopHandle := loopHandle.register ⟨seatIndex, repeatDelay⟩
            requests := after.requests, shutDown }
      else if handled then
        .ok { context := after.context.markAsPressed keycode, loopHandle
              requests := after.requests, shutDown }
      else
        .ok { context := after.context, loopHandle
              requests := after.requests ++ [.key time key .pressed], shutDown }

/-- A key is pressed. -/
def pressedKey (xkb : Xkb κ σ) (backend : Backend ε) (seatIndex : SeatIndex)
    (context : InputContext κ σ) (loopHandle : TokenMap Timer) (time key : UInt32) :
    Except (Panic ε) (Handled κ σ) :=
  match context.repeatTimer with
  | some repeating =>
    if repeating.keycode ≠ key + scancodeOffset then
      context.pressedWhileRepeating xkb backend loopHandle repeating time key
    else context.pressedOtherwise xkb backend seatIndex loopHandle time key
  | none => context.pressedOtherwise xkb backend seatIndex loopHandle time key

/-- The sixth check, for a key that is released. -/
def releasedOtherwise (context : InputContext κ σ) (loopHandle : TokenMap Timer)
    (time key : UInt32) : Handled κ σ :=
  let released := context.releaseIfPressed (key + scancodeOffset)
  { context := released.1, loopHandle
    requests := if released.2 then [] else [.key time key .released] }

/-- A key is released; the second check is whether it is the one being repeated. -/
def releasedKey (context : InputContext κ σ) (loopHandle : TokenMap Timer)
    (time key : UInt32) : Handled κ σ :=
  match context.repeatTimer with
  | some repeating =>
    if repeating.keycode = key + scancodeOffset then
      { context :=
          { (context.releaseIfPressed (key + scancodeOffset)).1 with repeatTimer := none }
        loopHandle := loopHandle.remove repeating.registration }
    else context.releasedOtherwise loopHandle time key
  | none => context.releasedOtherwise loopHandle time key

/-- The event `Keymap`. -/
def keymapEvent (xkb : Xkb κ σ) (context : InputContext κ σ) (loopHandle : TokenMap Timer)
    (format : KeymapFormat) (fd : Fd) (size : UInt32) : Except (Panic ε) (Handled κ σ) :=
  let requests := [Request.keymap format fd size]
  match format with
  | .noKeymap => .ok { context, loopHandle, requests }
  | .xkbV1 =>
    match xkb.newFromFd fd size with
    | .error _ => .error .keymapFromFd
    -- the keyboard state of an earlier keymap is kept
    | .ok none => .ok { context := { context with xkbKeymap := none }, loopHandle, requests }
    | .ok (some keymap) =>
      .ok { context := { context with
              xkbKeymap := some keymap, xkbState := some (xkb.newState keymap) }
            loopHandle, requests }

/-- `Dispatch<ZwpInputMethodKeyboardGrabV2>::event`, for the context of the seat. -/
def keyboardGrabEvent (xkb : Xkb κ σ) (backend : Backend ε) (seatIndex : SeatIndex)
    (context : InputContext κ σ) (loopHandle : TokenMap Timer) :
    GrabEvent → Except (Panic ε) (Handled κ σ)
  | .key time key keyState =>
    match context.xkbState with
    | none => .ok { context, loopHandle }
    | some _ =>
      match keyState with
      | .pressed => context.pressedKey xkb backend seatIndex loopHandle time key
      | .released => .ok (context.releasedKey loopHandle time key)
  | .modifiers depressed latched locked group =>
    match context.xkbState with
    | none => .ok { context, loopHandle }
    | some xkbState =>
      .ok { context := { context with
              xkbState := some (xkb.updateMask xkbState depressed latched locked 0 0 group) }
            loopHandle, requests := [.modifiers depressed latched locked group] }
  | .keymap format fd size => context.keymapEvent xkb loopHandle format fd size
  | .repeatInfo rate delay =>
    .ok { context := { context with
            repeatRate := some (fromMillis rate), repeatDelay := some (fromMillis delay) }
          loopHandle }

/-- The event `Done`. -/
def done (context : InputContext κ σ) : InputContext κ σ × List Request :=
  let context := { context with numDoneEvents := context.numDoneEvents + 1 }
  let (context, requests) :=
    if context.keyboardGrab then
      if context.pendingDeactivate then
        ({ context with keyboardGrab := false, pressed := List.replicate 64 0 }, [.release])
      else (context, [])
    else if context.pendingActivate then
      ({ context with keyboardGrab := true }, [.grabKeyboard])
    else (context, [])
  ({ context with pendingActivate := false, pendingDeactivate := false }, requests)

/-- `Dispatch<ZwpInputMethodV2>::event`, for the context of the seat. -/
def inputMethodEvent (context : InputContext κ σ) :
    InputMethodEvent → InputContext κ σ × List Request
  | .activate => ({ context with pendingActivate := true }, [])
  | .deactivate => ({ context with pendingDeactivate := true }, [])
  | .done => context.done
  | .surroundingText | .textChangeCause | .contentType | .unavailable => (context, [])

/-- What the event loop does about a timer that has fired. -/
def afterTimeout (loopHandle : TokenMap Timer) (token : Nat) : TimeoutAction → TokenMap Timer
  | .drop => loopHandle.remove token
  | .toDuration duration => loopHandle.update token fun timer => { timer with duration }

/-- The callback of a timer, with what the event loop does afterwards. -/
def timerEvent (xkb : Xkb κ σ) (backend : Backend ε) (context : InputContext κ σ)
    (loopHandle : TokenMap Timer) (token : Nat) : Except (Panic ε) (Handled κ σ) :=
  match context.repeatKey xkb backend with
  | .error panic => .error panic
  | .ok after =>
    .ok { context := after.context, requests := after.requests
          loopHandle := afterTimeout loopHandle token after.action }

end InputContext

/-! ## §4. The handlers of the frontend. -/

namespace State

/-- The state that `main` sets up for the seats it is told of. -/
def init (seats : List UInt32) : State κ σ where
  seats
  contexts := seats.map fun seatId => some { seatId }

/-- The context under a key, if it is still there. -/
def context? (state : State κ σ) (seatIndex : SeatIndex) : Option (InputContext κ σ) :=
  (state.contexts[seatIndex]?).join

/-- `get_context`. -/
def getContext (state : State κ σ) (seatIndex : SeatIndex) :
    Except (Panic ε) (InputContext κ σ) :=
  match state.context? seatIndex with
  | some context => .ok context
  | none => .error .removedContext

/-- `Vec::swap_remove`. -/
def swapRemove (seats : List UInt32) (index : Nat) : List UInt32 :=
  match seats.getLast? with
  | some last => (seats.set index last).dropLast
  | none => seats

/-- `Dispatch<WlRegistry>::event`, as far as it is about seats. -/
def registryEvent (state : State κ σ) : RegistryEvent → State κ σ
  | .seat id => { state with seats := state.seats ++ [id] }
  | .globalRemove id =>
    { state with
      seats :=
        match state.seats.idxOf? id with
        | some index => swapRemove state.seats index
        | none => state.seats
      contexts := state.contexts.map (·.filter (·.seatId ≠ id)) }

/-- What a handler leaves behind of the whole state. -/
def put (state : State κ σ) (seatIndex : SeatIndex) (handled : Handled κ σ) : State κ σ :=
  { state with
    running := state.running && !handled.shutDown
    contexts := state.contexts.set seatIndex (some handled.context)
    loopHandle := handled.loopHandle }

/-- Run a handler on the context of a seat; what it requests is requested for that seat. -/
def withContext (state : State κ σ) (seatIndex : SeatIndex)
    (handler : InputContext κ σ → Except (Panic ε) (Handled κ σ)) :
    Except (Panic ε) (State κ σ × List (SeatIndex × Request)) :=
  match state.getContext seatIndex with
  | .error panic => .error panic
  | .ok context =>
    match handler context with
    | .error panic => .error panic
    | .ok handled =>
      .ok (state.put seatIndex handled, handled.requests.map (seatIndex, ·))

/-- One event. -/
def dispatch (xkb : Xkb κ σ) (backend : Backend ε) (state : State κ σ) :
    Event → Except (Panic ε) (State κ σ × List (SeatIndex × Request))
  | .registry event => .ok (state.registryEvent event, [])
  | .keyboardGrab seatIndex event =>
    state.withContext seatIndex fun context =>
      context.keyboardGrabEvent xkb backend seatIndex state.loopHandle event
  -- these end the program before a context is looked up
  | .unknown _ (.keyState _) => .error .invalidKeyState
  | .unknown _ (.keymapFormat _) => .error .unknownEvent
  | .inputMethod seatIndex event =>
    state.withContext seatIndex fun context =>
      .ok { context := (context.inputMethodEvent event).1, loopHandle := state.loopHandle
            requests := (context.inputMethodEvent event).2 }
  | .timer token =>
    match state.loopHandle.find token with
    -- a timer that is not registered does not fire
    | none => .ok (state, [])
    | some timer =>
      state.withContext timer.seatIndex fun context =>
        context.timerEvent xkb backend state.loopHandle token

end State

end Shinran.Wayland
