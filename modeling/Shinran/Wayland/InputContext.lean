/-
  Shinran.Wayland.InputContext
  ────────────────────────────
  **THE INPUT CONTEXT OF A SEAT** (`shinran_wayland::input_context`).

  The context keeps what was typed so far, which keys it has swallowed the press
  of, and the key that is being repeated.  What its methods ask of the
  compositor is listed in the order in which it is sent.  Arithmetic wraps
  around.
-/
import Shinran.Ibus.Engine

namespace Shinran.Wayland

/-! ## §1. Keys. -/

/-- `xkb::Keycode`, whose default is 0. -/
abbrev Keycode := UInt32

inductive KeyState where
  | released
  | pressed
  deriving DecidableEq, Repr

/-- The keysyms on which the context acts, and all others. -/
inductive Keysym where
  | escape
  | return_
  | kpSpace
  | space
  | other
  deriving DecidableEq, Repr

/-- `Keysym::new`, as far as the context tells keysyms apart. -/
def Keysym.new (keysym : UInt32) : Keysym :=
  if keysym = 0xff1b then .escape
  else if keysym = 0xff0d then .return_
  else if keysym = 0xff80 then .kpSpace
  else if keysym = 0x20 then .space
  else .other

/-- A file descriptor, by what can be read from it. -/
abbrev Fd := List UInt8

/-- What is used of `xkbcommon`, with keymaps `κ` and keyboard states `σ`. -/
structure Xkb (κ σ : Type) where
  newFromFd : Fd → (size : UInt32) → Except Unit (Option κ)
  keyRepeats : κ → Keycode → Bool
  newState : κ → σ
  keyGetOneSym : σ → Keycode → UInt32
  keyGetUtf32 : σ → Keycode → UInt32
  updateMask : σ → (depressedMods latchedMods lockedMods : UInt32) →
    (depressedLayout latchedLayout lockedLayout : UInt32) → σ

/-! ## §2. Requests, and what ends the program. -/

inductive KeymapFormat where
  | noKeymap
  | xkbV1
  deriving DecidableEq, Repr

inductive Request where
  /-- `zwp_input_method_v2` -/
  | setPreeditString (text : String) (cursorBegin cursorEnd : Int32)
  | commitString (text : String)
  | commit (serial : UInt32)
  | grabKeyboard
  /-- `zwp_input_method_keyboard_grab_v2` -/
  | release
  /-- `zwp_virtual_keyboard_v1` -/
  | key (time key : UInt32) (state : KeyState)
  | modifiers (depressed latched locked group : UInt32)
  | keymap (format : KeymapFormat) (fd : Fd) (size : UInt32)
  deriving DecidableEq, Repr

inductive Panic (ε : Type) where
  /-- The slot map is indexed with a key that it does not hold. -/
  | removedContext
  | invalidKeyState
  | unknownEvent
  | keymapFromFd
  | updateTimer
  /-- `expect("Repeat rate should have been set.")` -/
  | noRepeatRate
  /-- `expect("Repeat timer should have been set.")` -/
  | noRepeatTimer
  | noRepeatDelay
  | noKeymap
  | noState
  | divisionByZero
  | checkTrigger (error : ε)
  deriving DecidableEq

/-! ## §3. The context. -/

/-- `RepeatTimer`; the timer itself is the one that the event loop holds under the token. -/
structure RepeatTimer where
  keycode : Keycode
  timestamp : UInt32
  registration : Nat
  deriving DecidableEq, Repr

structure InputContext (κ σ : Type) where
  seatId : UInt32
  keyboardGrab : Bool := false
  xkbKeymap : Option κ := none
  xkbState : Option σ := none
  pendingActivate : Bool := false
  pendingDeactivate : Bool := false
  numDoneEvents : UInt32 := 0
  /-- in milliseconds -/
  repeatRate : Option UInt64 := none
  repeatDelay : Option UInt64 := none
  pressed : List Keycode := List.replicate 64 0
  repeatTimer : Option RepeatTimer := none
  buffer : Option String := none
  deriving DecidableEq

/-- What `handle_key` leaves behind. -/
structure HandledKey (κ σ : Type) where
  context : InputContext κ σ
  requests : List Request
  /-- `none` if the program should wind down -/
  handled : Option Bool
  deriving DecidableEq

inductive TimeoutAction where
  | drop
  | toDuration (duration : UInt64)
  deriving DecidableEq, Repr

/-- What `repeat_key` leaves behind. -/
structure RepeatedKey (κ σ : Type) where
  context : InputContext κ σ
  requests : List Request
  action : TimeoutAction
  deriving DecidableEq

variable {κ σ ε : Type}

/-- The ASCII character that a key stands for; a key without a character has the code 0. -/
def typedCharacter (xkb : Xkb κ σ) (xkbState : σ) (key : Keycode) : Option Char :=
  let code := (xkb.keyGetUtf32 xkbState key).toNat
  if code ≠ 0 ∧ code < 128 then some (Char.ofNat code) else none

/-- The outcome of `handle_key`, which neither the buffer nor the backend has a say in. -/
def classify (xkb : Xkb κ σ) (xkbState : σ) (key : Keycode) : Option Bool :=
  match Keysym.new (xkb.keyGetOneSym xkbState key) with
  | .escape | .return_ => none
  | .kpSpace | .space => some false
  | .other => some (typedCharacter xkb xkbState key).isSome

namespace InputContext

/-- `append`. -/
def append (context : InputContext κ σ) (ch : Char) : InputContext κ σ :=
  { context with
    buffer := some <|
      match context.buffer with
      | some preeditStr => preeditStr.push ch
      | none => String.singleton ch }

/-- `mark_as_pressed`: the key takes the first slot that is empty, if there is one. -/
def markAsPressed (context : InputContext κ σ) (keycode : Keycode) : InputContext κ σ :=
  { context with pressed := context.pressed.replace 0 keycode }

/-- `release_if_pressed` empties the first slot of the key. -/
def releaseIfPressed (context : InputContext κ σ) (keycode : Keycode) :
    InputContext κ σ × Bool :=
  ({ context with pressed := context.pressed.replace keycode 0 },
    context.pressed.contains keycode)

/-- `composing_update`. -/
def composingUpdate (context : InputContext κ σ) (text : String) : List Request :=
  let cursorEnd := Int32.ofNat text.toList.length
  [.setPreeditString text cursorEnd cursorEnd, .commit context.numDoneEvents]

/-- `composing_commit`. -/
def composingCommit (context : InputContext κ σ) (output : String) : List Request :=
  [.commitString output, .commit context.numDoneEvents]

/-- The end of `handle_key`. -/
def showBuffer (context : InputContext κ σ) : List Request :=
  match context.buffer with
  | some text => context.composingUpdate text
  | none => []

/-- `handle_key`. -/
def handleKey (xkb : Xkb κ σ) (backend : Backend ε) (context : InputContext κ σ)
    (xkbKey : Keycode) : Except (Panic ε) (HandledKey κ σ) :=
  match context.xkbState with
  | none => .error .noState
  | some xkbState =>
    match Keysym.new (xkb.keyGetOneSym xkbState xkbKey) with
    | .escape => .ok ⟨context, context.composingUpdate "", none⟩
    | .return_ =>
      match context.buffer with
      | none => .ok ⟨context, [], none⟩
      | some buffer =>
        match backend.checkTrigger buffer with
        | .error error => .error (.checkTrigger error)
        | .ok output =>
          .ok ⟨{ context with buffer := none },
            match output with
            | some output => context.composingCommit output
            | none => context.composingUpdate "", none⟩
    -- the buffer is not shown again on this path
    | .kpSpace | .space => .ok ⟨context, [], some false⟩
    | .other =>
      match typedCharacter xkb xkbState xkbKey with
      | some ch => .ok ⟨context.append ch, (context.append ch).showBuffer, some true⟩
      | none => .ok ⟨context, context.showBuffer, some false⟩

/-- `repeat_key`. -/
def repeatKey (xkb : Xkb κ σ) (backend : Backend ε) (context : InputContext κ σ) :
    Except (Panic ε) (RepeatedKey κ σ) :=
  match context.repeatRate with
  | none => .error .noRepeatRate
  | some repeatRate =>
    match context.repeatTimer with
    | none => .error .noRepeatTimer
    | some repeating =>
      if repeatRate.toUInt32 = 0 then .error .divisionByZero
      else
        let timestamp := repeating.timestamp + 1000 / repeatRate.toUInt32
        let context := { context with repeatTimer := some { repeating with timestamp } }
        match context.handleKey xkb backend repeating.keycode with
        | .error panic => .error panic
        | .ok after =>
          if after.handled = some false then
            .ok ⟨{ after.context with repeatTimer := none },
              after.requests ++ [.key repeating.timestamp (repeating.keycode - 8) .pressed], .drop⟩
          else .ok ⟨after.context, after.requests, .toDuration repeatRate⟩

end InputContext

end Shinran.Wayland
