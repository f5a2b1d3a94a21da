/-
  Shinran.Wayland.RepeatTiming
  ────────────────────────────
  **THE TIMES OF A KEY THAT REPEATS.**

  The compositor gives the rate in keys per second, and 0 stands for no
  repetition.  The handler of the event stores the number as milliseconds;
  when the timer fires it is the interval until the next firing, and a
  thousand is divided by it for the next timestamp.

    • `BeginsRepeat`        — a press that begins to repeat its key,
    • `fire_ok`             — what a number of firings leave behind,
    • `ticksExactly_iff`    — interval and timestamp agree iff nothing fires,
    • `not_ticksExactly_25` — a usual rate.
-/
import Mathlib.Algebra.Order.Ring.Nat
import Shinran.Wayland.Steps

namespace Shinran.Wayland

open InputContext (scancodeOffset fromMillis)

/-! ## §1. Milliseconds. -/

theorem toNat_fromMillis {millis : Int32} (h : 0 ≤ millis) :
    (fromMillis millis).toNat = millis.toNatClampNeg := by
  have hle : (0 : Int64) ≤ millis.toInt64 := by
    rw [Int64.le_iff_toInt_le, Int32.toInt_toInt64]
    exact Int32.le_iff_toInt_le.mp h
  unfold fromMillis
  rw [Int64.toNat_toUInt64_of_le hle, Int32.toNatClampNeg_toInt64]

theorem toNat_toUInt32_fromMillis {millis : Int32} (h : 0 ≤ millis) :
    (fromMillis millis).toUInt32.toNat = millis.toNatClampNeg := by
  have hlt := millis.toNatClampNeg_lt
  rw [UInt64.toNat_toUInt32, toNat_fromMillis h]
  exact Nat.mod_eq_of_lt (by omega)

/-- No number of milliseconds is the rate that it stands for. -/
theorem ne_thousand_div (rate : Nat) (h : rate ≠ 0) : rate ≠ 1000 / rate := by
  intro heq
  have hdiv : rate * (1000 / rate) + 1000 % rate = 1000 := Nat.div_add_mod 1000 rate
  have hlt : rate < 32 := by
    by_contra hge
    have hsquare : 32 * 32 ≤ rate * rate := Nat.mul_le_mul (by omega) (by omega)
    rw [← heq] at hdiv
    omega
  have hsmall : ∀ n < 32, n ≠ 0 → n ≠ 1000 / n := by decide
  exact hsmall rate hlt h heq

/-! ## §2. A key that repeats. -/

variable {κ σ ε : Type}

/-- What `RepeatInfo` leaves behind. -/
def InputContext.informed (context : InputContext κ σ) (rate delay : Int32) : InputContext κ σ :=
  { context with repeatRate := some (fromMillis rate), repeatDelay := some (fromMillis delay) }

theorem keyboardGrabEvent_repeatInfo (xkb : Xkb κ σ) (backend : Backend ε) (seatIndex : SeatIndex)
    (context : InputContext κ σ) (loopHandle : TokenMap Timer) (rate delay : Int32) :
    context.keyboardGrabEvent xkb backend seatIndex loopHandle (.repeatInfo rate delay)
      = .ok { context := context.informed rate delay, loopHandle } := rfl

/-- The press begins to repeat its key, which is kept: with a timer of its own, or with the timer
of the key that was repeated before. -/
structure BeginsRepeat (xkb : Xkb κ σ) (backend : Backend ε) (seatIndex : SeatIndex)
    (context : InputContext κ σ) (loopHandle : TokenMap Timer) (time key : UInt32)
    (handled : Handled κ σ) (repeating : RepeatTimer) : Prop where
  pressed : context.pressedKey xkb backend seatIndex loopHandle time key = .ok handled
  kept : ∀ xkbState ∈ context.xkbState, classify xkb xkbState (key + scancodeOffset) ≠ some false
  repeats : ∀ keymap ∈ context.xkbKeymap, xkb.keyRepeats keymap (key + scancodeOffset) = true
  timer : handled.context.repeatTimer = some repeating
  keycode : repeating.keycode = key + scancodeOffset

/-- Consecutive firings of a timer. -/
def fire (xkb : Xkb κ σ) (backend : Backend ε) (token : Nat) :
    Nat → Handled κ σ → Except (Panic ε) (Handled κ σ)
  | 0, handled => .ok handled
  | n + 1, handled =>
      match fire xkb backend token n handled with
      | .error panic => .error panic
      | .ok handled => handled.context.timerEvent xkb backend handled.loopHandle token

/-- One firing: it comes to its end, the timestamp does not wrap around, and the timer is set to
the interval by which the timestamp advances. -/
def TickExactly (xkb : Xkb κ σ) (backend : Backend ε) (token : Nat) (handled : Handled κ σ) :
    Prop :=
  ∃ after repeating repeating' timer,
    handled.context.timerEvent xkb backend handled.loopHandle token = .ok after
      ∧ handled.context.repeatTimer = some repeating
      ∧ after.context.repeatTimer = some repeating'
      ∧ after.loopHandle.find token = some timer
      ∧ repeating.timestamp ≤ repeating'.timestamp
      ∧ timer.duration.toNat = (repeating'.timestamp - repeating.timestamp).toNat

/-- The start does not wrap around either, and `n` firings are exact. -/
structure TicksExactly (xkb : Xkb κ σ) (backend : Backend ε) (time : UInt32) (delay : Int32)
    (handled : Handled κ σ) (repeating : RepeatTimer) (n : Nat) : Prop where
  start : repeating.timestamp.toNat = time.toNat + delay.toNatClampNeg
  firings : ∀ i < n, ∃ before, fire xkb backend repeating.registration i handled = .ok before
    ∧ TickExactly xkb backend repeating.registration before

/-! ## §3. What the firings do. -/

/-- A key is being repeated: the context keeps it, and has nothing to expand for it. -/
structure Repeating (xkb : Xkb κ σ) (context : InputContext κ σ) (rate : UInt64)
    (repeating : RepeatTimer) : Prop where
  repeatRate : context.repeatRate = some rate
  repeatTimer : context.repeatTimer = some repeating
  handles : ∃ xkbState, context.xkbState = some xkbState
    ∧ classify xkb xkbState repeating.keycode ≠ some false
    ∧ (Keysym.new (xkb.keyGetOneSym xkbState repeating.keycode) = .return_ →
      context.buffer = none)

variable {xkb : Xkb κ σ} {backend : Backend ε} {context : InputContext κ σ}
  {loopHandle : TokenMap Timer} {seatIndex : SeatIndex} {time key : UInt32}
  {handled : Handled κ σ} {repeating : RepeatTimer} {rate : UInt64} {token : Nat}

/-- A key that was kept leaves nothing to expand. -/
theorem InputContext.buffer_of_handleKey {keycode : Keycode} {after : HandledKey κ σ}
    {xkbState : σ} (hx : context.xkbState = some xkbState)
    (hreturn : Keysym.new (xkb.keyGetOneSym xkbState keycode) = .return_)
    (h : context.handleKey xkb backend keycode = .ok after) : after.context.buffer = none := by
  unfold InputContext.handleKey at h
  simp only [hx, hreturn] at h
  split at h
  · rename_i hbuffer
    cases h
    exact hbuffer
  · split at h
    · cases h
    · cases h
      rfl

theorem BeginsRepeat.spec (h : BeginsRepeat xkb backend seatIndex context loopHandle time key
      handled repeating) {delay : UInt64} (hrate : context.repeatRate = some rate)
    (hdelay : context.repeatDelay = some delay) :
    repeating.timestamp = time + delay.toUInt32 ∧ Repeating xkb handled.context rate repeating := by
  obtain ⟨after, hafter, hpress⟩ := InputContext.pressedKey_ok h.pressed
  obtain ⟨xkbState, hx, hclass, hcontext, _⟩ := InputContext.handleKey_ok hafter
  have hkept : after.handled ≠ some false := hclass ▸ h.kept xkbState hx
  have hkeymap : ∀ keymap, after.context.xkbKeymap = some keymap →
      xkb.keyRepeats keymap (key + scancodeOffset) = true := by
    intro keymap hk
    rw [hcontext] at hk
    exact h.repeats keymap hk
  have hdelay' : after.context.repeatDelay = some delay := by rw [hcontext]; exact hdelay
  have hrate' : after.context.repeatRate = some rate := by rw [hcontext]; exact hrate
  have hx' : after.context.xkbState = some xkbState := by rw [hcontext]; exact hx
  -- a press that leaves the key to be repeated has set a timer for it
  have htimer := h.timer
  have hkeycode := h.keycode
  have hhandles : ∃ xkbState, after.context.xkbState = some xkbState
      ∧ classify xkb xkbState repeating.keycode ≠ some false
      ∧ (Keysym.new (xkb.keyGetOneSym xkbState repeating.keycode) = .return_ →
        after.context.buffer = none) := by
    rw [hkeycode]
    exact ⟨xkbState, hx', h.kept xkbState hx, fun hreturn =>
      InputContext.buffer_of_handleKey hx hreturn hafter⟩
  cases hpress with
  | retargeted _ _ _ _ _ hd =>
      rw [hdelay'] at hd
      cases hd
      cases htimer
      exact ⟨rfl, hrate', rfl, hhandles⟩
  | started _ _ _ _ hd =>
      rw [hdelay'] at hd
      cases hd
      cases htimer
      exact ⟨rfl, hrate', rfl, hhandles⟩
  | forgotten | stopped => cases htimer
  | shutDown ht hne _ =>
      rw [hcontext] at htimer
      rw [ht] at htimer
      cases htimer
      exact absurd hkeycode hne
  | kept _ _ hk hrepeats =>
      rw [hkeymap _ hk] at hrepeats
      cases hrepeats
  | forwarded _ hfalse => exact absurd hfalse hkept

/-- `handle_key` comes to its end, and keeps the key. -/
theorem Repeating.handleKey (h : Repeating xkb context rate repeating) (backend : Backend ε)
    (next : RepeatTimer) (hnext : next.keycode = repeating.keycode) :
    ∃ after, ({ context with repeatTimer := some next }).handleKey xkb backend repeating.keycode
        = .ok after
      ∧ after.handled ≠ some false ∧ Repeating xkb after.context rate next := by
  obtain ⟨xkbState, hx, hclass, hbuffer⟩ := h.handles
  have hok : ∃ after, ({ context with repeatTimer := some next }).handleKey xkb backend
      repeating.keycode = .ok after := by
    unfold InputContext.handleKey
    simp only [hx]
    cases hsym : Keysym.new (xkb.keyGetOneSym xkbState repeating.keycode) with
    | return_ =>
        simp only [hbuffer hsym]
        exact ⟨_, rfl⟩
    | other => cases typedCharacter xkb xkbState repeating.keycode <;> exact ⟨_, rfl⟩
    | _ => exact ⟨_, rfl⟩
  obtain ⟨after, hafter⟩ := hok
  obtain ⟨xkbState', hx', hclass', hcontext, _⟩ := InputContext.handleKey_ok hafter
  obtain rfl : xkbState = xkbState' := Option.some.inj (hx.symm.trans hx')
  refine ⟨after, hafter, hclass' ▸ hclass, ?_, ?_, xkbState, ?_, hnext ▸ hclass, ?_⟩
  · rw [hcontext]; exact h.repeatRate
  · rw [hcontext]
  · rw [hcontext]; exact hx
  · intro hreturn
    exact InputContext.buffer_of_handleKey hx' (hnext ▸ hreturn) hafter

/-- **One firing**: the key is handled again, with the next timestamp. -/
theorem Repeating.timerEvent (h : Repeating xkb context rate repeating)
    (hrate : rate.toUInt32 ≠ 0) :
    ∃ after, context.timerEvent xkb backend loopHandle token = .ok after
      ∧ Repeating xkb after.context rate
        { repeating with timestamp := repeating.timestamp + 1000 / rate.toUInt32 }
      ∧ after.loopHandle = loopHandle.update token fun timer => { timer with duration := rate } := by
  obtain ⟨after, hafter, hkept, hnext⟩ := h.handleKey backend
    { repeating with timestamp := repeating.timestamp + 1000 / rate.toUInt32 } rfl
  have hrepeat : context.repeatKey xkb backend
      = .ok ⟨after.context, after.requests, .toDuration rate⟩ := by
    unfold InputContext.repeatKey
    simp only [h.repeatRate] at hafter
    simp only [h.repeatRate, h.repeatTimer, if_neg hrate, hafter, if_neg hkept]
  unfold InputContext.timerEvent
  rw [hrepeat]
  exact ⟨_, rfl, hnext, rfl⟩

/-- **What `n` firings leave behind**: all of them come to their end, and each has advanced the
timestamp by the same amount. -/
theorem Repeating.fire_ok (h : Repeating xkb handled.context rate repeating)
    (hrate : rate.toUInt32 ≠ 0) (n : Nat) :
    ∃ after, fire xkb backend token n handled = .ok after
      ∧ Repeating xkb after.context rate { repeating with
        timestamp := repeating.timestamp + .ofNat n * (1000 / rate.toUInt32) } := by
  induction n with
  | zero =>
      refine ⟨handled, rfl, ?_⟩
      rw [show UInt32.ofNat 0 = 0 from rfl, UInt32.zero_mul, UInt32.add_zero]
      exact h
  | succ n ih =>
      obtain ⟨before, hfire, hbefore⟩ := ih
      obtain ⟨after, hafter, hnext, _⟩ :=
        @Repeating.timerEvent _ _ _ _ backend _ before.loopHandle _ _ token hbefore hrate
      refine ⟨after, ?_, ?_⟩
      · unfold fire
        rw [hfire]
        exact hafter
      · have hadd : UInt32.ofNat (n + 1) = UInt32.ofNat n + 1 := UInt32.ofNat_add n 1
        rw [hadd, UInt32.add_mul, UInt32.one_mul, ← UInt32.add_assoc]
        exact hnext

/-- **No firing is exact.** -/
theorem Repeating.not_tickExactly (h : Repeating xkb handled.context rate repeating)
    (hrate : rate.toUInt32.toNat = rate.toNat) : ¬ TickExactly xkb backend token handled := by
  intro htick
  obtain ⟨after, before, next, timer, hafter, hbefore, hnext, htimer, hle, hsame⟩ := htick
  by_cases hzero : rate.toUInt32 = 0
  · -- a rate of 0 does not keep the timer from firing
    have hpanic : handled.context.repeatKey xkb backend = .error .divisionByZero := by
      unfold InputContext.repeatKey
      simp only [h.repeatRate, h.repeatTimer, if_pos hzero]
    unfold InputContext.timerEvent at hafter
    rw [hpanic] at hafter
    cases hafter
  · obtain ⟨after', hafter', hrepeating, hloop⟩ :=
      @Repeating.timerEvent _ _ _ _ backend _ handled.loopHandle _ _ token h hzero
    obtain rfl : after = after' := Except.ok.inj (hafter.symm.trans hafter')
    obtain rfl : repeating = before := Option.some.inj (h.repeatTimer.symm.trans hbefore)
    obtain rfl := Option.some.inj (hrepeating.repeatTimer.symm.trans hnext)
    rw [hloop, TokenMap.find_update] at htimer
    obtain ⟨timer', _, rfl⟩ := Option.map_eq_some_iff.mp htimer
    -- the interval is the rate, and the advance what a thousand is divided by it
    have hadvance : repeating.timestamp + 1000 / rate.toUInt32 - repeating.timestamp
        = 1000 / rate.toUInt32 := by
      rw [UInt32.add_comm, UInt32.add_sub_cancel]
    dsimp only at hsame
    rw [hadvance, UInt32.toNat_div, hrate] at hsame
    refine ne_thousand_div rate.toNat ?_ hsame
    intro hnat
    exact hzero (UInt32.toNat_inj.mp (by rw [hrate, hnat]; rfl))

/-- **When the times agree.**  For all rates and delays that the protocol allows, all times and
all keys: the start does not wrap around, and `n` firings come to their end without a timestamp
that wraps around and with the interval by which it advances, if and only if the time and the
delay add up to less than `2 ^ 32` and nothing fires. -/
theorem ticksExactly_iff (xkb : Xkb κ σ) (backend : Backend ε) (seatIndex : SeatIndex)
    (context : InputContext κ σ) (loopHandle : TokenMap Timer) (rate delay : Int32)
    (hrate : 0 ≤ rate) (hdelay : 0 ≤ delay) (time key : UInt32) (handled : Handled κ σ)
    (repeating : RepeatTimer)
    (hbegins : BeginsRepeat xkb backend seatIndex (context.informed rate delay) loopHandle time key
      handled repeating) (n : Nat) :
    TicksExactly xkb backend time delay handled repeating n
      ↔ time.toNat + delay.toNatClampNeg < 2 ^ 32 ∧ n = 0 := by
  obtain ⟨hstart, hrepeating⟩ := hbegins.spec rfl rfl
  have hsum : repeating.timestamp.toNat = (time.toNat + delay.toNatClampNeg) % 2 ^ 32 := by
    rw [hstart, UInt32.toNat_add, toNat_toUInt32_fromMillis hdelay]
  constructor
  · intro h
    refine ⟨?_, ?_⟩
    · rw [← h.start]
      exact repeating.timestamp.toNat_lt
    · by_contra hn
      obtain ⟨before, hbefore, htick⟩ := h.firings 0 (by omega)
      obtain rfl : handled = before := Except.ok.inj hbefore
      refine hrepeating.not_tickExactly ?_ htick
      rw [toNat_toUInt32_fromMillis hrate, toNat_fromMillis hrate]
  · intro h
    refine ⟨?_, fun i hi => absurd hi (by omega)⟩
    rw [hsum, Nat.mod_eq_of_lt h.1]

/-! ## §4. A key that is held. -/

/-- A seat with the small keyboard, before a key is pressed. -/
def idle : InputContext Unit UInt32 := { seatId := 0, xkbKeymap := some (), xkbState := some 0 }

/-- The `A` is pressed. -/
theorem beginsRepeat_idle (rate delay : Int32) (time : UInt32) :
    ∃ handled, BeginsRepeat smallKeyboard emptyBackend 0 (idle.informed rate delay) {} time 30
      handled ⟨38, time + (fromMillis delay).toUInt32, 0⟩ := by
  refine ⟨_, rfl, ?_, fun _ _ => rfl, rfl, rfl⟩
  intro xkbState hx
  obtain rfl : 0 = xkbState := by simpa [InputContext.informed, idle] using hx
  decide

/-- The `A` is held until the timer has fired three times. -/
theorem ticksExactly_iff_three :
    ∃ handled, TicksExactly smallKeyboard emptyBackend 1000 600 handled ⟨38, 1600, 0⟩ 3
      ↔ (1000 : UInt32).toNat + (600 : Int32).toNatClampNeg < 2 ^ 32 ∧ 3 = 0 := by
  obtain ⟨handled, hbegins⟩ := beginsRepeat_idle 25 600 1000
  exact ⟨handled, ticksExactly_iff smallKeyboard emptyBackend 0 idle {} 25 600 (by decide)
    (by decide) 1000 30 handled ⟨38, 1600, 0⟩ hbegins 3⟩

/-- **At 25 keys per second** the timer fires every 25 milliseconds, and the timestamps are 40
milliseconds apart; at no key per second, the first firing divides by zero. -/
theorem not_ticksExactly_25 :
    (∃ handled, BeginsRepeat smallKeyboard emptyBackend 0 (idle.informed 25 600) {} 1000 30
        handled ⟨38, 1600, 0⟩
      ∧ (∃ after, fire smallKeyboard emptyBackend 0 1 handled = .ok after
        ∧ after.context.repeatTimer = some ⟨38, 1640, 0⟩ ∧ after.loopHandle.find 0 = some ⟨0, 25⟩)
      ∧ ¬ TicksExactly smallKeyboard emptyBackend 1000 600 handled ⟨38, 1600, 0⟩ 1)
    ∧ ∃ handled, BeginsRepeat smallKeyboard emptyBackend 0 (idle.informed 0 600) {} 1000 30
        handled ⟨38, 1600, 0⟩
      ∧ fire smallKeyboard emptyBackend 0 1 handled = .error .divisionByZero := by
  constructor
  · obtain ⟨handled, hbegins⟩ := beginsRepeat_idle 25 600 1000
    refine ⟨handled, hbegins, ?_, ?_⟩
    · cases hbegins.pressed
      exact ⟨_, rfl, rfl, rfl⟩
    · intro h
      obtain ⟨before, hbefore, htick⟩ := h.firings 0 (by decide)
      obtain rfl : handled = before := Except.ok.inj hbefore
      exact (hbegins.spec rfl rfl).2.not_tickExactly (by decide) htick
  · obtain ⟨handled, hbegins⟩ := beginsRepeat_idle 0 600 1000
    refine ⟨handled, hbegins, ?_⟩
    cases hbegins.pressed
    rfl

end Shinran.Wayland
