/-
  Shinran.Wayland.Isolation
  ─────────────────────────
  **SEATS DO NOT INTERFERE.**

  All seats share one event loop and one table of timers.  A seat is told of
  the events that are for it, of those of the registry, and of the firings of
  the timers that it has started, which it can only tell apart by their order.

    • `Told`             — what a seat is told in a run,
    • `Alone.step`       — the frontend for one seat, beside the whole frontend,
    • `Alone.of_run`     — so every run has the run of one seat in it,
    • `isolated_of_told` — and what a seat requests depends on nothing else.
-/
import Shinran.TokenRestriction
import Shinran.Wayland.Preedit
import Shinran.Wayland.Timers

namespace Shinran.Wayland

open Machine (Run)
open InputContext (scancodeOffset)

variable {κ σ ε : Type} {xkb : Xkb κ σ} {backend : Backend ε} {context : InputContext κ σ}
  {loopHandle : TokenMap Timer} {seatIndex : SeatIndex}

/-! ## §1. What a seat is told. -/

/-- Whether a timer calls the seat. -/
def Timer.calls (seatIndex : SeatIndex) (timer : Timer) : Bool := timer.seatIndex = seatIndex

/-- An event, as a seat is told of it that has started the timers with these tokens. -/
def Event.forSeat (seatIndex : SeatIndex) (tokens : List Nat) : Event → Option Event
  | .timer token => if token ∈ tokens then some (.timer (tokens.idxOf token)) else none
  | event => if event.seat?.all (· = seatIndex) then some event else none

/-- The token of the timer that has been registered for the seat in between, if there is one. -/
def newTokens (seatIndex : SeatIndex) (before after : TokenMap Timer) : List Nat :=
  if (after.find before.next).any (·.calls seatIndex) then [before.next] else []

/-- The tokens of the timers of a seat, and what it has been told, next to the whole state. -/
structure Told (κ σ ε : Type) where
  state : State κ σ
  tokens : List Nat := []
  events : List (Backend ε × Event) := []

/-- One more event. -/
def Told.tell (xkb : Xkb κ σ) (seatIndex : SeatIndex) (told : Told κ σ ε) :
    Backend ε × Event → Told κ σ ε
  | (backend, event) =>
    match told.state.dispatch xkb backend event with
    | .error _ => told
    | .ok (state, _) =>
      { state
        tokens := told.tokens ++ newTokens seatIndex told.state.loopHandle state.loopHandle
        events := told.events ++ ((event.forSeat seatIndex told.tokens).map (backend, ·)).toList }

/-- What a seat is told in the course of events. -/
def told (xkb : Xkb κ σ) (seatIndex : SeatIndex) (seatIds : List UInt32)
    (events : List (Backend ε × Event)) : Told κ σ ε :=
  events.foldl (Told.tell xkb seatIndex) { state := .init seatIds }

theorem told_append (seatIds : List UInt32) (events : List (Backend ε × Event))
    (event : Backend ε × Event) : told xkb seatIndex seatIds (events ++ [event])
      = (told xkb seatIndex seatIds events).tell xkb seatIndex event := by
  simp [told]

/-! ## §2. Contexts that differ in their tokens. -/

/-- The same timer, under another token. -/
structure AlikeTimer (tokens : List Nat) (full part : RepeatTimer) : Prop where
  frame : full = { part with registration := full.registration }
  registration : tokens[part.registration]? = some full.registration

/-- The same context, up to the token of its timer. -/
structure Alike (tokens : List Nat) (full part : InputContext κ σ) : Prop where
  frame : full = { part with repeatTimer := full.repeatTimer }
  repeatTimer : Option.Rel (AlikeTimer tokens) full.repeatTimer part.repeatTimer

variable {tokens more : List Nat} {full part : InputContext κ σ}

theorem AlikeTimer.append {full part : RepeatTimer} (h : AlikeTimer tokens full part) :
    AlikeTimer (tokens ++ more) full part where
  frame := h.frame
  registration := by
    rw [List.getElem?_append_left (List.getElem?_eq_some_iff.mp h.registration).1]
    exact h.registration

theorem Alike.append (h : Alike tokens full part) : Alike (tokens ++ more) full part where
  frame := h.frame
  repeatTimer := by
    have hrel := h.repeatTimer
    generalize full.repeatTimer = timer, part.repeatTimer = timer' at hrel ⊢
    cases hrel with
    | some htimer => exact .some htimer.append
    | none => exact .none

/-- `handle_key` does not look at the timer. -/
theorem InputContext.handleKey_retimed {repeatTimer : Option RepeatTimer} {key : Keycode}
    {after : HandledKey κ σ}
    (h : ({ context with repeatTimer }).handleKey xkb backend key = .ok after) :
    ∃ after', context.handleKey xkb backend key = .ok after' ∧
      after'.requests = after.requests ∧ after'.handled = after.handled ∧
      after.context = { after'.context with repeatTimer } ∧
      after'.context.repeatTimer = context.repeatTimer := by
  unfold InputContext.handleKey at h ⊢
  simp only at h
  split at h
  · cases h
  · split at h
    case h_1 => cases h; exact ⟨_, rfl, rfl, rfl, rfl, rfl⟩
    case h_2 =>
      split at h
      · cases h
        exact ⟨_, rfl, rfl, rfl, rfl, rfl⟩
      · split at h
        · cases h
        · cases h
          exact ⟨_, rfl, rfl, rfl, rfl, rfl⟩
    case h_3 => cases h; exact ⟨_, rfl, rfl, rfl, rfl, rfl⟩
    case h_4 => cases h; exact ⟨_, rfl, rfl, rfl, rfl, rfl⟩
    case h_5 =>
      split at h
      · cases h
        exact ⟨_, rfl, rfl, rfl, rfl, rfl⟩
      · cases h
        exact ⟨_, rfl, rfl, rfl, rfl, rfl⟩

/-- So it does the same on both sides. -/
theorem Alike.handleKey {key : Keycode} {after : HandledKey κ σ} (h : Alike tokens full part)
    (hafter : full.handleKey xkb backend key = .ok after) :
    ∃ after', part.handleKey xkb backend key = .ok after' ∧
      after'.requests = after.requests ∧ after'.handled = after.handled ∧
      Alike tokens after.context after'.context ∧
      after.context.repeatTimer = full.repeatTimer ∧
      after'.context.repeatTimer = part.repeatTimer := by
  rw [h.frame] at hafter
  obtain ⟨after', hafter', hrequests, hhandled, hcontext, htimer⟩ :=
    InputContext.handleKey_retimed hafter
  refine ⟨after', hafter', hrequests, hhandled, ⟨?_, ?_⟩, by rw [hcontext], htimer⟩
  · rw [hcontext]
  · rw [hcontext, htimer]
    exact h.repeatTimer

/-! ## §3. Handlers, for one seat alone. -/

section NewTokens

variable (seatIndex) (loopHandle : TokenMap Timer) (token : Nat)

@[simp] theorem newTokens_self : newTokens seatIndex loopHandle loopHandle = [] := by
  simp [newTokens]

@[simp] theorem newTokens_remove :
    newTokens seatIndex loopHandle (loopHandle.remove token) = [] := by
  have hnone : (loopHandle.remove token).find loopHandle.next = none :=
    (loopHandle.remove token).find_next
  simp [newTokens, hnone]

@[simp] theorem newTokens_update (change : Timer → Timer) :
    newTokens seatIndex loopHandle (loopHandle.update token change) = [] := by
  have hnone : (loopHandle.update token change).find loopHandle.next = none :=
    (loopHandle.update token change).find_next
  simp [newTokens, hnone]

theorem newTokens_register (timer : Timer) :
    newTokens seatIndex loopHandle (loopHandle.register timer)
      = if timer.calls seatIndex then [loopHandle.next] else [] := by
  simp [newTokens, TokenMap.find_register]

end NewTokens

/-- The timers of the seat, in the whole event loop and in one of its own. -/
abbrev Loops (seatIndex : SeatIndex) (tokens : List Nat) (full part : TokenMap Timer) : Prop :=
  TokenMap.Restricts (Timer.calls seatIndex) tokens full part

/-- A handler has done the same on both sides. -/
structure HandledAlike (seatIndex : SeatIndex) (tokens : List Nat) (loopHandle : TokenMap Timer)
    (full part : Handled κ σ) : Prop where
  context : Alike (tokens ++ newTokens seatIndex loopHandle full.loopHandle) full.context
    part.context
  loopHandle : Loops seatIndex (tokens ++ newTokens seatIndex loopHandle full.loopHandle)
    full.loopHandle part.loopHandle
  requests : part.requests = full.requests

/-- Nothing has been registered. -/
theorem HandledAlike.of_same {full part : Handled κ σ}
    (hnew : newTokens seatIndex loopHandle full.loopHandle = [])
    (hcontext : Alike tokens full.context part.context)
    (hloops : Loops seatIndex tokens full.loopHandle part.loopHandle)
    (hrequests : part.requests = full.requests) :
    HandledAlike seatIndex tokens loopHandle full part := by
  constructor
  · rw [hnew, List.append_nil]
    exact hcontext
  · rw [hnew, List.append_nil]
    exact hloops
  · exact hrequests

namespace Alike

variable {loopHandle' : TokenMap Timer} {handled : Handled κ σ} {time key : UInt32}

/-- A timer is noticed on both sides, or on neither. -/
theorem repeatTimer_cases (h : Alike tokens full part) :
    full.repeatTimer = none ∧ part.repeatTimer = none ∨
      ∃ repeating repeating', full.repeatTimer = some repeating ∧
        part.repeatTimer = some repeating' ∧ AlikeTimer tokens repeating repeating' := by
  have hrel := h.repeatTimer
  cases hfull : full.repeatTimer with
  | none =>
      cases hpart : part.repeatTimer with
      | none => exact Or.inl ⟨rfl, rfl⟩
      | some _ => rw [hfull, hpart] at hrel; cases hrel
  | some repeating =>
      cases hpart : part.repeatTimer with
      | none => rw [hfull, hpart] at hrel; cases hrel
      | some repeating' =>
          rw [hfull, hpart] at hrel
          cases hrel with
          | some halike => exact Or.inr ⟨repeating, repeating', rfl, rfl, halike⟩

/-- Neither side has a timer afterwards. -/
theorem stop (h : Alike tokens full part) :
    Alike tokens { full with repeatTimer := none } { part with repeatTimer := none } where
  frame := by
    rw [h.frame]
  repeatTimer := .none

/-- What leaves the timer alone is done to both. -/
theorem map (h : Alike tokens full part) (f : InputContext κ σ → InputContext κ σ)
    (hframe : ∀ context repeatTimer,
      f { context with repeatTimer } = { f context with repeatTimer })
    (htimer : ∀ context, (f context).repeatTimer = context.repeatTimer) :
    Alike tokens (f full) (f part) where
  frame := by
    rw [htimer, ← hframe, ← h.frame]
  repeatTimer := by
    rw [htimer, htimer]
    exact h.repeatTimer

theorem markAsPressed (h : Alike tokens full part) (keycode : Keycode) :
    Alike tokens (full.markAsPressed keycode) (part.markAsPressed keycode) :=
  h.map (·.markAsPressed keycode) (fun _ _ => rfl) fun _ => rfl

theorem releaseIfPressed (h : Alike tokens full part) (keycode : Keycode) :
    Alike tokens (full.releaseIfPressed keycode).1 (part.releaseIfPressed keycode).1 ∧
      (part.releaseIfPressed keycode).2 = (full.releaseIfPressed keycode).2 := by
  refine ⟨h.map (·.releaseIfPressed keycode |>.1) (fun _ _ => rfl) fun _ => rfl, ?_⟩
  rw [h.frame]
  rfl

/-- Both sides set the timer to the same key. -/
theorem retime (h : Alike tokens full part) {repeating repeating' : RepeatTimer}
    (htimer : AlikeTimer tokens repeating repeating') :
    Alike tokens { full with repeatTimer := some repeating }
      { part with repeatTimer := some repeating' } where
  frame := by
    rw [h.frame]
  repeatTimer := .some htimer

theorem xkbKeymap (h : Alike tokens full part) : part.xkbKeymap = full.xkbKeymap := by
  rw [h.frame]

theorem xkbState (h : Alike tokens full part) : part.xkbState = full.xkbState := by
  rw [h.frame]

theorem repeatDelay (h : Alike tokens full part) : part.repeatDelay = full.repeatDelay := by
  rw [h.frame]

theorem pressedWhileRepeating {repeating repeating' : RepeatTimer} (h : Alike tokens full part)
    (hloops : Loops seatIndex tokens loopHandle loopHandle')
    (htimer : AlikeTimer tokens repeating repeating')
    (hhandled : full.pressedWhileRepeating xkb backend loopHandle repeating time key
      = .ok handled) :
    ∃ handled', part.pressedWhileRepeating xkb backend loopHandle' repeating' time key
        = .ok handled' ∧ HandledAlike seatIndex tokens loopHandle handled handled' := by
  unfold InputContext.pressedWhileRepeating at hhandled ⊢
  simp only at hhandled ⊢
  split at hhandled
  · cases hhandled
  · rename_i after hafter
    obtain ⟨after', hafter', hrequests, hsame, halike, _⟩ := h.handleKey hafter
    have hmarked := halike.markAsPressed (key + scancodeOffset)
    have hfind := hloops.find _ _ htimer.registration
    rw [hafter']
    simp only [hsame]
    split at hhandled
    case h_1 htrue =>
      split at hhandled
      · cases hhandled
      · rename_i keymap hkeymap
        split
        · rename_i hnone
          rw [hmarked.xkbKeymap, hkeymap] at hnone
          cases hnone
        rename_i keymap' hkeymap'
        obtain rfl : keymap = keymap' := by
          rw [hmarked.xkbKeymap, hkeymap] at hkeymap'
          exact Option.some.inj hkeymap'
        split at hhandled
        · rename_i hrepeats
          rw [if_pos hrepeats]
          split at hhandled
          · cases hhandled
          · rename_i repeatDelay hdelay
            split at hhandled
            · cases hhandled
            · rename_i hfound
              split
              · rename_i hnone
                rw [hmarked.repeatDelay, hdelay] at hnone
                cases hnone
              rename_i repeatDelay' hdelay'
              obtain rfl : repeatDelay = repeatDelay' := by
                rw [hmarked.repeatDelay, hdelay] at hdelay'
                exact Option.some.inj hdelay'
              rw [hfind, hfound]
              cases hhandled
              have hset : AlikeTimer tokens
                  { repeating with
                    keycode := key + scancodeOffset, timestamp := time + repeatDelay.toUInt32 }
                  { repeating' with
                    keycode := key + scancodeOffset, timestamp := time + repeatDelay.toUInt32 } :=
                ⟨rfl, htimer.registration⟩
              refine ⟨_, rfl, .of_same (newTokens_update _ _ _ _) (hmarked.retime hset) ?_
                hrequests⟩
              exact hloops.update htimer.registration fun _ => rfl
        · rename_i hrepeats
          rw [if_neg hrepeats]
          cases hhandled
          exact ⟨_, rfl, .of_same (newTokens_self _ _) hmarked.stop hloops hrequests⟩
    case h_2 =>
      cases hhandled
      refine ⟨_, rfl, .of_same (newTokens_remove _ _ _) halike.stop ?_ (by rw [hrequests])⟩
      exact hloops.remove htimer.registration
    case h_3 =>
      cases hhandled
      exact ⟨_, rfl, .of_same (newTokens_self _ _) halike hloops hrequests⟩

theorem pressedOtherwise (h : Alike tokens full part)
    (hloops : Loops seatIndex tokens loopHandle loopHandle')
    (hhandled : full.pressedOtherwise xkb backend seatIndex loopHandle time key = .ok handled) :
    ∃ handled', part.pressedOtherwise xkb backend seatIndex loopHandle' time key = .ok handled' ∧
      HandledAlike seatIndex tokens loopHandle handled handled' := by
  unfold InputContext.pressedOtherwise at hhandled ⊢
  simp only at hhandled ⊢
  split at hhandled
  · cases hhandled
  · rename_i after hafter
    obtain ⟨after', hafter', hrequests, hsame, halike, _⟩ := h.handleKey hafter
    rw [hafter']
    simp only [hsame, halike.xkbKeymap]
    split at hhandled
    · cases hhandled
    · split at hhandled
      · rename_i hboth
        rw [if_pos hboth, halike.repeatDelay]
        split at hhandled
        · cases hhandled
        · rename_i repeatDelay _
          cases hhandled
          have hcalls : (⟨seatIndex, repeatDelay⟩ : Timer).calls seatIndex = true := by
            simp [Timer.calls]
          refine ⟨_, rfl, ?_, ?_, hrequests⟩
          · rw [newTokens_register, if_pos hcalls]
            refine (halike.append.markAsPressed _).retime ⟨rfl, ?_⟩
            rw [hloops.next, List.getElem?_concat_length]
          · rw [newTokens_register, if_pos hcalls]
            exact hloops.register hcalls
      · rename_i hboth
        rw [if_neg hboth]
        split at hhandled
        · rename_i hkept
          rw [if_pos hkept]
          cases hhandled
          exact ⟨_, rfl, .of_same (newTokens_self _ _) (halike.markAsPressed _) hloops hrequests⟩
        · rename_i hkept
          rw [if_neg hkept]
          cases hhandled
          exact ⟨_, rfl, .of_same (newTokens_self _ _) halike hloops (by rw [hrequests])⟩

/-- **A press does the same on both sides.** -/
theorem pressedKey (h : Alike tokens full part)
    (hloops : Loops seatIndex tokens loopHandle loopHandle')
    (hhandled : full.pressedKey xkb backend seatIndex loopHandle time key = .ok handled) :
    ∃ handled', part.pressedKey xkb backend seatIndex loopHandle' time key = .ok handled' ∧
      HandledAlike seatIndex tokens loopHandle handled handled' := by
  unfold InputContext.pressedKey at hhandled ⊢
  rcases h.repeatTimer_cases with ⟨hnone, hnone'⟩ | ⟨repeating, repeating', hsome, hsome', htimer⟩
  · rw [hnone] at hhandled
    rw [hnone']
    exact h.pressedOtherwise hloops hhandled
  · have hkeycode : repeating'.keycode = repeating.keycode := by rw [htimer.frame]
    rw [hsome] at hhandled
    rw [hsome']
    simp only [hkeycode] at hhandled ⊢
    split at hhandled
    · rename_i hne
      rw [if_pos hne]
      exact h.pressedWhileRepeating hloops htimer hhandled
    · rename_i hne
      rw [if_neg hne]
      exact h.pressedOtherwise hloops hhandled

theorem releasedOtherwise (h : Alike tokens full part)
    (hloops : Loops seatIndex tokens loopHandle loopHandle') :
    HandledAlike seatIndex tokens loopHandle (full.releasedOtherwise loopHandle time key)
      (part.releasedOtherwise loopHandle' time key) := by
  obtain ⟨halike, hfound⟩ := h.releaseIfPressed (key + scancodeOffset)
  refine .of_same (newTokens_self _ _) halike hloops ?_
  unfold InputContext.releasedOtherwise
  simp only [hfound]

/-- **So does a release.** -/
theorem releasedKey (h : Alike tokens full part)
    (hloops : Loops seatIndex tokens loopHandle loopHandle') :
    HandledAlike seatIndex tokens loopHandle (full.releasedKey loopHandle time key)
      (part.releasedKey loopHandle' time key) := by
  unfold InputContext.releasedKey
  rcases h.repeatTimer_cases with ⟨hnone, hnone'⟩ | ⟨repeating, repeating', hsome, hsome', htimer⟩
  · rw [hnone, hnone']
    exact h.releasedOtherwise hloops
  · have hkeycode : repeating'.keycode = repeating.keycode := by rw [htimer.frame]
    rw [hsome, hsome']
    simp only [hkeycode]
    split
    · refine .of_same (newTokens_remove _ _ _) (h.releaseIfPressed _).1.stop ?_ rfl
      exact hloops.remove htimer.registration
    · exact h.releasedOtherwise hloops

theorem keymapEvent (h : Alike tokens full part)
    (hloops : Loops seatIndex tokens loopHandle loopHandle') {format : KeymapFormat} {fd : Fd}
    {size : UInt32}
    (hhandled : full.keymapEvent (ε := ε) xkb loopHandle format fd size = .ok handled) :
    ∃ handled', part.keymapEvent (ε := ε) xkb loopHandle' format fd size = .ok handled' ∧
      HandledAlike seatIndex tokens loopHandle handled handled' := by
  unfold InputContext.keymapEvent at hhandled ⊢
  simp only at hhandled ⊢
  split at hhandled
  · cases hhandled
    exact ⟨_, rfl, .of_same (newTokens_self _ _) h hloops rfl⟩
  · split at hhandled
    · cases hhandled
    · cases hhandled
      refine ⟨_, rfl, .of_same (newTokens_self _ _) ?_ hloops rfl⟩
      exact h.map (fun context => { context with xkbKeymap := none }) (fun _ _ => rfl)
        fun _ => rfl
    · rename_i keymap _
      cases hhandled
      refine ⟨_, rfl, .of_same (newTokens_self _ _) ?_ hloops rfl⟩
      exact h.map (fun context => { context with
        xkbKeymap := some keymap, xkbState := some (xkb.newState keymap) }) (fun _ _ => rfl)
        fun _ => rfl

/-- **An event of the grab** does the same on both sides. -/
theorem keyboardGrabEvent (h : Alike tokens full part)
    (hloops : Loops seatIndex tokens loopHandle loopHandle') {event : GrabEvent}
    (hhandled : full.keyboardGrabEvent xkb backend seatIndex loopHandle event = .ok handled) :
    ∃ handled', part.keyboardGrabEvent xkb backend seatIndex loopHandle' event = .ok handled' ∧
      HandledAlike seatIndex tokens loopHandle handled handled' := by
  cases event with
  | key time key keyState =>
      unfold InputContext.keyboardGrabEvent at hhandled ⊢
      simp only [h.xkbState] at hhandled ⊢
      split at hhandled
      · cases hhandled
        exact ⟨_, rfl, .of_same (newTokens_self _ _) h hloops rfl⟩
      · cases keyState with
        | pressed => exact h.pressedKey hloops hhandled
        | released =>
            cases hhandled
            exact ⟨_, rfl, h.releasedKey hloops⟩
  | modifiers depressed latched locked group =>
      unfold InputContext.keyboardGrabEvent at hhandled ⊢
      simp only at hhandled ⊢
      split at hhandled
      · rename_i hnone
        rw [h.xkbState, hnone]
        cases hhandled
        exact ⟨_, rfl, .of_same (newTokens_self _ _) h hloops rfl⟩
      · rename_i xkbState hsome
        split
        · rename_i hnone
          rw [h.xkbState, hsome] at hnone
          cases hnone
        rename_i xkbState' hsome'
        obtain rfl : xkbState = xkbState' := by
          rw [h.xkbState, hsome] at hsome'
          exact Option.some.inj hsome'
        cases hhandled
        refine ⟨_, rfl, .of_same (newTokens_self _ _) ?_ hloops rfl⟩
        exact h.map (fun context => { context with
          xkbState := some (xkb.updateMask xkbState depressed latched locked 0 0 group) })
          (fun _ _ => rfl) fun _ => rfl
  | keymap format fd size => exact h.keymapEvent hloops hhandled
  | repeatInfo rate delay =>
      cases hhandled
      refine ⟨_, rfl, .of_same (newTokens_self _ _) ?_ hloops rfl⟩
      exact h.map (fun context => { context with
        repeatRate := some (InputContext.fromMillis rate)
        repeatDelay := some (InputContext.fromMillis delay) }) (fun _ _ => rfl) fun _ => rfl

/-- **So does one of the input method.** -/
theorem inputMethodEvent (h : Alike tokens full part) (event : InputMethodEvent) :
    Alike tokens (full.inputMethodEvent event).1 (part.inputMethodEvent event).1 ∧
      (part.inputMethodEvent event).2 = (full.inputMethodEvent event).2 := by
  have hframe : ∀ (context : InputContext κ σ) (repeatTimer : Option RepeatTimer),
      (({ context with repeatTimer }).inputMethodEvent event).1
          = { (context.inputMethodEvent event).1 with repeatTimer } ∧
        (({ context with repeatTimer }).inputMethodEvent event).2
          = (context.inputMethodEvent event).2 := by
    intro context repeatTimer
    cases event with
    | done =>
        unfold InputContext.inputMethodEvent InputContext.done
        simp only
        cases context.keyboardGrab <;> cases context.pendingDeactivate <;>
          cases context.pendingActivate <;> exact ⟨rfl, rfl⟩
    | _ => exact ⟨rfl, rfl⟩
  refine ⟨h.map (fun context => (context.inputMethodEvent event).1)
    (fun context repeatTimer => (hframe context repeatTimer).1) ?_, ?_⟩
  · intro context
    have hsame := congrArg (·.repeatTimer) (hframe context context.repeatTimer).1
    exact hsame
  · rw [h.frame]
    exact (hframe part _).2.symm

theorem repeatKey {after : RepeatedKey κ σ} (h : Alike tokens full part)
    (hafter : full.repeatKey xkb backend = .ok after) :
    ∃ after', part.repeatKey xkb backend = .ok after' ∧ after'.requests = after.requests ∧
      after'.action = after.action ∧ Alike tokens after.context after'.context := by
  unfold InputContext.repeatKey at hafter ⊢
  have hrate : part.repeatRate = full.repeatRate := by rw [h.frame]
  split at hafter
  · cases hafter
  · rename_i repeatRate hsome
    split
    · rename_i hnone
      rw [hrate, hsome] at hnone
      cases hnone
    rename_i repeatRate' hsome'
    obtain rfl : repeatRate = repeatRate' := by
      rw [hrate, hsome] at hsome'
      exact Option.some.inj hsome'
    rcases h.repeatTimer_cases with ⟨hnone, _⟩ |
      ⟨repeating, repeating', htimer, htimer', halike⟩
    · rw [hnone] at hafter
      cases hafter
    · split at hafter
      · cases hafter
      · rename_i repeating₁ htimer₁
        obtain rfl : repeating = repeating₁ := Option.some.inj (htimer.symm.trans htimer₁)
        split
        · rename_i hnone
          rw [htimer'] at hnone
          cases hnone
        rename_i repeating₂ htimer₂
        obtain rfl : repeating' = repeating₂ := Option.some.inj (htimer'.symm.trans htimer₂)
        have hkeycode : repeating'.keycode = repeating.keycode := by rw [halike.frame]
        have htimestamp : repeating'.timestamp = repeating.timestamp := by rw [halike.frame]
        simp only at hafter ⊢
        split at hafter
        · cases hafter
        · rename_i hrunning
          rw [if_neg hrunning]
          split at hafter
          · cases hafter
          · rename_i handledKey hhandle
            have hadvanced : AlikeTimer tokens
                { repeating with
                  timestamp := repeating.timestamp + 1000 / repeatRate.toUInt32 }
                { repeating' with
                  timestamp := repeating'.timestamp + 1000 / repeatRate.toUInt32 } := by
              refine ⟨?_, halike.registration⟩
              rw [hkeycode, htimestamp]
            obtain ⟨handledKey', hhandle', hrequests, hsame, halike', _⟩ :=
              (h.retime hadvanced).handleKey hhandle
            rw [← hkeycode] at hhandle'
            rw [hhandle']
            simp only [hsame]
            split at hafter
            · rename_i hfalse
              rw [if_pos hfalse]
              cases hafter
              refine ⟨_, rfl, ?_, rfl, halike'.stop⟩
              rw [hrequests, hkeycode, htimestamp]
            · rename_i hfalse
              rw [if_neg hfalse]
              cases hafter
              exact ⟨_, rfl, hrequests, rfl, halike'⟩

/-- **A timer that fires** is the same timer on both sides. -/
theorem timerEvent (h : Alike tokens full part)
    (hloops : Loops seatIndex tokens loopHandle loopHandle') {token place : Nat}
    (hplace : tokens[place]? = some token)
    (hhandled : full.timerEvent xkb backend loopHandle token = .ok handled) :
    ∃ handled', part.timerEvent xkb backend loopHandle' place = .ok handled' ∧
      HandledAlike seatIndex tokens loopHandle handled handled' := by
  unfold InputContext.timerEvent at hhandled ⊢
  split at hhandled
  · cases hhandled
  · rename_i after hafter
    obtain ⟨after', hafter', hrequests, haction, halike⟩ := h.repeatKey hafter
    cases hhandled
    rw [hafter']
    refine ⟨_, rfl, ?_⟩
    unfold InputContext.afterTimeout
    simp only [haction]
    split
    · exact .of_same (newTokens_remove _ _ _) halike (hloops.remove hplace) hrequests
    · exact .of_same (newTokens_update _ _ _ _) halike (hloops.update hplace fun _ => rfl)
        hrequests

end Alike

/-! ## §4. The other seats. -/

/-- The timer that the context knows of, if it is still there, is one of its own. -/
def InputContext.OwnsTimer (context : InputContext κ σ) (seatIndex : SeatIndex)
    (loopHandle : TokenMap Timer) : Prop :=
  ∀ repeating, context.repeatTimer = some repeating →
    repeating.registration < loopHandle.next ∧
      ∀ timer, loopHandle.find repeating.registration = some timer → timer.calls seatIndex = true

/-- What a handler of a seat does to the event loop. -/
inductive OwnChange (seatIndex : SeatIndex) (loopHandle : TokenMap Timer) :
    TokenMap Timer → Prop
  | same : OwnChange seatIndex loopHandle loopHandle
  | removed {token : Nat} :
      (∀ timer, loopHandle.find token = some timer → timer.calls seatIndex = true) →
      OwnChange seatIndex loopHandle (loopHandle.remove token)
  | updated {token : Nat} {duration : UInt64} :
      (∀ timer, loopHandle.find token = some timer → timer.calls seatIndex = true) →
      OwnChange seatIndex loopHandle
        (loopHandle.update token fun timer => { timer with duration })
  | registered {duration : UInt64} :
      OwnChange seatIndex loopHandle (loopHandle.register ⟨seatIndex, duration⟩)

section OwnChange

variable {handled : Handled κ σ} {loopHandle' : TokenMap Timer} {other : SeatIndex}

theorem OwnChange.next_le (h : OwnChange seatIndex loopHandle loopHandle') :
    loopHandle.next ≤ loopHandle'.next := by
  cases h with
  | registered => exact Nat.le_succ _
  | _ => exact Nat.le_refl _

/-- No timer changes hands. -/
theorem OwnChange.find (h : OwnChange seatIndex loopHandle loopHandle') {token : Nat}
    {timer : Timer} (hfind : loopHandle'.find token = some timer)
    (hlt : token < loopHandle.next) :
    ∃ timer', loopHandle.find token = some timer' ∧ timer.seatIndex = timer'.seatIndex := by
  cases h with
  | same => exact ⟨timer, hfind, rfl⟩
  | removed =>
      rw [TokenMap.find_remove] at hfind
      split at hfind
      · cases hfind
      · exact ⟨timer, hfind, rfl⟩
  | @updated changed =>
      by_cases heq : token = changed
      · subst heq
        rw [TokenMap.find_update, Option.map_eq_some_iff] at hfind
        obtain ⟨timer', hfind, rfl⟩ := hfind
        exact ⟨timer', hfind, rfl⟩
      · rw [TokenMap.find_update_of_ne _ _ heq] at hfind
        exact ⟨timer, hfind, rfl⟩
  | registered =>
      rw [TokenMap.find_register, if_neg (Nat.ne_of_lt hlt)] at hfind
      exact ⟨timer, hfind, rfl⟩

theorem InputContext.OwnsTimer.change (howns : context.OwnsTimer seatIndex loopHandle)
    (h : OwnChange other loopHandle loopHandle') : context.OwnsTimer seatIndex loopHandle' := by
  intro repeating hrepeating
  obtain ⟨hlt, hcalls⟩ := howns repeating hrepeating
  refine ⟨Nat.lt_of_lt_of_le hlt h.next_le, fun timer hfind => ?_⟩
  obtain ⟨timer', hfind', hseat⟩ := h.find hfind hlt
  have := hcalls timer' hfind'
  unfold Timer.calls at this ⊢
  rwa [hseat]

/-- A context that keeps the token of its timer. -/
theorem InputContext.OwnsTimer.keep {context' : InputContext κ σ}
    (howns : context.OwnsTimer seatIndex loopHandle)
    (hkept : ∀ repeating', context'.repeatTimer = some repeating' →
      ∃ repeating, context.repeatTimer = some repeating ∧
        repeating'.registration = repeating.registration) :
    context'.OwnsTimer seatIndex loopHandle := by
  intro repeating' hrepeating'
  obtain ⟨repeating, hrepeating, heq⟩ := hkept repeating' hrepeating'
  rw [heq]
  exact howns repeating hrepeating

theorem InputContext.ownsTimer_of_none (h : context.repeatTimer = none) :
    context.OwnsTimer seatIndex loopHandle := by
  intro repeating hrepeating
  rw [h] at hrepeating
  cases hrepeating

theorem Press.ownChange {time key : UInt32} {after : HandledKey κ σ}
    (howns : context.OwnsTimer seatIndex loopHandle)
    (hafter : context.handleKey xkb backend (key + scancodeOffset) = .ok after)
    (h : Press xkb seatIndex context loopHandle time key after handled) :
    OwnChange seatIndex loopHandle handled.loopHandle ∧
      handled.context.OwnsTimer seatIndex handled.loopHandle := by
  obtain ⟨_, _, _, hcontext, _⟩ := InputContext.handleKey_ok hafter
  have hsame : after.context.repeatTimer = context.repeatTimer := by rw [hcontext]
  have hkeep : after.context.OwnsTimer seatIndex loopHandle :=
    howns.keep fun repeating h => ⟨repeating, hsame ▸ h, rfl⟩
  cases h with
  | @retargeted repeating _ repeatDelay ht =>
      have hchange : OwnChange seatIndex loopHandle
          (loopHandle.update repeating.registration fun timer =>
            { timer with duration := repeatDelay }) := .updated (howns _ ht).2
      refine ⟨hchange, InputContext.OwnsTimer.change ?_ hchange⟩
      refine howns.keep ?_
      rintro _ ⟨⟩
      exact ⟨_, ht, rfl⟩
  | forgotten => exact ⟨.same, InputContext.ownsTimer_of_none rfl⟩
  | stopped ht => exact ⟨.removed (howns _ ht).2, InputContext.ownsTimer_of_none rfl⟩
  | shutDown => exact ⟨.same, hkeep⟩
  | started =>
      refine ⟨.registered, ?_⟩
      rintro _ ⟨⟩
      refine ⟨Nat.lt_succ_self _, fun timer hfind => ?_⟩
      rw [TokenMap.find_register, if_pos rfl, Option.some.injEq] at hfind
      rw [← hfind]
      exact decide_eq_true rfl
  | kept => exact ⟨.same, hkeep⟩
  | forwarded => exact ⟨.same, hkeep⟩

theorem Release.ownChange {time key : UInt32} (howns : context.OwnsTimer seatIndex loopHandle)
    (h : Release context loopHandle time key handled) :
    OwnChange seatIndex loopHandle handled.loopHandle ∧
      handled.context.OwnsTimer seatIndex handled.loopHandle := by
  cases h with
  | stopped ht => exact ⟨.removed (howns _ ht).2, InputContext.ownsTimer_of_none rfl⟩
  | kept => exact ⟨.same, howns⟩
  | forwarded => exact ⟨.same, howns⟩

/-- **A handler touches the timers of its own seat only.** -/
theorem Handles.ownChange {event : Event} (howns : context.OwnsTimer seatIndex loopHandle)
    (h : Handles xkb backend loopHandle seatIndex context event handled) :
    OwnChange seatIndex loopHandle handled.loopHandle ∧
      handled.context.OwnsTimer seatIndex handled.loopHandle := by
  cases h with
  | keyboardGrab h =>
      cases InputContext.keyboardGrabEvent_ok h with
      | ignored => exact ⟨.same, howns⟩
      | press hafter hpress => exact hpress.ownChange howns hafter
      | release hrelease => exact hrelease.ownChange howns
      | noKey _ hcontext hloop _ =>
          rw [hloop]
          refine ⟨.same, howns.keep fun repeating hrepeating => ⟨repeating, ?_, rfl⟩⟩
          rw [hcontext] at hrepeating
          exact hrepeating
  | inputMethod =>
      refine ⟨.same, howns.keep fun repeating hrepeating => ⟨repeating, ?_, rfl⟩⟩
      obtain ⟨⟨_, _, _, _, _, hcontext⟩, _⟩ := context.inputMethodEvent_frame _
      rw [hcontext] at hrepeating
      exact hrepeating
  | @timer token _ _ hfind hseat h =>
      obtain ⟨after, hrepeat, rfl⟩ := InputContext.timerEvent_ok h
      obtain ⟨repeatRate, repeating, handledKey, _, _, ht, hhandle, hafter⟩ :=
        InputContext.repeatKey_ok hrepeat
      obtain ⟨_, _, _, hcontext, _⟩ := InputContext.handleKey_ok hhandle
      have hcalls : ∀ timer, loopHandle.find token = some timer →
          timer.calls seatIndex = true := by
        intro timer hfind'
        rw [hfind] at hfind'
        cases hfind'
        exact decide_eq_true hseat
      rcases hafter with ⟨_, rfl⟩ | ⟨_, rfl⟩
      · exact ⟨.removed hcalls, InputContext.ownsTimer_of_none rfl⟩
      · have hchange : OwnChange seatIndex loopHandle
            (loopHandle.update token fun timer => { timer with duration := repeatRate }) :=
          .updated hcalls
        refine ⟨hchange, InputContext.OwnsTimer.change ?_ hchange⟩
        refine howns.keep fun repeating' hrepeating' => ⟨repeating, ht, ?_⟩
        rw [hcontext] at hrepeating'
        cases hrepeating'
        rfl

/-- The timers of another seat are left alone. -/
theorem OwnChange.loops {part : TokenMap Timer} (hne : other ≠ seatIndex)
    (hloops : Loops seatIndex tokens loopHandle part)
    (h : OwnChange other loopHandle loopHandle') : Loops seatIndex tokens loopHandle' part := by
  have hother : ∀ {timer : Timer}, timer.calls other = true → timer.calls seatIndex = false := by
    intro timer hcalls
    unfold Timer.calls at hcalls ⊢
    simp only [decide_eq_true_eq, decide_eq_false_iff_not] at hcalls ⊢
    rw [hcalls]
    exact hne
  cases h with
  | same => exact hloops
  | removed h => exact hloops.remove_other fun timer hfind => hother (h timer hfind)
  | updated h =>
      exact hloops.update_other (fun timer hfind => hother (h timer hfind)) fun _ => rfl
  | registered => exact hloops.register_other (hother (decide_eq_true rfl))

theorem OwnChange.newTokens (hne : other ≠ seatIndex)
    (h : OwnChange other loopHandle loopHandle') :
    newTokens seatIndex loopHandle loopHandle' = [] := by
  cases h with
  | same => exact newTokens_self _ _
  | removed => exact newTokens_remove _ _ _
  | updated => exact newTokens_update _ _ _ _
  | registered =>
      rw [newTokens_register, if_neg]
      simpa [Timer.calls] using hne

end OwnChange

/-! ## §5. One seat alone. -/

/-- The whole frontend, and one that has been told of the events of one seat only. -/
structure Alone (seatIndex : SeatIndex) (tokens : List Nat) (full part : State κ σ) : Prop where
  context : Option.Rel (Alike tokens) (full.context? seatIndex) (part.context? seatIndex)
  loops : Loops seatIndex tokens full.loopHandle part.loopHandle
  owns : ∀ other context, full.context? other = some context →
    context.OwnsTimer other full.loopHandle

theorem State.withContext_eq {state : State κ σ} {context : InputContext κ σ}
    {handled : Handled κ σ} {handler : InputContext κ σ → Except (Panic ε) (Handled κ σ)}
    (hcontext : state.context? seatIndex = some context) (hhandler : handler context = .ok handled) :
    state.withContext seatIndex handler
      = .ok (state.put seatIndex handled, handled.requests.map (seatIndex, ·)) := by
  unfold State.withContext State.getContext
  rw [hcontext]
  simp only [hhandler]

namespace Alone

variable {full full' part : State κ σ} {more : List (SeatIndex × Request)}

theorem init (seatIds : List UInt32) :
    Alone seatIndex [] (State.init seatIds : State κ σ) (State.init seatIds) where
  context := by
    cases hcontext : (State.init seatIds : State κ σ).context? seatIndex with
    | none => exact .none
    | some context =>
        have hnone := State.repeatTimer_init hcontext
        exact .some ⟨rfl, by rw [hnone]; exact .none⟩
  loops := .empty rfl rfl
  owns _ _ hcontext := InputContext.ownsTimer_of_none (State.repeatTimer_init hcontext)

/-- The context of the seat on the other side. -/
theorem exists_context (h : Alone seatIndex tokens full part)
    (hcontext : full.context? seatIndex = some context) :
    ∃ context', part.context? seatIndex = some context' ∧ Alike tokens context context' := by
  have hrel := h.context
  rw [hcontext] at hrel
  generalize part.context? seatIndex = context' at hrel
  cases hrel with
  | some halike => exact ⟨_, rfl, halike⟩

/-- The registry tells both sides. -/
theorem registry (h : Alone seatIndex tokens full part) (event : RegistryEvent) :
    Alone seatIndex tokens (full.registryEvent event) (part.registryEvent event) := by
  cases event with
  | seat id => exact ⟨h.context, h.loops, h.owns⟩
  | globalRemove id =>
      refine ⟨?_, h.loops, fun other context hcontext => ?_⟩
      · rw [State.context?_globalRemove, State.context?_globalRemove]
        have hrel := h.context
        generalize full.context? seatIndex = context, part.context? seatIndex = context' at hrel ⊢
        cases hrel with
        | none => exact .none
        | @some context context' halike =>
            have hseatId : context'.seatId = context.seatId := by rw [halike.frame]
            simp only [Option.filter, hseatId]
            split
            · exact .some halike
            · exact .none
      · rw [State.context?_globalRemove] at hcontext
        exact h.owns other context (Option.eq_some_of_filter_eq_some hcontext)

/-- The handler of the seat has done the same on both sides. -/
theorem put {handled handled' : Handled κ σ} {context context' : InputContext κ σ} {event : Event}
    (h : Alone seatIndex tokens full part) (hcontext : full.context? seatIndex = some context)
    (hcontext' : part.context? seatIndex = some context')
    (hhandles : Handles xkb backend full.loopHandle seatIndex context event handled)
    (halike : HandledAlike seatIndex tokens full.loopHandle handled handled') :
    Alone seatIndex (tokens ++ newTokens seatIndex full.loopHandle handled.loopHandle)
      (full.put seatIndex handled) (part.put seatIndex handled') := by
  obtain ⟨hchange, howns⟩ := hhandles.ownChange (h.owns _ _ hcontext)
  refine ⟨?_, halike.loopHandle, fun other context hother => ?_⟩
  · rw [State.context?_put hcontext, State.context?_put hcontext', if_pos rfl, if_pos rfl]
    exact .some halike.context
  · rw [State.context?_put hcontext] at hother
    split at hother
    · rename_i heq
      cases hother
      rw [heq]
      exact howns
    · exact (h.owns other context hother).change hchange

/-- The handler of another seat. -/
theorem put_other {handled : Handled κ σ} {context : InputContext κ σ} {event : Event}
    {other : SeatIndex} (h : Alone seatIndex tokens full part) (hne : other ≠ seatIndex)
    (hcontext : full.context? other = some context)
    (hhandles : Handles xkb backend full.loopHandle other context event handled) :
    Alone seatIndex tokens (full.put other handled) part := by
  obtain ⟨hchange, howns⟩ := hhandles.ownChange (h.owns _ _ hcontext)
  refine ⟨?_, hchange.loops hne h.loops, fun third context hthird => ?_⟩
  · rw [State.context?_put hcontext, if_neg (Ne.symm hne)]
    exact h.context
  · rw [State.context?_put hcontext] at hthird
    split at hthird
    · rename_i heq
      cases hthird
      rw [heq]
      exact howns
    · exact (h.owns third context hthird).change hchange

/-- **One event**: the seat is told of it, and does the same on both sides, or it is not told of
it, and nothing happens to it. -/
theorem step {event : Event} (h : Alone seatIndex tokens full part)
    (hstep : full.dispatch xkb backend event = .ok (full', more)) :
    (∃ event' part' more', event.forSeat seatIndex tokens = some event' ∧
        part.dispatch xkb backend event' = .ok (part', more') ∧
        requestsOf seatIndex more' = requestsOf seatIndex more ∧
        Alone seatIndex (tokens ++ newTokens seatIndex full.loopHandle full'.loopHandle) full' part')
      ∨ event.forSeat seatIndex tokens = none ∧ requestsOf seatIndex more = [] ∧
        Alone seatIndex (tokens ++ newTokens seatIndex full.loopHandle full'.loopHandle) full'
          part := by
  rcases State.dispatch_ok hstep with ⟨registryEvent, rfl, rfl, rfl⟩ | ⟨token, rfl, hnone, rfl, rfl⟩ |
    ⟨other, context, handled, hcontext, hhandles, rfl, rfl⟩
  · left
    refine ⟨_, _, [], rfl, rfl, rfl, ?_⟩
    have hloop : (full.registryEvent registryEvent).loopHandle = full.loopHandle := by
      cases registryEvent <;> rfl
    rw [hloop, newTokens_self, List.append_nil]
    exact h.registry registryEvent
  · -- the timer is not registered, on either side
    rw [newTokens_self, List.append_nil]
    by_cases hmem : token ∈ tokens
    · left
      have hplace : tokens[tokens.idxOf token]? = some token := List.getElem?_idxOf hmem
      refine ⟨.timer (tokens.idxOf token), part, [], if_pos hmem, ?_, rfl, h⟩
      rw [State.dispatch, h.loops.find _ _ hplace, hnone]
    · exact Or.inr ⟨if_neg hmem, rfl, h⟩
  · rw [requestsOf_map]
    by_cases heq : other = seatIndex
    · subst heq
      left
      obtain ⟨context', hcontext', halike⟩ := h.exists_context hcontext
      rw [if_pos rfl]
      have hput : ∀ handled', HandledAlike other tokens full.loopHandle handled handled' →
          Alone other (tokens ++ newTokens other full.loopHandle handled.loopHandle)
            (full.put other handled) (part.put other handled') :=
        fun _ => h.put hcontext hcontext' hhandles
      cases hhandles with
      | @keyboardGrab event _ hgrab =>
          obtain ⟨handled', hhandled', hsame⟩ := halike.keyboardGrabEvent h.loops hgrab
          refine ⟨.keyboardGrab other event, part.put other handled', handled'.requests.map (other, ·),
            by simp [Event.forSeat, Event.seat?], ?_, ?_, hput handled' hsame⟩
          · exact State.withContext_eq hcontext' hhandled'
          · rw [requestsOf_map, if_pos rfl, hsame.requests]
      | @inputMethod event =>
          obtain ⟨hsame, hrequests⟩ := halike.inputMethodEvent event
          let handled' : Handled κ σ :=
            { context := (context'.inputMethodEvent event).1, loopHandle := part.loopHandle
              requests := (context'.inputMethodEvent event).2 }
          refine ⟨.inputMethod other event, part.put other handled', handled'.requests.map (other, ·),
            by simp [Event.forSeat, Event.seat?], ?_, ?_,
            hput handled' (.of_same (newTokens_self _ _) hsame h.loops hrequests)⟩
          · rw [State.dispatch]
            refine State.withContext_eq hcontext' ?_
            rfl
          · rw [requestsOf_map, if_pos rfl]
            exact hrequests
      | @timer token timer _ hfind hseat htimer =>
          have hmem : token ∈ tokens := (h.loops.mem token timer hfind).mpr (decide_eq_true hseat)
          have hplace : tokens[tokens.idxOf token]? = some token := List.getElem?_idxOf hmem
          obtain ⟨handled', hhandled', hsame⟩ := halike.timerEvent h.loops hplace htimer
          refine ⟨.timer (tokens.idxOf token), part.put other handled',
            handled'.requests.map (other, ·), if_pos hmem, ?_, ?_, hput handled' hsame⟩
          · rw [State.dispatch, h.loops.find _ _ hplace, hfind]
            simp only [hseat]
            exact State.withContext_eq hcontext' hhandled'
          · rw [requestsOf_map, if_pos rfl, hsame.requests]
    · right
      have hnew : newTokens seatIndex full.loopHandle (full.put other handled).loopHandle = [] :=
        (hhandles.ownChange (h.owns _ _ hcontext)).1.newTokens heq
      rw [if_neg heq, hnew, List.append_nil]
      refine ⟨?_, rfl, h.put_other heq hcontext hhandles⟩
      cases hhandles with
      | keyboardGrab => simp [Event.forSeat, Event.seat?, heq]
      | inputMethod => simp [Event.forSeat, Event.seat?, heq]
      | @timer token timer _ hfind hseat _ =>
          refine if_neg fun hmem => heq ?_
          have hcalls := (h.loops.mem token timer hfind).mp hmem
          exact hseat.symm.trans (of_decide_eq_true hcalls)

/-- **Every run has the run of one seat in it**, which makes the same requests for it. -/
theorem of_run {seatIds : List UInt32} {events : List (Backend ε × Event)}
    {emitted : List (SeatIndex × Request)} {state : State κ σ} (seatIndex : SeatIndex)
    (hrun : Run (State.dispatchAsking xkb) (fun _ _ _ => True) (State.init seatIds) events emitted
      state) :
    (told xkb seatIndex seatIds events).state = state ∧
      ∃ emitted' state',
        Run (State.dispatchAsking xkb) (fun _ _ _ => True) (State.init seatIds)
            (told xkb seatIndex seatIds events).events emitted' state' ∧
          requestsOf seatIndex emitted' = requestsOf seatIndex emitted ∧
          Alone seatIndex (told xkb seatIndex seatIds events).tokens state state' := by
  induction hrun with
  | nil => exact ⟨rfl, [], _, .nil, rfl, init seatIds⟩
  | @snoc events emitted state event state' more _ hstep _ ih =>
      obtain ⟨rfl, emitted', part, hrun', hrequests, halone⟩ := ih
      obtain ⟨backend, event⟩ := event
      have hstep' : (told xkb seatIndex seatIds events).state.dispatch xkb backend event
          = .ok (state', more) := hstep
      rw [told_append]
      simp only [Told.tell, hstep', requestsOf_append]
      refine ⟨trivial, ?_⟩
      rcases halone.step hstep' with ⟨event', part', more', htold, hpart, hsame, halone'⟩ |
        ⟨htold, hnothing, halone'⟩
      · rw [htold]
        refine ⟨emitted' ++ more', part', .snoc hrun' hpart trivial, ?_, halone'⟩
        rw [requestsOf_append, hrequests, hsame]
      · rw [htold, hnothing]
        refine ⟨emitted', part, ?_, by simp [hrequests], halone'⟩
        simpa using hrun'

end Alone

/-! ## §6. Two runs. -/

/-- A context without the token of its timer, which depends on the other seats. -/
def InputContext.withoutToken (context : InputContext κ σ) : InputContext κ σ :=
  { context with
    repeatTimer := context.repeatTimer.map fun repeating => { repeating with registration := 0 } }

theorem Alike.withoutToken (h : Alike tokens full part) :
    full.withoutToken = part.withoutToken := by
  unfold InputContext.withoutToken
  rcases h.repeatTimer_cases with ⟨hnone, hnone'⟩ | ⟨repeating, repeating', hsome, hsome', htimer⟩
  · rw [h.frame, hnone, hnone']
  · rw [h.frame, hsome, hsome', htimer.frame]
    rfl

theorem Alone.withoutToken {full part : State κ σ} (h : Alone seatIndex tokens full part) :
    (full.context? seatIndex).map InputContext.withoutToken
      = (part.context? seatIndex).map InputContext.withoutToken := by
  have hrel := h.context
  generalize full.context? seatIndex = context, part.context? seatIndex = context' at hrel ⊢
  cases hrel with
  | some halike => exact congrArg some halike.withoutToken
  | none => rfl

/-- **Seats do not interfere**: let two runs start with the same seats, and let a seat be told the
same in both, from the same backends.  It is told of the events that are for it, of all that come
from the registry, also the removal of other seats, and of its own timers.  Then, whatever else
happens to the other seats and in which order, the same is requested for it in both runs, and its
context is the same but for the token of its timer. -/
theorem isolated_of_told {seatIds : List UInt32} {events events' : List (Backend ε × Event)}
    {emitted emitted' : List (SeatIndex × Request)} {state state' : State κ σ}
    (seatIndex : SeatIndex)
    (hrun : Run (State.dispatchAsking xkb) (fun _ _ _ => True) (State.init seatIds) events emitted
      state)
    (hrun' : Run (State.dispatchAsking xkb) (fun _ _ _ => True) (State.init seatIds) events'
      emitted' state')
    (htold : (told xkb seatIndex seatIds events).events
      = (told xkb seatIndex seatIds events').events) :
    requestsOf seatIndex emitted = requestsOf seatIndex emitted' ∧
      (state.context? seatIndex).map InputContext.withoutToken
        = (state'.context? seatIndex).map InputContext.withoutToken := by
  obtain ⟨_, alone, part, hpart, hrequests, halone⟩ := Alone.of_run seatIndex hrun
  obtain ⟨_, alone', part', hpart', hrequests', halone'⟩ := Alone.of_run seatIndex hrun'
  rw [htold] at hpart
  obtain ⟨rfl, rfl⟩ := hpart.unique hpart'
  exact ⟨hrequests.symm.trans hrequests', halone.withoutToken.trans halone'.withoutToken.symm⟩

/-- A key is typed and repeated on the seat 0. -/
def oneSeat : List (Backend Unit × Event) :=
  (setUp ++ [Event.keyboardGrab 0 (.key 7 30 .pressed), Event.timer 0]).map (emptyBackend, ·)

/-- The same, while another seat has the first timer. -/
def twoSeats : List (Backend Unit × Event) :=
  ([Event.inputMethod 1 .activate, Event.inputMethod 1 .done,
    Event.keyboardGrab 1 (.keymap .xkbV1 [] 0), Event.keyboardGrab 1 (.repeatInfo 25 600),
    Event.keyboardGrab 1 (.key 0 30 .pressed)] ++ setUp ++
    [Event.keyboardGrab 0 (.key 7 30 .pressed), Event.timer 0, Event.timer 1]).map (emptyBackend, ·)

theorem isolated_of_told_twoSeats :
    ∃ emitted state emitted' state',
      Run (State.dispatchAsking smallKeyboard) (fun _ _ _ => True) (State.init [1, 2]) oneSeat
          emitted state ∧
        Run (State.dispatchAsking smallKeyboard) (fun _ _ _ => True) (State.init [1, 2]) twoSeats
          emitted' state' ∧
        requestsOf 0 emitted = requestsOf 0 emitted' := by
  have hone : ∃ emitted state, Run (State.dispatchAsking smallKeyboard) (fun _ _ _ => True)
      (State.init [1, 2]) oneSeat emitted state ∧ True :=
    Run.exists_of_exec (fun _ _ => true) (by decide) fun _ _ _ _ => trivial
  have htwo : ∃ emitted state, Run (State.dispatchAsking smallKeyboard) (fun _ _ _ => True)
      (State.init [1, 2]) twoSeats emitted state ∧ True :=
    Run.exists_of_exec (fun _ _ => true) (by decide) fun _ _ _ _ => trivial
  obtain ⟨emitted, state, hrun, _⟩ := hone
  obtain ⟨emitted', state', hrun', _⟩ := htwo
  exact ⟨emitted, state, emitted', state', hrun, hrun', (isolated_of_told 0 hrun hrun' rfl).1⟩

end Shinran.Wayland
