/-
  Shinran.Wayland.Timers
  ──────────────────────
  **REPEAT TIMERS.**

  A context knows of one timer at most, while the event loop holds whatever was
  registered and not removed.

    • `Handles.timerChange`  — what an event does to both of them,
    • `consistent_step_iff`  — a step loses no timer exactly if it is `Tame`,
    • `consistent_of_tame`   — so no run of such steps does,
    • `timer_leaked`         — a run that does, and then comes to a bad end.
-/
import Shinran.Machine
import Shinran.Wayland.Steps

namespace Shinran.Wayland

open Machine (Run)
open InputContext (scancodeOffset)

variable {κ σ ε : Type} {xkb : Xkb κ σ} {backend : Backend ε} {context : InputContext κ σ}
  {loopHandle : TokenMap Timer} {seatIndex : SeatIndex} {handled : Handled κ σ}

/-! ## §1. The timers of a seat. -/

/-- The tokens of the timers that call a seat. -/
def timersOf (loopHandle : TokenMap Timer) (seatIndex : SeatIndex) : List Nat :=
  loopHandle.owned fun timer => timer.seatIndex = seatIndex

theorem mem_timersOf {token : Nat} :
    token ∈ timersOf loopHandle seatIndex ↔
      ∃ timer, loopHandle.find token = some timer ∧ timer.seatIndex = seatIndex := by
  simp [timersOf, TokenMap.mem_owned]

/-- A timer calls one seat only. -/
theorem seatIndex_unique {token : Nat} {seatIndex' : SeatIndex}
    (h : token ∈ timersOf loopHandle seatIndex) (h' : token ∈ timersOf loopHandle seatIndex') :
    seatIndex = seatIndex' := by
  obtain ⟨timer, hfind, rfl⟩ := mem_timersOf.mp h
  obtain ⟨timer', hfind', rfl⟩ := mem_timersOf.mp h'
  rw [hfind] at hfind'
  cases hfind'
  rfl

@[simp] theorem timersOf_update (token : Nat) (duration : UInt64) :
    timersOf (loopHandle.update token fun timer => { timer with duration }) seatIndex
      = timersOf loopHandle seatIndex :=
  TokenMap.owned_update _ _ _ _ fun _ => rfl

theorem timersOf_register (other : SeatIndex) (duration : UInt64) :
    timersOf (loopHandle.register ⟨other, duration⟩) seatIndex
      = timersOf loopHandle seatIndex ++ if other = seatIndex then [loopHandle.next] else [] := by
  rw [timersOf, TokenMap.owned_register]
  simp [timersOf]

theorem timersOf_remove (token : Nat) :
    timersOf (loopHandle.remove token) seatIndex
      = (timersOf loopHandle seatIndex).filter fun token' => token' ≠ token :=
  TokenMap.owned_remove _ _ _

/-- The token of the timer that a context knows of. -/
def InputContext.registration? (context : InputContext κ σ) : Option Nat :=
  context.repeatTimer.map (·.registration)

theorem InputContext.registration?_of_some {repeating : RepeatTimer}
    (h : context.repeatTimer = some repeating) :
    context.registration? = some repeating.registration := by
  rw [InputContext.registration?, h]
  rfl

theorem InputContext.registration?_of_none (h : context.repeatTimer = none) :
    context.registration? = none := by
  rw [InputContext.registration?, h]
  rfl

/-! ## §2. What a step does to timers. -/

/-- A press that loses no timer: a key that is typed while another one is being repeated can be
repeated itself, and a key that is being repeated already is not repeated once more. -/
abbrev InputContext.TamePress (xkb : Xkb κ σ) (context : InputContext κ σ) (keycode : Keycode) :
    Prop :=
  ∀ xkbState ∈ context.xkbState, ∀ keymap ∈ context.xkbKeymap,
    (context.repeatsOther keycode = true → classify xkb xkbState keycode = some true →
      xkb.keyRepeats keymap keycode = true) ∧
    (context.repeatsKey keycode = true → classify xkb xkbState keycode ≠ some false →
      xkb.keyRepeats keymap keycode = false)

/-- An event that loses no timer of the seat. -/
abbrev InputContext.TameEvent (xkb : Xkb κ σ) (context : InputContext κ σ) (event : Event) : Prop :=
  ∀ press ∈ event.press?, context.TamePress xkb (press.2 + scancodeOffset)

theorem InputContext.tameEvent_of_none {event : Event} (h : event.press? = none) :
    context.TameEvent xkb event := by
  intro press hpress
  rw [h] at hpress
  cases hpress

/-- **The changes of timers** at an event of a seat, and which of them are tame. -/
inductive TimerChange (seatIndex : SeatIndex) (context : InputContext κ σ)
    (loopHandle : TokenMap Timer) (handled : Handled κ σ) (tame : Prop) : Prop
  | none :
      handled.context.registration? = context.registration? →
      (∀ other, timersOf handled.loopHandle other = timersOf loopHandle other) → tame →
      TimerChange seatIndex context loopHandle handled tame
  | removed {repeating : RepeatTimer} :
      context.repeatTimer = some repeating → handled.context.repeatTimer = Option.none →
      handled.loopHandle = loopHandle.remove repeating.registration → tame →
      TimerChange seatIndex context loopHandle handled tame
  /-- The timer that fired is removed, whichever it was. -/
  | dropped {repeating : RepeatTimer} {token : Nat} :
      context.repeatTimer = some repeating → handled.context.repeatTimer = Option.none →
      token ∈ timersOf loopHandle seatIndex → handled.loopHandle = loopHandle.remove token → tame →
      TimerChange seatIndex context loopHandle handled tame
  /-- The context forgets a timer that stays with the loop. -/
  | forgotten {repeating : RepeatTimer} :
      context.repeatTimer = some repeating → handled.context.repeatTimer = Option.none →
      handled.loopHandle = loopHandle → ¬ tame →
      TimerChange seatIndex context loopHandle handled tame
  | started {repeatDelay : UInt64} :
      handled.context.registration? = some loopHandle.next →
      handled.loopHandle = loopHandle.register ⟨seatIndex, repeatDelay⟩ →
      (tame ↔ context.repeatTimer = Option.none) →
      TimerChange seatIndex context loopHandle handled tame

theorem repeatsOther_of_ne {repeating : RepeatTimer} {keycode : Keycode}
    (ht : context.repeatTimer = some repeating) (hk : repeating.keycode ≠ keycode) :
    context.repeatsOther keycode = true ∧ context.repeatsKey keycode = false := by
  simp [InputContext.repeatsOther, InputContext.repeatsKey, ht, hk]

theorem repeatTimer_cases {keycode : Keycode} (h : context.repeatsOther keycode = false) :
    context.repeatTimer = none ∨ context.repeatsKey keycode = true := by
  cases ht : context.repeatTimer with
  | none => exact Or.inl rfl
  | some repeating =>
      right
      simpa [InputContext.repeatsOther, InputContext.repeatsKey, ht] using h

section PressedKey

variable {keycode : Keycode} {after : HandledKey κ σ}

/-- Whether a press is tame, told by what `handle_key` made of it. -/
theorem InputContext.tamePress_iff {keymap : κ}
    (hafter : context.handleKey xkb backend keycode = .ok after)
    (hkeymap : after.context.xkbKeymap = some keymap) :
    context.TamePress xkb keycode ↔
      (context.repeatsOther keycode = true → after.handled = some true →
        xkb.keyRepeats keymap keycode = true) ∧
      (context.repeatsKey keycode = true → after.handled ≠ some false →
        xkb.keyRepeats keymap keycode = false) := by
  obtain ⟨xkbState, hx, hclass, hcontext, _⟩ := InputContext.handleKey_ok hafter
  have hk : context.xkbKeymap = some keymap := by
    rw [← hkeymap, hcontext]
  unfold InputContext.TamePress
  rw [hclass]
  constructor
  · intro h
    exact h xkbState hx keymap hk
  · intro h xkbState' hx' keymap' hk'
    rw [hx] at hx'
    rw [hk] at hk'
    cases hx'
    cases hk'
    exact h

/-- A press that is not kept loses no timer, whatever the keymap. -/
theorem InputContext.tamePress_of_handled
    (hafter : context.handleKey xkb backend keycode = .ok after)
    (hother : context.repeatsOther keycode = true → after.handled ≠ some true)
    (hkey : context.repeatsKey keycode = true → after.handled = some false) :
    context.TamePress xkb keycode := by
  obtain ⟨_, _, _, hcontext, _⟩ := InputContext.handleKey_ok hafter
  intro xkbState hx keymap hk
  have hkeymap : after.context.xkbKeymap = some keymap := by
    rw [hcontext]
    exact hk
  have htame : context.TamePress xkb keycode := by
    rw [InputContext.tamePress_iff hafter hkeymap]
    constructor
    · intro h htrue
      exact absurd htrue (hother h)
    · intro h hne
      exact absurd (hkey h) hne
  exact htame xkbState hx keymap hk

end PressedKey

theorem Press.timerChange {time key : UInt32} {after : HandledKey κ σ}
    (hafter : context.handleKey xkb backend (key + scancodeOffset) = .ok after)
    (h : Press xkb seatIndex context loopHandle time key after handled) :
    TimerChange seatIndex context loopHandle handled
      (context.TamePress xkb (key + scancodeOffset)) := by
  obtain ⟨_, _, _, hcontext, _⟩ := InputContext.handleKey_ok hafter
  have hregistration : after.context.registration? = context.registration? := by
    rw [InputContext.registration?, hcontext]
    rfl
  cases h with
  | retargeted ht hne hhandled hk hrepeats _ =>
      obtain ⟨_, hkey⟩ := repeatsOther_of_ne ht hne
      refine .none ?_ (fun _ => timersOf_update _ _) ?_
      · rw [InputContext.registration?_of_some ht]
        rfl
      · rw [InputContext.tamePress_iff hafter hk]
        exact ⟨fun _ _ => hrepeats, by simp [hkey]⟩
  | forgotten ht hne hhandled hk hrepeats =>
      obtain ⟨hother, _⟩ := repeatsOther_of_ne ht hne
      refine .forgotten ht rfl rfl ?_
      intro h
      have hkept := ((InputContext.tamePress_iff hafter hk).mp h).1 hother hhandled
      rw [hrepeats] at hkept
      cases hkept
  | stopped ht hne hhandled =>
      refine .removed ht rfl rfl (InputContext.tamePress_of_handled hafter ?_ fun _ => hhandled)
      simp [hhandled]
  | shutDown ht hne hhandled =>
      obtain ⟨_, hkey⟩ := repeatsOther_of_ne ht hne
      refine .none hregistration (fun _ => rfl) (InputContext.tamePress_of_handled hafter ?_ ?_)
      · simp [hhandled]
      · simp [hkey]
  | started hother hhandled hk hrepeats _ =>
      refine .started rfl rfl ?_
      rw [InputContext.tamePress_iff hafter hk]
      constructor
      · rintro ⟨_, hkey⟩
        rcases repeatTimer_cases hother with hnone | hthis
        · exact hnone
        · rw [hkey hthis hhandled] at hrepeats
          cases hrepeats
      · intro hnone
        simp [InputContext.repeatsOther, InputContext.repeatsKey, hnone]
  | kept hother hhandled hk hrepeats =>
      refine .none hregistration (fun _ => rfl) ?_
      rw [InputContext.tamePress_iff hafter hk]
      exact ⟨by simp [hother], fun _ _ => hrepeats⟩
  | forwarded hother hhandled =>
      refine .none hregistration (fun _ => rfl)
        (InputContext.tamePress_of_handled hafter ?_ fun _ => hhandled)
      simp [hhandled]

theorem Release.timerChange {time key : UInt32}
    (h : Release context loopHandle time key handled) :
    TimerChange seatIndex context loopHandle handled True := by
  cases h with
  | stopped ht _ => exact .removed ht rfl rfl trivial
  | kept => exact .none rfl (fun _ => rfl) trivial
  | forwarded => exact .none rfl (fun _ => rfl) trivial

/-- **What an event does to the timers** of a seat. -/
theorem Handles.timerChange {event : Event}
    (h : Handles xkb backend loopHandle seatIndex context event handled) :
    TimerChange seatIndex context loopHandle handled (context.TameEvent xkb event) := by
  cases h with
  | @keyboardGrab event _ h =>
      cases InputContext.keyboardGrabEvent_ok h with
      | ignored hnone =>
          refine .none rfl (fun _ => rfl) ?_
          intro press _ xkbState hx
          rw [hnone] at hx
          cases hx
      | @press time key after _ hafter hpress =>
          have htame : context.TameEvent xkb (.keyboardGrab seatIndex (.key time key .pressed))
              ↔ context.TamePress xkb (key + scancodeOffset) := by
            simp [InputContext.TameEvent, Event.press?]
          rw [htame]
          exact hpress.timerChange hafter
      | release hrelease =>
          rw [iff_true_intro (InputContext.tameEvent_of_none rfl)]
          exact hrelease.timerChange
      | noKey hevent hcontext hloop _ =>
          refine .none ?_ (fun _ => by rw [hloop]) ?_
          · rw [hcontext]
            rfl
          · cases event with
            | key time key keyState => exact absurd rfl (hevent time key keyState)
            | _ => exact InputContext.tameEvent_of_none rfl
  | @inputMethod event =>
      obtain ⟨⟨_, _, _, _, _, hcontext⟩, _⟩ := context.inputMethodEvent_frame event
      exact .none (by rw [hcontext]; rfl) (fun _ => rfl) (InputContext.tameEvent_of_none rfl)
  | timer hfind hseat h =>
      obtain ⟨after, hrepeat, rfl⟩ := InputContext.timerEvent_ok h
      obtain ⟨_, repeating, handled, _, _, ht, hhandle, hafter⟩ := InputContext.repeatKey_ok hrepeat
      obtain ⟨_, _, _, hcontext, _⟩ := InputContext.handleKey_ok hhandle
      rcases hafter with ⟨_, rfl⟩ | ⟨_, rfl⟩
      · exact .dropped ht rfl (mem_timersOf.mpr ⟨_, hfind, hseat⟩) rfl
          (InputContext.tameEvent_of_none rfl)
      · refine .none ?_ (fun _ => timersOf_update _ _) (InputContext.tameEvent_of_none rfl)
        show handled.context.registration? = _
        rw [hcontext, InputContext.registration?_of_some ht]
        rfl

/-! ## §3. No timer is lost. -/

namespace State

/-- **Consistency**: for each seat, the event loop holds the timer that the context knows of,
and no other. -/
def Consistent (state : State κ σ) : Prop :=
  ∀ seatIndex context, state.context? seatIndex = some context →
    timersOf state.loopHandle seatIndex = context.registration?.toList

/-- An event that loses no timer. -/
def Tame (xkb : Xkb κ σ) (state : State κ σ) (event : Event) : Prop :=
  ∀ press ∈ event.press?, ∀ context ∈ state.context? press.1,
    context.TamePress xkb (press.2 + scancodeOffset)

instance (state : State κ σ) (event : Event) : Decidable (state.Tame xkb event) :=
  inferInstanceAs (Decidable (∀ press ∈ event.press?, ∀ context ∈ state.context? press.1,
    context.TamePress xkb (press.2 + scancodeOffset)))

variable {state state' : State κ σ} {event : Event} {requests : List (SeatIndex × Request)}

theorem consistent_init (seatIds : List UInt32) : (init seatIds : State κ σ).Consistent := by
  intro seatIndex context hcontext
  rw [InputContext.registration?_of_none (repeatTimer_init hcontext)]
  rfl

/-- The timers of the other seats stay, if only a timer of this seat is removed. -/
theorem timersOf_remove_other {token : Nat} {other : SeatIndex} (hne : other ≠ seatIndex)
    (h : token ∈ timersOf loopHandle seatIndex) :
    timersOf (loopHandle.remove token) other = timersOf loopHandle other := by
  rw [timersOf_remove]
  refine List.filter_eq_self.mpr ?_
  intro token' hother
  have hdiff : token' ≠ token := by
    rintro rfl
    exact hne (seatIndex_unique hother h)
  simpa using hdiff

/-- What has to be shown of a seat, once the others are seen to be left alone. -/
theorem consistent_put_of_others (hconsistent : state.Consistent)
    (hcontext : state.context? seatIndex = some context)
    (hothers : ∀ other, other ≠ seatIndex →
      timersOf handled.loopHandle other = timersOf state.loopHandle other) :
    (state.put seatIndex handled).Consistent ↔
      timersOf handled.loopHandle seatIndex = handled.context.registration?.toList := by
  constructor
  · intro hput
    exact hput seatIndex handled.context (by rw [context?_put hcontext, if_pos rfl])
  · intro hseat other context' hcontext'
    rw [context?_put hcontext] at hcontext'
    by_cases heq : other = seatIndex
    · rw [if_pos heq] at hcontext'
      cases hcontext'
      rw [heq]
      exact hseat
    · rw [if_neg heq] at hcontext'
      exact (hothers other heq).trans (hconsistent other context' hcontext')

/-- The timers of the other seats stay. -/
theorem others_of_timerChange {tame : Prop} {other : SeatIndex} (hne : other ≠ seatIndex)
    (hthis : timersOf loopHandle seatIndex = context.registration?.toList)
    (h : TimerChange seatIndex context loopHandle handled tame) :
    timersOf handled.loopHandle other = timersOf loopHandle other := by
  cases h with
  | none _ hloop => exact hloop other
  | removed ht _ hloop =>
      rw [hloop]
      refine timersOf_remove_other hne ?_
      rw [hthis, InputContext.registration?_of_some ht]
      exact List.mem_singleton_self _
  | dropped _ _ hmem hloop =>
      rw [hloop]
      exact timersOf_remove_other hne hmem
  | forgotten _ _ hloop => rw [hloop]
  | started _ hloop =>
      rw [hloop, timersOf_register, if_neg (Ne.symm hne), List.append_nil]

theorem consistent_put_iff {tame : Prop} (hconsistent : state.Consistent)
    (hcontext : state.context? seatIndex = some context)
    (h : TimerChange seatIndex context state.loopHandle handled tame) :
    (state.put seatIndex handled).Consistent ↔ tame := by
  have hthis := hconsistent seatIndex context hcontext
  rw [consistent_put_of_others hconsistent hcontext
    fun other hne => others_of_timerChange hne hthis h]
  cases h with
  | none hregistration hloop htame =>
      rw [hloop, hregistration]
      exact iff_of_true hthis htame
  | removed ht hnone hloop htame =>
      rw [InputContext.registration?_of_some ht] at hthis
      rw [hloop, timersOf_remove, hthis, InputContext.registration?_of_none hnone]
      exact iff_of_true (by simp) htame
  | dropped ht hnone hmem hloop htame =>
      rw [InputContext.registration?_of_some ht] at hthis
      have htoken := hthis ▸ hmem
      rw [hloop, timersOf_remove, hthis, InputContext.registration?_of_none hnone]
      exact iff_of_true (by simpa using (List.mem_singleton.mp htoken).symm) htame
  | forgotten ht hnone hloop htame =>
      rw [InputContext.registration?_of_some ht] at hthis
      rw [hloop, hthis, InputContext.registration?_of_none hnone]
      exact iff_of_false (by simp) htame
  | started hregistration hloop htame =>
      rw [hloop, timersOf_register, if_pos rfl, hregistration, hthis, htame]
      cases ht : context.repeatTimer with
      | none => simp [InputContext.registration?, ht]
      | some repeating => simp [InputContext.registration?, ht]

theorem consistent_registryEvent (hconsistent : state.Consistent) (event : RegistryEvent) :
    (state.registryEvent event).Consistent := by
  intro seatIndex context hcontext
  cases event with
  | seat id => exact hconsistent seatIndex context hcontext
  | globalRemove id =>
      rw [context?_globalRemove] at hcontext
      exact hconsistent seatIndex context (Option.eq_some_of_filter_eq_some hcontext)

theorem tame_of_none (h : event.press? = none) : state.Tame xkb event := by
  intro press hpress
  rw [h] at hpress
  cases hpress

/-- An event that a context handles is as tame as the context finds it. -/
theorem tame_iff (hcontext : state.context? seatIndex = some context)
    (h : Handles xkb backend loopHandle seatIndex context event handled) :
    state.Tame xkb event ↔ context.TameEvent xkb event := by
  cases hpress : event.press? with
  | none => exact iff_of_true (tame_of_none hpress) (InputContext.tameEvent_of_none hpress)
  | some press =>
      have hseat : press.1 = seatIndex := by
        cases h with
        | @keyboardGrab grabEvent =>
            cases grabEvent with
            | key time key keyState =>
                cases keyState with
                | pressed => cases hpress; rfl
                | released => cases hpress
            | _ => cases hpress
        | inputMethod => cases hpress
        | timer => cases hpress
      simp only [Tame, InputContext.TameEvent, hpress, Option.mem_some_iff, forall_eq', hseat,
        hcontext]

/-- **A step loses no timer exactly if it is tame.** -/
theorem consistent_step_iff (hconsistent : state.Consistent)
    (h : state.dispatch xkb backend event = .ok (state', requests)) :
    state'.Consistent ↔ state.Tame xkb event := by
  rcases dispatch_ok h with ⟨registryEvent, rfl, rfl, _⟩ | ⟨token, rfl, _, rfl, _⟩ |
    ⟨seatIndex, context, handled, hcontext, hhandles, rfl, _⟩
  · exact iff_of_true (consistent_registryEvent hconsistent _) (tame_of_none rfl)
  · exact iff_of_true hconsistent (tame_of_none rfl)
  · rw [tame_iff hcontext hhandles]
    exact consistent_put_iff hconsistent hcontext hhandles.timerChange

/-- A timer that fires finds what it repeats. -/
theorem timer_ne_noRepeatTimer (hconsistent : state.Consistent) (token : Nat) :
    state.dispatch xkb backend (.timer token) ≠ .error .noRepeatTimer := by
  intro h
  obtain ⟨timer, hfind, ⟨_, hpanic⟩ | ⟨context, hcontext, hrepeat⟩⟩ := dispatch_timer_error h
  · cases hpanic
  · have hnone := (InputContext.repeatKey_error hrepeat).2 rfl
    have hmem : token ∈ timersOf state.loopHandle timer.seatIndex :=
      mem_timersOf.mpr ⟨timer, hfind, rfl⟩
    rw [hconsistent _ _ hcontext, InputContext.registration?_of_none hnone] at hmem
    cases hmem

end State

/-- **Repeat timers are consistent** in every state of a run whose steps are all tame: the event
loop holds the timers that the contexts know of and no others, none of them fires in vain, and
the next step keeps it that way exactly if it is tame as well. -/
theorem consistent_of_tame {seatIds : List UInt32} {state : State κ σ} {events : List Event}
    {requests : List (SeatIndex × Request)}
    (hrun : Run (State.dispatch xkb backend) (fun _ state event => state.Tame xkb event)
      (State.init seatIds) events requests state) :
    state.Consistent ∧
      (∀ token, state.dispatch xkb backend (.timer token) ≠ .error .noRepeatTimer) ∧
      ∀ event state' more, state.dispatch xkb backend event = .ok (state', more) →
        (state'.Consistent ↔ state.Tame xkb event) := by
  have hconsistent : state.Consistent := by
    refine hrun.invariant (fun _ _ state => state.Consistent) (State.consistent_init seatIds) ?_
    intro _ _ _ _ _ _ hconsistent htame hstep
    exact (State.consistent_step_iff hconsistent hstep).mpr htame
  refine ⟨hconsistent, State.timer_ne_noRepeatTimer hconsistent, ?_⟩
  intro event state' more hstep
  exact State.consistent_step_iff hconsistent hstep

/-- Such a run, in which `A` is repeated. -/
theorem consistent_of_tame_repeat :
    ∃ requests state,
      Run (State.dispatch smallKeyboard emptyBackend)
        (fun _ state event => state.Tame smallKeyboard event) (State.init [1])
        (setUp ++ [.keyboardGrab 0 (.key 0 30 .pressed), .timer 0]) requests state ∧
      state.Consistent ∧ timersOf state.loopHandle 0 = [0] := by
  refine Run.exists_of_exec (fun _ state => timersOf state.loopHandle 0 = [0]) (by decide) ?_
  intro requests state hrun htimers
  exact ⟨(consistent_of_tame hrun).1, of_decide_eq_true htimers⟩

/-- **A timer is lost**: the seat is deactivated while `A` is repeated and activated again, and
`A` is pressed anew.  Its release leaves a timer that is then called with nothing to repeat. -/
theorem timer_leaked :
    ∃ requests state, Run (State.dispatch smallKeyboard emptyBackend) (fun _ _ _ => True)
      (State.init [1])
      (setUp ++ [.keyboardGrab 0 (.key 0 30 .pressed), .inputMethod 0 .deactivate,
        .inputMethod 0 .done, .inputMethod 0 .activate, .inputMethod 0 .done,
        .keyboardGrab 0 (.key 9 30 .pressed), .keyboardGrab 0 (.key 9 30 .released)])
      requests state ∧ ¬ state.Consistent ∧
      state.dispatch smallKeyboard emptyBackend (.timer 0) = .error .noRepeatTimer := by
  refine Run.exists_of_exec (fun _ state => timersOf state.loopHandle 0 = [0] ∧
    (state.context? 0).map (·.registration?) = some none ∧
    state.dispatch smallKeyboard emptyBackend (.timer 0) = .error .noRepeatTimer) (by decide) ?_
  intro requests state _ htest
  obtain ⟨htimers, hnone, hpanic⟩ := of_decide_eq_true htest
  refine ⟨?_, hpanic⟩
  intro hconsistent
  obtain ⟨context, hcontext, hregistration⟩ := Option.map_eq_some_iff.mp hnone
  have := hconsistent 0 context hcontext
  rw [htimers, hregistration] at this
  cases this

end Shinran.Wayland
