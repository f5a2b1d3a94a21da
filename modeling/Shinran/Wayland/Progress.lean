/-
  Shinran.Wayland.Progress
  ────────────────────────
  **THE FRONTEND COMES TO NO BAD END.**

  The handlers panic on whatever they do not expect.  What they expect is put
  together here: of the compositor that it sends known values only, a keymap
  that can be read, and the speed of repetition before the first key; of the
  user that no timer is lost; and of the backend that it answers.

    • `InputContext.Ready`    — what a context needs in order to go on,
    • `Handles.ready`         — every expected event leaves it so,
    • `exists_dispatch`       — and every expected event can be handled,
    • `progress_of_run`       — so no run of such events ends in a panic.
-/
import Shinran.Fallible
import Shinran.Wayland.Preedit
import Shinran.Wayland.RepeatTiming
import Shinran.Wayland.SeatRemoval

namespace Shinran.Wayland

open Machine (Run)
open InputContext (scancodeOffset fromMillis)

variable {κ σ ε : Type} {xkb : Xkb κ σ} {backend : Backend ε} {context : InputContext κ σ}
  {loopHandle : TokenMap Timer} {seatIndex : SeatIndex} {handled : Handled κ σ}

/-! ## §1. What is expected. -/

/-- The values of an event that the handlers can do with. -/
def Event.valid (xkb : Xkb κ σ) : Event → Bool
  | .unknown _ _ => false
  | .keyboardGrab _ (.keymap .xkbV1 fd size) => (xkb.newFromFd fd size).toOption.join.isSome
  | .keyboardGrab _ (.repeatInfo rate _) => 0 < rate
  | _ => true

/-- Whether the event tells how fast the keys of the seat are repeated. -/
def Event.informs (seatIndex : SeatIndex) : Event → Bool
  | .keyboardGrab other (.repeatInfo _ _) => other = seatIndex
  | _ => false

/-- The seat has been told how fast its keys are repeated. -/
def Informed (seatIndex : SeatIndex) (history : List (Backend ε × Event)) : Prop :=
  ∃ earlier ∈ history, earlier.2.informs seatIndex = true

instance (seatIndex : SeatIndex) (history : List (Backend ε × Event)) :
    Decidable (Informed seatIndex history) :=
  inferInstanceAs (Decidable (∃ earlier ∈ history, earlier.2.informs seatIndex = true))

/-- What has been typed so far on any seat. -/
def State.buffers (state : State κ σ) : List String :=
  state.contexts.filterMap fun slot => slot.bind (·.buffer)

/-- **What the frontend expects** of the events that it gets, one after another. -/
structure Expected (xkb : Xkb κ σ) (seatIds : List UInt32) (history : List (Backend ε × Event))
    (state : State κ σ) (event : Backend ε × Event) : Prop where
  valid : event.2.valid xkb = true
  informed : ∀ press ∈ event.2.press?, Informed press.1 history
  tame : state.Tame xkb event.2
  orderly : Orderly seatIds (history.map Prod.snd) state event.2
  /-- The backend answers for whatever has been typed. -/
  answers : ∀ text ∈ state.buffers, (event.1.checkTrigger text).isOk = true

theorem expected_iff {seatIds : List UInt32} {history : List (Backend ε × Event)}
    {state : State κ σ} {event : Backend ε × Event} :
    Expected xkb seatIds history state event
      ↔ event.2.valid xkb = true ∧ (∀ press ∈ event.2.press?, Informed press.1 history)
        ∧ state.Tame xkb event.2 ∧ Orderly seatIds (history.map Prod.snd) state event.2
        ∧ ∀ text ∈ state.buffers, (event.1.checkTrigger text).isOk = true :=
  ⟨fun h => ⟨h.valid, h.informed, h.tame, h.orderly, h.answers⟩,
    fun ⟨hvalid, hinformed, htame, horderly, hanswers⟩ =>
      ⟨hvalid, hinformed, htame, horderly, hanswers⟩⟩

instance (seatIds : List UInt32) (history : List (Backend ε × Event)) (state : State κ σ)
    (event : Backend ε × Event) : Decidable (Expected xkb seatIds history state event) :=
  decidable_of_iff' _ expected_iff

/-- The backend answers for what has been typed on one seat. -/
def InputContext.Answers (backend : Backend ε) (context : InputContext κ σ) : Prop :=
  ∀ text ∈ context.buffer, ∃ output, backend.checkTrigger text = .ok output

theorem Expected.answersFor {seatIds : List UInt32} {history : List (Backend ε × Event)}
    {state : State κ σ} {event : Backend ε × Event}
    (h : Expected xkb seatIds history state event)
    (hcontext : state.context? seatIndex = some context) : context.Answers event.1 := by
  intro text htext
  have hmem : text ∈ state.buffers := by
    refine List.mem_filterMap.mpr ⟨some context, ?_, htext⟩
    exact List.mem_of_getElem? (Option.join_eq_some_iff.mp hcontext)
  have hok := h.answers text hmem
  cases hanswer : event.1.checkTrigger text with
  | error error =>
      rw [hanswer] at hok
      cases hok
  | ok output => exact ⟨output, rfl⟩

theorem Event.exists_keymap {fd : Fd} {size : UInt32}
    (h : (Event.keyboardGrab seatIndex (.keymap .xkbV1 fd size)).valid xkb = true) :
    ∃ keymap, xkb.newFromFd fd size = .ok (some keymap) := by
  obtain ⟨keymap, hkeymap⟩ := Option.isSome_iff_exists.mp h
  exact ⟨keymap, toOption_eq_some_iff.mp (Option.join_eq_some_iff.mp hkeymap)⟩

/-! ## §2. What a context needs. -/

/-- What a context needs in order to go on, whether or not it has been told the speed. -/
structure InputContext.Ready (told : Prop) (context : InputContext κ σ) : Prop where
  keymap : context.xkbState.isSome → context.xkbKeymap.isSome
  rate : ∀ repeatRate ∈ context.repeatRate, repeatRate.toUInt32 ≠ 0
  delay : told → context.repeatDelay.isSome
  rate_of_delay : context.repeatDelay.isSome → context.repeatRate.isSome
  /-- A key is repeated only if there is a keyboard for it, and a speed. -/
  repeating : context.repeatTimer.isSome → context.xkbState.isSome ∧ context.repeatDelay.isSome

theorem InputContext.ready_fresh (seatId : UInt32) :
    InputContext.Ready False ({ seatId } : InputContext κ σ) :=
  ⟨by simp, by simp, False.elim, by simp, by simp⟩

/-- The keyboard and the speed stay as they are, and only what can be repeated is. -/
theorem InputContext.Ready.keep {told : Prop} {context' : InputContext κ σ}
    (h : context.Ready told) (hkeymap : context'.xkbKeymap = context.xkbKeymap)
    (hstate : context'.xkbState = context.xkbState)
    (hrate : context'.repeatRate = context.repeatRate)
    (hdelay : context'.repeatDelay = context.repeatDelay)
    (hrepeating : context'.repeatTimer.isSome →
      context.xkbState.isSome ∧ context.repeatDelay.isSome) : context'.Ready told where
  keymap := by rw [hstate, hkeymap]; exact h.keymap
  rate := by rw [hrate]; exact h.rate
  delay := by rw [hdelay]; exact h.delay
  rate_of_delay := by rw [hdelay, hrate]; exact h.rate_of_delay
  repeating := by rw [hstate, hdelay]; exact hrepeating

theorem InputContext.Ready.mono {told told' : Prop} (h : context.Ready told)
    (himp : told' → told) : context.Ready told' :=
  ⟨h.keymap, h.rate, fun htold => h.delay (himp htold), h.rate_of_delay, h.repeating⟩

theorem ne_zero_fromMillis {rate : Int32} (h : 0 < rate) : (fromMillis rate).toUInt32 ≠ 0 := by
  intro hzero
  have hnat := toNat_toUInt32_fromMillis (Int32.le_of_lt h)
  rw [hzero] at hnat
  have hint : 0 < rate.toInt := Int32.lt_iff_toInt_lt.mp h
  have hclamp : rate.toNatClampNeg = rate.toInt.toNat := rfl
  rw [hclamp] at hnat
  have hpos : 0 < rate.toInt.toNat := by omega
  rw [← hnat] at hpos
  exact absurd hpos (by decide)

/-! ## §3. Every expected event leaves it so. -/

theorem Press.ready {told : Prop} {time key : UInt32} {after : HandledKey κ σ}
    (hready : context.Ready told)
    (hafter : context.handleKey xkb backend (key + scancodeOffset) = .ok after)
    (h : Press xkb seatIndex context loopHandle time key after handled) :
    handled.context.Ready told := by
  obtain ⟨xkbState, hstate, _, hcontext, _⟩ := InputContext.handleKey_ok hafter
  have hsome : context.xkbState.isSome := by rw [hstate]; rfl
  have hdelay : after.context.repeatDelay = context.repeatDelay := by rw [hcontext]
  have hkept : after.context.Ready told := by
    rw [hcontext]
    exact hready.keep rfl rfl rfl rfl hready.repeating
  have hstate' : after.context.xkbState.isSome := by rw [hcontext]; exact hsome
  cases h with
  | retargeted _ _ _ _ _ hsome' =>
      exact hkept.keep rfl rfl rfl rfl fun _ => ⟨hstate', by rw [hsome']; rfl⟩
  | forgotten => exact hkept.keep rfl rfl rfl rfl (by simp)
  | stopped => exact hkept.keep rfl rfl rfl rfl (by simp)
  | shutDown => exact hkept
  | started _ _ _ _ hsome' =>
      exact hkept.keep rfl rfl rfl rfl fun _ => ⟨hstate', by rw [hsome']; rfl⟩
  | kept => exact hkept.keep rfl rfl rfl rfl hkept.repeating
  | forwarded => exact hkept

theorem Release.ready {told : Prop} {time key : UInt32} (hready : context.Ready told)
    (h : Release context loopHandle time key handled) : handled.context.Ready told := by
  cases h with
  | stopped => exact hready.keep rfl rfl rfl rfl (by simp)
  | kept => exact hready.keep rfl rfl rfl rfl hready.repeating
  | forwarded => exact hready

/-- **Every event of the keyboard grab** with valid values leaves the context ready. -/
theorem keyboardGrabEvent_ready {told : Prop} {event : GrabEvent} (hready : context.Ready told)
    (hvalid : (Event.keyboardGrab seatIndex event).valid xkb = true)
    (h : context.keyboardGrabEvent xkb backend seatIndex loopHandle event = .ok handled) :
    handled.context.Ready
      (told ∨ (Event.keyboardGrab seatIndex event).informs seatIndex = true) := by
  cases event with
  | key time key keyState =>
      have hkept : handled.context.Ready told := by
        cases InputContext.keyboardGrabEvent_ok h with
        | ignored => exact hready
        | press hafter hpress => exact hpress.ready hready hafter
        | release hrelease => exact hrelease.ready hready
        | noKey hkey => exact absurd rfl (hkey time key keyState)
      exact hkept.mono (by simp [Event.informs])
  | modifiers depressed latched locked group =>
      unfold InputContext.keyboardGrabEvent at h
      simp only at h
      split at h
      · cases h
        exact hready.mono (by simp [Event.informs])
      · rename_i xkbState hstate
        cases h
        have hsome : context.xkbState.isSome := by rw [hstate]; rfl
        exact ⟨fun _ => hready.keymap hsome, hready.rate,
          fun htold => hready.delay (by simpa [Event.informs] using htold), hready.rate_of_delay,
          fun hrepeating => ⟨rfl, (hready.repeating hrepeating).2⟩⟩
  | keymap format fd size =>
      unfold InputContext.keyboardGrabEvent InputContext.keymapEvent at h
      simp only at h
      cases format with
      | noKeymap =>
          cases h
          exact hready.mono (by simp [Event.informs])
      | xkbV1 =>
          obtain ⟨keymap, hkeymap⟩ := Event.exists_keymap hvalid
          simp only [hkeymap] at h
          cases h
          exact ⟨fun _ => rfl, hready.rate,
            fun htold => hready.delay (by simpa [Event.informs] using htold), hready.rate_of_delay,
            fun hrepeating => ⟨rfl, (hready.repeating hrepeating).2⟩⟩
  | repeatInfo rate delay =>
      cases h
      refine ⟨hready.keymap, ?_, fun _ => rfl, fun _ => rfl,
        fun hrepeating => ⟨(hready.repeating hrepeating).1, rfl⟩⟩
      intro repeatRate hrate
      cases hrate
      exact ne_zero_fromMillis (of_decide_eq_true hvalid)

/-- **Every expected event** leaves its context ready. -/
theorem Handles.ready {told : Prop} {event : Event} (hready : context.Ready told)
    (hvalid : event.valid xkb = true)
    (h : Handles xkb backend loopHandle seatIndex context event handled) :
    handled.context.Ready (told ∨ event.informs seatIndex = true) := by
  cases h with
  | keyboardGrab h => exact keyboardGrabEvent_ready hready hvalid h
  | @inputMethod event =>
      obtain ⟨⟨_, _, _, _, _, hcontext⟩, _⟩ := context.inputMethodEvent_frame event
      have hkept : (context.inputMethodEvent event).1.Ready told := by
        rw [hcontext]
        exact hready.keep rfl rfl rfl rfl hready.repeating
      exact hkept.mono (by simp [Event.informs])
  | timer _ _ h =>
      obtain ⟨after, hrepeat, rfl⟩ := InputContext.timerEvent_ok h
      obtain ⟨_, repeating, handledKey, _, _, hrepeating, hhandle, hafter⟩ :=
        InputContext.repeatKey_ok hrepeat
      obtain ⟨_, _, _, hcontext, _⟩ := InputContext.handleKey_ok hhandle
      have hsome : context.repeatTimer.isSome := by rw [hrepeating]; rfl
      have hkept : handledKey.context.Ready told := by
        rw [hcontext]
        exact hready.keep rfl rfl rfl rfl fun _ => hready.repeating hsome
      refine InputContext.Ready.mono ?_ (by simp [Event.informs] : _ → told)
      rcases hafter with ⟨_, rfl⟩ | ⟨_, rfl⟩
      · exact hkept.keep rfl rfl rfl rfl (by simp)
      · exact hkept

/-! ## §4. Every expected event can be handled. -/

/-- `handle_key` comes to its end if there is a keyboard, and the backend answers. -/
theorem InputContext.exists_handleKey (xkb : Xkb κ σ) (key : Keycode)
    (hstate : context.xkbState.isSome) (hanswers : context.Answers backend) :
    ∃ after, context.handleKey xkb backend key = .ok after := by
  obtain ⟨xkbState, hstate⟩ := Option.isSome_iff_exists.mp hstate
  unfold InputContext.handleKey
  simp only [hstate]
  split
  case h_2 =>
    cases hbuffer : context.buffer with
    | none => exact ⟨_, rfl⟩
    | some text =>
        obtain ⟨output, houtput⟩ := hanswers text hbuffer
        simp only [houtput]
        exact ⟨_, rfl⟩
  case h_5 => split <;> exact ⟨_, rfl⟩
  all_goals exact ⟨_, rfl⟩

theorem InputContext.handleKey_ne_error {key : Keycode} {panic : Panic ε}
    (hstate : context.xkbState.isSome) (hanswers : context.Answers backend) :
    context.handleKey xkb backend key ≠ .error panic := by
  obtain ⟨after, hafter⟩ := InputContext.exists_handleKey xkb key hstate hanswers
  rw [hafter]
  exact fun h => nomatch h

section Pressed

variable {time key : UInt32} (hready : context.Ready True) (hstate : context.xkbState.isSome)
  (hanswers : context.Answers backend)
include hready hstate hanswers

/-- A key is pressed while another one is being repeated, with a timer that is registered. -/
theorem InputContext.exists_pressedWhileRepeating {repeating : RepeatTimer}
    (hfind : (loopHandle.find repeating.registration).isSome) :
    ∃ handled, context.pressedWhileRepeating xkb backend loopHandle repeating time key
      = .ok handled := by
  obtain ⟨after, hafter⟩ :=
    InputContext.exists_handleKey xkb (key + scancodeOffset) hstate hanswers
  obtain ⟨_, _, _, hcontext, _⟩ := InputContext.handleKey_ok hafter
  obtain ⟨keymap, hkeymap⟩ := Option.isSome_iff_exists.mp (hready.keymap hstate)
  obtain ⟨repeatDelay, hdelay⟩ := Option.isSome_iff_exists.mp (hready.delay trivial)
  obtain ⟨timer, hfind⟩ := Option.isSome_iff_exists.mp hfind
  have hkeymap' : after.context.xkbKeymap = some keymap := by rw [hcontext]; exact hkeymap
  have hdelay' : after.context.repeatDelay = some repeatDelay := by rw [hcontext]; exact hdelay
  unfold InputContext.pressedWhileRepeating
  simp only [hafter, InputContext.markAsPressed, hkeymap', hdelay', hfind]
  split
  · split <;> exact ⟨_, rfl⟩
  · exact ⟨_, rfl⟩
  · exact ⟨_, rfl⟩

theorem InputContext.exists_pressedOtherwise :
    ∃ handled, context.pressedOtherwise xkb backend seatIndex loopHandle time key
      = .ok handled := by
  obtain ⟨after, hafter⟩ :=
    InputContext.exists_handleKey xkb (key + scancodeOffset) hstate hanswers
  obtain ⟨_, _, _, hcontext, _⟩ := InputContext.handleKey_ok hafter
  obtain ⟨keymap, hkeymap⟩ := Option.isSome_iff_exists.mp (hready.keymap hstate)
  obtain ⟨repeatDelay, hdelay⟩ := Option.isSome_iff_exists.mp (hready.delay trivial)
  have hkeymap' : after.context.xkbKeymap = some keymap := by rw [hcontext]; exact hkeymap
  have hdelay' : after.context.repeatDelay = some repeatDelay := by rw [hcontext]; exact hdelay
  unfold InputContext.pressedOtherwise
  simp only [hafter, hkeymap', hdelay']
  split
  · exact ⟨_, rfl⟩
  · split <;> exact ⟨_, rfl⟩

theorem InputContext.exists_pressedKey
    (hregistered : ∀ token ∈ context.registration?, (loopHandle.find token).isSome) :
    ∃ handled, context.pressedKey xkb backend seatIndex loopHandle time key = .ok handled := by
  unfold InputContext.pressedKey
  split
  · rename_i repeating hrepeating
    split
    · exact InputContext.exists_pressedWhileRepeating hready hstate hanswers
        (hregistered _ (InputContext.registration?_of_some hrepeating))
    · exact InputContext.exists_pressedOtherwise hready hstate hanswers
  · exact InputContext.exists_pressedOtherwise hready hstate hanswers

end Pressed

/-- **Every event of the keyboard grab** can be handled; a key needs the speed of repetition. -/
theorem InputContext.exists_keyboardGrabEvent {told : Prop} {event : GrabEvent}
    (hready : context.Ready told) (hvalid : (Event.keyboardGrab seatIndex event).valid xkb = true)
    (htold : (Event.keyboardGrab seatIndex event).press?.isSome → told)
    (hanswers : context.Answers backend)
    (hregistered : ∀ token ∈ context.registration?, (loopHandle.find token).isSome) :
    ∃ handled, context.keyboardGrabEvent xkb backend seatIndex loopHandle event
      = .ok handled := by
  cases event with
  | key time key keyState =>
      unfold InputContext.keyboardGrabEvent
      simp only
      split
      · exact ⟨_, rfl⟩
      · rename_i xkbState hstate
        cases keyState with
        | released => exact ⟨_, rfl⟩
        | pressed =>
            have hsome : context.xkbState.isSome := by rw [hstate]; rfl
            exact InputContext.exists_pressedKey (hready.mono fun _ => htold rfl) hsome hanswers
              hregistered
  | modifiers depressed latched locked group =>
      unfold InputContext.keyboardGrabEvent
      simp only
      split <;> exact ⟨_, rfl⟩
  | keymap format fd size =>
      unfold InputContext.keyboardGrabEvent InputContext.keymapEvent
      simp only
      cases format with
      | noKeymap => exact ⟨_, rfl⟩
      | xkbV1 =>
          obtain ⟨keymap, hkeymap⟩ := Event.exists_keymap hvalid
          simp only [hkeymap]
          exact ⟨_, rfl⟩
  | repeatInfo rate delay => exact ⟨_, rfl⟩

/-- `repeat_key` finds what it repeats, and how fast. -/
theorem InputContext.exists_repeatKey {told : Prop} (hready : context.Ready told)
    (hrepeating : context.repeatTimer.isSome) (hanswers : context.Answers backend) :
    ∃ after, context.repeatKey xkb backend = .ok after := by
  obtain ⟨hstate, hdelay⟩ := hready.repeating hrepeating
  obtain ⟨repeatRate, hrate⟩ := Option.isSome_iff_exists.mp (hready.rate_of_delay hdelay)
  obtain ⟨repeating, hrepeating⟩ := Option.isSome_iff_exists.mp hrepeating
  have hne := hready.rate repeatRate hrate
  unfold InputContext.repeatKey
  simp only [hrate, hrepeating, if_neg hne]
  split
  · rename_i panic hpanic
    exact absurd hpanic (InputContext.handleKey_ne_error hstate hanswers)
  · split <;> exact ⟨_, rfl⟩

theorem InputContext.exists_timerEvent {told : Prop} (token : Nat) (hready : context.Ready told)
    (hrepeating : context.repeatTimer.isSome) (hanswers : context.Answers backend) :
    ∃ handled, context.timerEvent xkb backend loopHandle token = .ok handled := by
  obtain ⟨after, hafter⟩ : ∃ after, context.repeatKey xkb backend = .ok after :=
    InputContext.exists_repeatKey hready hrepeating hanswers
  unfold InputContext.timerEvent
  rw [hafter]
  exact ⟨_, rfl⟩

/-! ## §5. Runs. -/

theorem informed_snoc {history : List (Backend ε × Event)} {event : Backend ε × Event} :
    Informed seatIndex (history ++ [event])
      ↔ Informed seatIndex history ∨ event.2.informs seatIndex = true := by
  unfold Informed
  simp only [List.mem_append, List.mem_singleton]
  constructor
  · rintro ⟨earlier, hearlier | rfl, hinforms⟩
    · exact Or.inl ⟨earlier, hearlier, hinforms⟩
    · exact Or.inr hinforms
  · rintro (⟨earlier, hearlier, hinforms⟩ | hinforms)
    · exact ⟨earlier, Or.inl hearlier, hinforms⟩
    · exact ⟨event, Or.inr rfl, hinforms⟩

variable {seatIds : List UInt32} {history : List (Backend ε × Event)} {state state' : State κ σ}
  {event : Backend ε × Event} {more : List (SeatIndex × Request)}

/-- **The invariant**: the timers are those that the contexts know of, whatever still has a key of
a context finds it, and every context has what it needs. -/
structure Sound (seatIds : List UInt32) (history : List (Backend ε × Event)) (state : State κ σ) :
    Prop where
  consistent : state.Consistent
  live : Live seatIds (history.map Prod.snd) state
  ready : ∀ seatIndex, ∀ context ∈ state.context? seatIndex,
    context.Ready (Informed seatIndex history)

theorem sound_init : Sound (ε := ε) seatIds [] (State.init seatIds : State κ σ) where
  consistent := State.consistent_init seatIds
  live := live_init
  ready seatIndex context hcontext := by
    obtain ⟨seatId, _, rfl⟩ := State.context?_init hcontext
    exact (InputContext.ready_fresh seatId).mono fun ⟨_, hmem, _⟩ => nomatch hmem

theorem Sound.step (h : Sound seatIds history state)
    (hexpected : Expected xkb seatIds history state event)
    (hstep : state.dispatchAsking xkb event = .ok (state', more)) :
    Sound seatIds (history ++ [event]) state' where
  consistent := (State.consistent_step_iff h.consistent hstep).mpr hexpected.tame
  live := by
    rw [List.map_append]
    exact live_step h.live hexpected.orderly hstep
  ready seatIndex context hcontext := by
    refine InputContext.Ready.mono ?_ informed_snoc.mp
    rcases State.dispatch_seat hstep seatIndex with ⟨hsame, _, hother⟩ |
      ⟨before, handled, hbefore, hhandles, hafter, _⟩
    · have hnot : event.2.informs seatIndex ≠ true := by
        intro hinforms
        refine hother ?_
        unfold Event.informs at hinforms
        split at hinforms
        · rename_i heq
          rw [heq]
          exact congrArg some (of_decide_eq_true hinforms)
        · cases hinforms
      exact (h.ready seatIndex context (hsame context hcontext)).mono fun htold =>
        htold.resolve_right hnot
    · rw [Option.mem_def, hafter] at hcontext
      cases hcontext
      exact hhandles.ready (h.ready seatIndex before hbefore) hexpected.valid

theorem withContext_eq (hcontext : state.context? seatIndex = some context)
    {handler : InputContext κ σ → Except (Panic ε) (Handled κ σ)}
    (h : ∃ handled, handler context = .ok handled) :
    ∃ state' more, state.withContext seatIndex handler = .ok (state', more) := by
  obtain ⟨handled, hhandled⟩ := h
  unfold State.withContext State.getContext
  simp only [hcontext, hhandled]
  exact ⟨_, _, rfl⟩

/-- **Every expected event can be handled.** -/
theorem Sound.exists_dispatch (h : Sound seatIds history state)
    (hexpected : Expected xkb seatIds history state event) :
    ∃ state' more, state.dispatchAsking xkb event = .ok (state', more) := by
  obtain ⟨backend, event⟩ := event
  have hanswers := fun seatIndex context hcontext =>
    @Expected.answersFor _ _ _ _ context seatIndex _ _ _ _ hexpected hcontext
  obtain ⟨hvalid, hinformed, _, horderly, _⟩ := hexpected
  -- the context of an orderly event is there
  have hlive : ∀ seatIndex ∈ event.seat?, ∃ context, state.context? seatIndex = some context := by
    intro seatIndex hseat
    obtain ⟨seatId, hid, hhistory⟩ := horderly.1 seatIndex hseat
    obtain ⟨context, hcontext, _⟩ := h.live.ofSeat seatIndex seatId hid hhistory
    exact ⟨context, hcontext⟩
  cases event with
  | registry event => exact ⟨_, _, rfl⟩
  | unknown seatIndex event => cases hvalid
  | keyboardGrab seatIndex event =>
      obtain ⟨context, hcontext⟩ := hlive seatIndex rfl
      refine withContext_eq hcontext (InputContext.exists_keyboardGrabEvent
        (h.ready seatIndex context hcontext) hvalid ?_ (hanswers seatIndex context hcontext) ?_)
      · intro hsome
        obtain ⟨press, hpress⟩ := Option.isSome_iff_exists.mp hsome
        have hseat : press.1 = seatIndex := by
          unfold Event.press? at hpress
          split at hpress
          · rename_i heq
            cases heq
            exact congrArg Prod.fst (Option.some.inj hpress).symm
          · cases hpress
        exact hseat ▸ hinformed press hpress
      · intro token htoken
        have hmem : token ∈ timersOf state.loopHandle seatIndex := by
          rw [h.consistent seatIndex context hcontext]
          exact Option.mem_toList.mpr htoken
        obtain ⟨timer, hfind, _⟩ := mem_timersOf.mp hmem
        rw [hfind]
        rfl
  | inputMethod seatIndex event =>
      obtain ⟨context, hcontext⟩ := hlive seatIndex rfl
      unfold State.dispatchAsking State.dispatch
      exact withContext_eq hcontext ⟨_, rfl⟩
  | timer token =>
      unfold State.dispatchAsking State.dispatch
      simp only
      cases hfind : state.loopHandle.find token with
      | none => exact ⟨_, _, rfl⟩
      | some timer =>
          have hmem := mem_timersOf.mpr ⟨timer, hfind, rfl⟩
          obtain ⟨context, hcontext⟩ := h.live.ofTimer timer.seatIndex (List.ne_nil_of_mem hmem)
          refine withContext_eq hcontext (InputContext.exists_timerEvent token
            (h.ready _ context hcontext) ?_ (hanswers _ context hcontext))
          -- only what a context knows of is registered for it
          rw [h.consistent _ context hcontext, Option.mem_toList] at hmem
          obtain ⟨repeating, hrepeating, _⟩ := Option.map_eq_some_iff.mp hmem
          rw [hrepeating]
          rfl

theorem Sound.of_run {emitted : List (SeatIndex × Request)}
    (hrun : Run (State.dispatchAsking xkb) (Expected xkb seatIds) (State.init seatIds) history
      emitted state) : Sound seatIds history state := by
  refine hrun.invariant (fun history _ state => Sound seatIds history state) sound_init ?_
  intro _ _ _ _ _ _ hsound hexpected hstep
  exact hsound.step hexpected hstep

/-- **The frontend comes to no bad end**: after every run of expected events, in whatever order
they come, the next expected event is handled without a panic. -/
theorem progress_of_run {emitted : List (SeatIndex × Request)}
    (hrun : Run (State.dispatchAsking xkb) (Expected xkb seatIds) (State.init seatIds) history
      emitted state) (hexpected : Expected xkb seatIds history state event) :
    ∃ state' more, state.dispatchAsking xkb event = .ok (state', more) :=
  (Sound.of_run hrun).exists_dispatch hexpected

/-- `A` is pressed and repeated, and then the text is committed. -/
theorem progress_of_run_repeat :
    ∃ emitted state, Run (State.dispatchAsking smallKeyboard) (Expected smallKeyboard [1])
        (State.init [1])
        ((setUp ++ [Event.keyboardGrab 0 (.key 7 30 .pressed), Event.timer 0,
          Event.keyboardGrab 0 (.key 9 30 .released)]).map fun event => (emptyBackend, event))
        emitted state
      ∧ ∃ state' more, state.dispatchAsking smallKeyboard
        (emptyBackend, .keyboardGrab 0 (.key 12 28 .pressed)) = .ok (state', more) := by
  refine Run.exists_of_exec (fun _ state => decide (Expected smallKeyboard [1]
    ((setUp ++ [Event.keyboardGrab 0 (.key 7 30 .pressed), Event.timer 0,
      Event.keyboardGrab 0 (.key 9 30 .released)]).map fun event => (emptyBackend, event))
    state (emptyBackend, .keyboardGrab 0 (.key 12 28 .pressed)))) (by decide) ?_
  intro emitted state hrun htest
  exact progress_of_run hrun (of_decide_eq_true htest)

end Shinran.Wayland
