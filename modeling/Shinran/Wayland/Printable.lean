/-
  Shinran.Wayland.Printable
  ─────────────────────────
  **WHAT CAN BE IN THE BUFFER.**

  `append` takes every ASCII character but the null character, so that a key
  like BackSpace or Tab puts its control code into the buffer.  The engine for
  IBus takes graphic characters only.

    • `handleKey_graphic_iff` — a key keeps the buffer graphic if and only if
                                it types no character that is not graphic,
    • `printable_of_run`      — the invariant, as long as only such keys are
                                pressed and repeated.
-/
import Shinran.Wayland.Preedit

namespace Shinran.Wayland

open Machine (Guard Run)
open InputContext (scancodeOffset)

/-! ## §1. Graphic text. -/

/-- `char::is_ascii_graphic`. -/
def isAsciiGraphic (ch : Char) : Bool := 0x21 ≤ ch.toNat && ch.toNat ≤ 0x7e

/-- All characters are graphic. -/
def Graphic (text : String) : Prop := ∀ ch ∈ text.toList, isAsciiGraphic ch

theorem graphic_empty : Graphic "" := by simp [Graphic]

theorem graphic_push {text : String} {ch : Char} :
    Graphic (text.push ch) ↔ Graphic text ∧ isAsciiGraphic ch := by
  simp only [Graphic, String.toList_push, List.mem_append, List.mem_singleton]
  constructor
  · exact fun h => ⟨fun c hc => h c (.inl hc), h ch (.inr rfl)⟩
  · rintro ⟨htext, hch⟩ c (hc | rfl)
    · exact htext c hc
    · exact hch

theorem graphic_singleton {ch : Char} : Graphic (String.singleton ch) ↔ isAsciiGraphic ch := by
  simp [Graphic]

/-! ## §2. One key. -/

variable {κ σ ε : Type} {xkb : Xkb κ σ} {backend : Backend ε} {context : InputContext κ σ}

namespace InputContext

/-- The buffer is graphic. -/
def GraphicBuffer (context : InputContext κ σ) : Prop := ∀ text ∈ context.buffer, Graphic text

/-- **A key that types nothing but graphic characters**: it is one of those with a meaning of
their own, or its code is not that of a control character or a space. -/
def TypesGraphic (xkb : Xkb κ σ) (context : InputContext κ σ) (key : Keycode) : Prop :=
  ∀ xkbState ∈ context.xkbState, Keysym.new (xkb.keyGetOneSym xkbState key) = .other →
    ∀ ch ∈ typedCharacter xkb xkbState key, isAsciiGraphic ch

instance (context : InputContext κ σ) (key : Keycode) :
    Decidable (context.TypesGraphic xkb key) :=
  @Option.decidableForallMem _ _ (fun xkbState =>
    @instDecidableForall _ _ _ (Option.decidableForallMem (typedCharacter xkb xkbState key)))
    context.xkbState

theorem graphicBuffer_append (h : context.GraphicBuffer) (ch : Char) :
    (context.append ch).GraphicBuffer ↔ isAsciiGraphic ch := by
  unfold GraphicBuffer append
  cases hbuffer : context.buffer with
  | none => simp [graphic_singleton]
  | some text => simp [graphic_push, h text hbuffer]

/-- The texts that requests show. -/
def ShowsGraphic (requests : List Request) : Prop :=
  ∀ text cursorBegin cursorEnd, .setPreeditString text cursorBegin cursorEnd ∈ requests →
    Graphic text

theorem showsGraphic_append {requests more : List Request} (h : ShowsGraphic requests)
    (hmore : ShowsGraphic more) : ShowsGraphic (requests ++ more) := by
  intro text cursorBegin cursorEnd hmem
  exact (List.mem_append.mp hmem).elim (h text cursorBegin cursorEnd)
    (hmore text cursorBegin cursorEnd)

theorem showsGraphic_of_not_typing {requests : List Request}
    (h : ∀ request ∈ requests, request.isTyping = false) : ShowsGraphic requests := by
  intro text cursorBegin cursorEnd hmem
  cases h _ hmem

theorem showsGraphic_key {time key : UInt32} {keyState : KeyState} :
    ShowsGraphic [.key time key keyState] := by
  simp [ShowsGraphic]

theorem showsGraphic_composingUpdate {text : String} (h : Graphic text) :
    ShowsGraphic (context.composingUpdate text) := by
  intro shown cursorBegin cursorEnd hmem
  simp only [composingUpdate, List.mem_cons, Request.setPreeditString.injEq, reduceCtorEq,
    List.not_mem_nil, or_false] at hmem
  rw [hmem.1]
  exact h

theorem showsGraphic_showBuffer (h : context.GraphicBuffer) :
    ShowsGraphic context.showBuffer := by
  unfold showBuffer
  cases hbuffer : context.buffer with
  | none => exact showsGraphic_of_not_typing (by simp)
  | some text => exact showsGraphic_composingUpdate (h text hbuffer)

/-- **`handle_key` keeps the buffer graphic**: exactly if the key types graphic characters only. -/
theorem handleKey_graphic_iff {key : Keycode} {after : HandledKey κ σ} (h : context.GraphicBuffer)
    (hafter : context.handleKey xkb backend key = .ok after) :
    after.context.GraphicBuffer ↔ context.TypesGraphic xkb key := by
  unfold handleKey at hafter
  unfold TypesGraphic
  split at hafter
  · cases hafter
  · rename_i xkbState hstate
    rw [hstate]
    simp only [Option.mem_def, Option.some.injEq, forall_eq']
    split at hafter
    case h_1 hsym => cases hafter; simpa [hsym] using h
    case h_2 hsym =>
      simp only [hsym, reduceCtorEq, false_implies, iff_true]
      split at hafter
      · cases hafter
        exact h
      · split at hafter
        · cases hafter
        · cases hafter
          simp [GraphicBuffer]
    case h_3 hsym => cases hafter; simpa [hsym] using h
    case h_4 hsym => cases hafter; simpa [hsym] using h
    case h_5 hsym =>
      simp only [hsym, forall_const]
      split at hafter
      · rename_i ch htyped
        cases hafter
        simpa [htyped] using graphicBuffer_append h ch
      · rename_i htyped
        cases hafter
        simpa [htyped] using h

/-- What it shows is graphic as well. -/
theorem handleKey_shows {key : Keycode} {after : HandledKey κ σ} (h : context.GraphicBuffer)
    (hkey : context.TypesGraphic xkb key)
    (hafter : context.handleKey xkb backend key = .ok after) : ShowsGraphic after.requests := by
  have hkept := (handleKey_graphic_iff h hafter).mpr hkey
  unfold handleKey at hafter
  split at hafter
  · cases hafter
  · split at hafter
    case h_1 => cases hafter; exact showsGraphic_composingUpdate graphic_empty
    case h_2 =>
      split at hafter
      · cases hafter
        exact showsGraphic_of_not_typing (by simp)
      · split at hafter
        · cases hafter
        · rename_i output _
          cases hafter
          cases output with
          | none => exact showsGraphic_composingUpdate graphic_empty
          | some output => simp [ShowsGraphic, composingCommit]
    case h_3 | h_4 =>
      cases hafter
      exact showsGraphic_of_not_typing (by simp)
    case h_5 => split at hafter <;> cases hafter <;> exact showsGraphic_showBuffer hkept

/-- The backend is asked about the buffer only. -/
theorem handleKey_asks {backend' : Backend ε} (h : context.GraphicBuffer)
    (hsame : ∀ text, Graphic text → backend'.checkTrigger text = backend.checkTrigger text)
    (key : Keycode) : context.handleKey xkb backend' key = context.handleKey xkb backend key := by
  unfold handleKey
  cases hbuffer : context.buffer with
  | none => rfl
  | some text => simp only [hsame text (h text hbuffer)]

end InputContext

/-! ## §3. One event. -/

/-- The key that a context handles on an event: one that is pressed, or the one that is being
repeated. -/
def InputContext.handlesKey (context : InputContext κ σ) : Event → Option Keycode
  | .keyboardGrab _ (.key _ key .pressed) => some (key + scancodeOffset)
  | .timer _ => context.repeatTimer.map (·.keycode)
  | _ => none

variable {seatIndex : SeatIndex} {loopHandle : TokenMap Timer} {handled : Handled κ σ}

theorem Press.graphic {time key : UInt32} {after : HandledKey κ σ}
    (h : Press xkb seatIndex context loopHandle time key after handled)
    (hbuffer : after.context.GraphicBuffer) (hshows : InputContext.ShowsGraphic after.requests) :
    handled.context.GraphicBuffer ∧ InputContext.ShowsGraphic handled.requests := by
  have hforward : InputContext.ShowsGraphic (after.requests ++ [.key time key .pressed]) :=
    InputContext.showsGraphic_append hshows InputContext.showsGraphic_key
  cases h with
  | stopped => exact ⟨hbuffer, hforward⟩
  | forwarded => exact ⟨hbuffer, hforward⟩
  | _ => exact ⟨hbuffer, hshows⟩

theorem Handles.graphic {event : Event}
    (h : Handles xkb backend loopHandle seatIndex context event handled)
    (hkey : ∀ key ∈ context.handlesKey event, context.TypesGraphic xkb key)
    (hbuffer : context.GraphicBuffer) :
    handled.context.GraphicBuffer ∧ InputContext.ShowsGraphic handled.requests := by
  have hquiet : ∀ {requests : List Request}, (∀ request ∈ requests, request.isTyping = false) →
      InputContext.ShowsGraphic requests := InputContext.showsGraphic_of_not_typing
  cases h with
  | keyboardGrab h =>
      cases InputContext.keyboardGrabEvent_ok h with
      | ignored => exact ⟨hbuffer, hquiet (by simp)⟩
      | press hafter hpress =>
          have htypes := hkey _ rfl
          exact hpress.graphic ((InputContext.handleKey_graphic_iff hbuffer hafter).mpr htypes)
            (InputContext.handleKey_shows hbuffer htypes hafter)
      | release hrelease =>
          cases hrelease with
          | stopped => exact ⟨hbuffer, hquiet (by simp)⟩
          | kept => exact ⟨hbuffer, hquiet (by simp)⟩
          | forwarded => exact ⟨hbuffer, InputContext.showsGraphic_key⟩
      | noKey _ hcontext _ htyping =>
          refine ⟨?_, hquiet htyping⟩
          rw [hcontext]
          exact hbuffer
  | inputMethod =>
      obtain ⟨⟨_, _, _, _, _, hcontext⟩, htyping⟩ := context.inputMethodEvent_frame _
      refine ⟨?_, hquiet htyping⟩
      show InputContext.GraphicBuffer _
      rw [hcontext]
      exact hbuffer
  | timer _ _ h =>
      obtain ⟨after, hrepeat, rfl⟩ := InputContext.timerEvent_ok h
      obtain ⟨_, repeating, handledKey, _, _, hrepeating, hhandle, hafter⟩ :=
        InputContext.repeatKey_ok hrepeat
      have htypes : context.TypesGraphic xkb repeating.keycode :=
        hkey _ (by simp [InputContext.handlesKey, hrepeating])
      -- neither the buffer nor the keyboard state depends on the timestamp, which is advanced first
      have hkept : handledKey.context.GraphicBuffer :=
        (InputContext.handleKey_graphic_iff (by exact hbuffer) hhandle).mpr (by exact htypes)
      have hshows : InputContext.ShowsGraphic handledKey.requests :=
        InputContext.handleKey_shows (by exact hbuffer) (by exact htypes) hhandle
      rcases hafter with ⟨_, rfl⟩ | ⟨_, rfl⟩
      · exact ⟨hkept, InputContext.showsGraphic_append hshows InputContext.showsGraphic_key⟩
      · exact ⟨hkept, hshows⟩

/-- The context and the key of an event on which `handle_key` is called. -/
def State.handledKey? (state : State κ σ) : Event → Option (InputContext κ σ × Keycode)
  | .keyboardGrab seatIndex (.key _ key .pressed) =>
    (state.context? seatIndex).map fun context => (context, key + scancodeOffset)
  | .timer token =>
    (state.loopHandle.find token).bind fun timer =>
      (state.context? timer.seatIndex).bind fun context =>
        context.repeatTimer.map fun repeating => (context, repeating.keycode)
  | _ => none

theorem Handles.handledKey? {state : State κ σ} {event : Event}
    (h : Handles xkb backend state.loopHandle seatIndex context event handled)
    (hcontext : state.context? seatIndex = some context) {key : Keycode}
    (hkey : key ∈ context.handlesKey event) : state.handledKey? event = some (context, key) := by
  cases h with
  | @keyboardGrab event _ _ =>
      cases event with
      | key time code keyState =>
          cases keyState with
          | pressed => cases hkey; simp [State.handledKey?, hcontext]
          | released => cases hkey
      | _ => cases hkey
  | inputMethod => cases hkey
  | timer hfind hseat =>
      subst hseat
      simp only [InputContext.handlesKey, Option.mem_def, Option.map_eq_some_iff] at hkey
      obtain ⟨repeating, hrepeating, rfl⟩ := hkey
      simp [State.handledKey?, hfind, hcontext, hrepeating]

/-! ## §4. Runs. -/

/-- `handle_key` is called only for keys that type graphic characters. -/
def TypesGraphic (xkb : Xkb κ σ) : Guard (State κ σ) (Backend ε × Event) :=
  fun _ state (_, event) => ∀ handled ∈ state.handledKey? event,
    handled.1.TypesGraphic xkb handled.2

instance (events : List (Backend ε × Event)) (state : State κ σ) (event : Backend ε × Event) :
    Decidable (TypesGraphic xkb events state event) :=
  Option.decidableForallMem (state.handledKey? event.2)

/-- **Only printable text**: in the buffers, in what has been shown, and in what the backend can
be asked about. -/
structure State.Printable (xkb : Xkb κ σ) (state : State κ σ)
    (emitted : List (SeatIndex × Request)) : Prop where
  buffer : ∀ seatIndex context, state.context? seatIndex = some context →
    ∀ text ∈ context.buffer, Graphic text
  shown : ∀ seatIndex text cursorBegin cursorEnd,
    (seatIndex, .setPreeditString text cursorBegin cursorEnd) ∈ emitted → Graphic text
  asked : ∀ {ε : Type} (backend backend' : Backend ε),
    (∀ text, Graphic text → backend'.checkTrigger text = backend.checkTrigger text) →
    ∀ seatIndex context, state.context? seatIndex = some context → ∀ key,
      context.handleKey xkb backend' key = context.handleKey xkb backend key

/-- **The buffer stays printable** in every run in which all keys that are pressed or repeated type
graphic characters only. -/
theorem printable_of_run {seatIds : List UInt32} {events : List (Backend ε × Event)}
    {emitted : List (SeatIndex × Request)} {state : State κ σ}
    (hrun : Run (State.dispatchAsking xkb) (TypesGraphic xkb) (State.init seatIds) events emitted
      state) :
    state.Printable xkb emitted := by
  have hinv : ∀ seatIndex, (∀ context, state.context? seatIndex = some context →
      context.GraphicBuffer) ∧ InputContext.ShowsGraphic (requestsOf seatIndex emitted) := by
    refine hrun.invariant (fun _ emitted state => ∀ seatIndex,
      (∀ context, state.context? seatIndex = some context → context.GraphicBuffer)
        ∧ InputContext.ShowsGraphic (requestsOf seatIndex emitted)) ?_ ?_
    · intro seatIndex
      refine ⟨fun context hcontext => ?_, fun _ _ _ hmem => by cases hmem⟩
      obtain ⟨seatId, _, rfl⟩ := State.context?_init hcontext
      exact fun _ htext => by cases htext
    · intro _ emitted state event state' more hinv hguard hstep seatIndex
      obtain ⟨hbuffer, hshows⟩ := hinv seatIndex
      rw [requestsOf_append]
      rcases State.dispatch_seat hstep seatIndex with ⟨hsame, hnothing, _⟩ |
        ⟨context, handled, hbefore, hhandles, hafter, hrequests⟩
      · rw [hnothing, List.append_nil]
        exact ⟨fun context' hcontext' => hbuffer context' (hsame context' hcontext'), hshows⟩
      · obtain ⟨hkept, hmore⟩ := hhandles.graphic
          (fun key hkey => hguard (context, key) (hhandles.handledKey? hbefore hkey))
          (hbuffer context hbefore)
        rw [hrequests]
        refine ⟨fun context' hcontext' => ?_, InputContext.showsGraphic_append hshows hmore⟩
        rw [hafter] at hcontext'
        cases hcontext'
        exact hkept
  refine ⟨fun seatIndex context hcontext => (hinv seatIndex).1 context hcontext, ?_, ?_⟩
  · intro seatIndex text cursorBegin cursorEnd hmem
    refine (hinv seatIndex).2 text cursorBegin cursorEnd ?_
    simpa [requestsOf] using hmem
  · intro _ backend backend' hsame seatIndex context hcontext key
    exact InputContext.handleKey_asks ((hinv seatIndex).1 context hcontext) hsame key

/-- A key that is pressed, and repeated. -/
theorem printable_of_run_repeat :
    ∃ emitted state,
      Run (State.dispatchAsking smallKeyboard) (TypesGraphic smallKeyboard) (State.init [1])
        ((setUp ++ [Event.keyboardGrab 0 (.key 0 30 .pressed), Event.timer 0]).map
          fun event => (emptyBackend, event)) emitted state
        ∧ (state.context? 0).map (·.buffer) = some (some "aa")
        ∧ state.Printable smallKeyboard emitted := by
  refine Run.exists_of_exec (fun _ state => decide
    ((state.context? 0).map (·.buffer) = some (some "aa"))) (by decide) ?_
  intro emitted state hrun htest
  exact ⟨of_decide_eq_true htest, printable_of_run hrun⟩

/-! ## §5. BackSpace. -/

/-- The small keyboard with a BackSpace (code 14), the character of which is U+0008. -/
def backSpaceKeyboard : Xkb Unit UInt32 :=
  { smallKeyboard with
    keyGetOneSym := fun mods keycode =>
      if keycode = 22 then 0xff08 else smallKeyboard.keyGetOneSym mods keycode
    keyGetUtf32 := fun mods keycode =>
      if keycode = 22 then 0x08 else smallKeyboard.keyGetUtf32 mods keycode }

/-- **BackSpace types its control character**, behind what it should delete. -/
theorem backSpace_typed :
    ∃ emitted state,
      Run (State.dispatchAsking backSpaceKeyboard) (fun _ _ _ => True) (State.init [1])
        ((setUp ++ [Event.keyboardGrab 0 (.key 0 30 .pressed),
          Event.keyboardGrab 0 (.key 5 30 .released), Event.keyboardGrab 0 (.key 9 14 .pressed)]).map
            fun event => (emptyBackend, event)) emitted state
        ∧ (state.context? 0).map (·.buffer) = some (some "a")
        ∧ ¬ state.Printable backSpaceKeyboard emitted := by
  refine Run.exists_of_exec (fun _ state => decide
    ((state.context? 0).map (·.buffer) = some (some "a"))) (by decide) ?_
  intro emitted state _ htest
  have hbuffer := of_decide_eq_true htest
  refine ⟨hbuffer, fun h => ?_⟩
  obtain ⟨context, hcontext, htext⟩ := Option.map_eq_some_iff.mp hbuffer
  have hgraphic := h.buffer 0 context hcontext _ htext '' (by decide)
  revert hgraphic
  decide

end Shinran.Wayland
