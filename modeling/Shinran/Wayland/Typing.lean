/-
  Shinran.Wayland.Typing
  ──────────────────────
  **TYPING ON A SEAT.**

  The events of a run, as strokes on one of its seats.  Which stroke an event
  is depends on the keymap, on the modifiers, and on the key that is being
  repeated.  A seat types at the end of its text only.

    • `Holds.handleKey` — `handle_key` carries out the stroke of its key,
    • `Handles.types`   — so does every event for the seat,
    • `Types.commits_of_step` — only Return commits, and what the backend answers,
    • `typed_of_run`    — and so every run carries out all its strokes.
-/
import Shinran.Ibus.Typing
import Shinran.Wayland.Printable

namespace Shinran.Wayland

open Machine (Run)

variable {κ σ ε : Type} {xkb : Xkb κ σ} {backend : Backend ε} {context : InputContext κ σ}
  {loopHandle : TokenMap Timer} {seatIndex : SeatIndex} {handled : Handled κ σ}

/-! ## §1. Events as strokes. -/

/-- The stroke of a key that is handled, while the backend answers in this way. -/
def InputContext.stroke (xkb : Xkb κ σ) (backend : Backend ε) (context : InputContext κ σ)
    (key : Keycode) : Stroke :=
  match context.xkbState with
  | none => .edit .nothing
  | some xkbState =>
    match Keysym.new (xkb.keyGetOneSym xkbState key) with
    | .return_ => .enter backend.expand
    -- the buffer outlives Escape
    | .escape | .kpSpace | .space => .edit .nothing
    | .other =>
      match typedCharacter xkb xkbState key with
      | some ch => .edit (.insert ch)
      | none => .edit .nothing

/-- The strokes that an event for the seat makes: one, or none. -/
def InputContext.strokes (xkb : Xkb κ σ) (backend : Backend ε) (context : InputContext κ σ)
    (event : Event) : List Stroke :=
  ((context.handlesKey event).map (context.stroke xkb backend)).toList

/-- Whether the event is for a seat, if only because a timer of the seat fires. -/
def State.isFor (state : State κ σ) (seatIndex : SeatIndex) : Event → Bool
  | .timer token => (state.loopHandle.find token).any (·.seatIndex = seatIndex)
  | event => event.seat? = some seatIndex

/-- The strokes that an event makes on a seat. -/
def State.strokes (xkb : Xkb κ σ) (seatIndex : SeatIndex) (state : State κ σ)
    (event : Backend ε × Event) : List Stroke :=
  match state.context? seatIndex with
  | none => []
  | some context =>
    if state.isFor seatIndex event.2 then context.strokes xkb event.1 event.2 else []

/-- The strokes on a seat in the course of events. -/
def strokes (xkb : Xkb κ σ) (seatIndex : SeatIndex) (seatIds : List UInt32)
    (events : List (Backend ε × Event)) : List Stroke :=
  Machine.moves (State.dispatchAsking xkb) (State.strokes xkb seatIndex) (.init seatIds) events

/-! ## §2. What is committed. -/

def Request.commitString? : Request → Option String
  | .commitString text => some text
  | _ => none

/-- The texts that are committed. -/
def commits (requests : List Request) : List String := requests.filterMap Request.commitString?

@[simp] theorem commits_append (requests more : List Request) :
    commits (requests ++ more) = commits requests ++ commits more := List.filterMap_append

theorem commits_eq_nil {requests : List Request}
    (h : ∀ request ∈ requests, request.isTyping = false) : commits requests = [] := by
  refine List.filterMap_eq_nil_iff.mpr fun request hrequest => ?_
  have htyping := h request hrequest
  cases request <;> first | rfl | cases htyping

theorem mem_requestsOf {request : Request} {requests : List (SeatIndex × Request)} :
    request ∈ requestsOf seatIndex requests ↔ (seatIndex, request) ∈ requests := by
  simp [requestsOf]

@[simp] theorem commits_composingUpdate (text : String) :
    commits (context.composingUpdate text) = [] := rfl

@[simp] theorem commits_composingCommit (output : String) :
    commits (context.composingCommit output) = [output] := rfl

@[simp] theorem commits_showBuffer : commits context.showBuffer = [] := by
  unfold InputContext.showBuffer
  split <;> rfl

/-! ## §3. The buffer of a seat. -/

/-- The buffer holds what the editor holds, whose cursor stays at the end. -/
structure Holds (buffer : Option String) (editor : Editor) : Prop where
  text : (buffer.getD "").toList = editor.text
  cursor : editor.cursor = editor.text.length
  /-- Without a text there is no buffer. -/
  nonempty : buffer ≠ some ""

variable {editor : Editor} {typist : Typist}

theorem holds_fresh : Holds none {} := ⟨rfl, rfl, by simp⟩

/-- A character is appended on both sides. -/
theorem Holds.append (h : Holds context.buffer editor) (ch : Char) :
    Holds (context.append ch).buffer (editor.insert ch) := by
  have htext : (((context.append ch).buffer).getD "").toList
      = (context.buffer.getD "").toList ++ [ch] := by
    unfold InputContext.append
    cases context.buffer with
    | none => exact String.toList_singleton ch
    | some text => exact String.toList_push ch
  have hinsert : (editor.insert ch).text = editor.text ++ [ch] := by
    simp [Editor.insert, Editor.before, Editor.after, h.cursor]
  refine ⟨by rw [htext, hinsert, h.text], ?_, fun hempty => ?_⟩
  · rw [hinsert, List.length_append]
    exact congrArg (· + 1) h.cursor
  · rw [hempty] at htext
    simp at htext

/-- **`handle_key` carries out the stroke of its key.** -/
theorem Holds.handleKey {key : Keycode} {after : HandledKey κ σ}
    (h : Holds context.buffer typist.editor)
    (hafter : context.handleKey xkb backend key = .ok after) :
    Holds after.context.buffer (typist.strike (context.stroke xkb backend key)).editor
      ∧ typist.committed ++ commits after.requests
        = (typist.strike (context.stroke xkb backend key)).committed := by
  unfold InputContext.handleKey at hafter
  unfold InputContext.stroke
  cases hstate : context.xkbState with
  | none =>
      rw [hstate] at hafter
      cases hafter
  | some xkbState =>
      simp only [hstate] at hafter
      cases hsym : Keysym.new (xkb.keyGetOneSym xkbState key) with
      | escape | kpSpace | space =>
          simp only [hsym] at hafter ⊢
          cases hafter
          exact ⟨h, List.append_nil _⟩
      | return_ =>
          simp only [hsym] at hafter ⊢
          cases hbuffer : context.buffer with
          | none =>
              simp only [hbuffer] at hafter
              cases hafter
              have hempty : typist.editor.text = [] := by
                rw [← h.text, hbuffer]
                rfl
              refine ⟨by rw [hbuffer]; exact holds_fresh, ?_⟩
              simp [Typist.strike, hempty, commits]
          | some buffer =>
              simp only [hbuffer] at hafter
              have htext : typist.editor.text = buffer.toList := by
                rw [← h.text, hbuffer]
                rfl
              have hne : buffer.toList ≠ [] := fun hnil =>
                h.nonempty (by rw [hbuffer, String.toList_eq_nil_iff.mp hnil])
              cases hanswer : backend.checkTrigger buffer with
              | error error =>
                  rw [hanswer] at hafter
                  cases hafter
              | ok output =>
                  rw [hanswer] at hafter
                  cases hafter
                  refine ⟨holds_fresh, ?_⟩
                  simp only [Typist.strike, Typist.output, htext, if_neg hne,
                    String.ofList_toList, Backend.expand, hanswer, Except.toOption,
                    Option.join_some]
                  cases output <;> simp
      | other =>
          simp only [hsym] at hafter ⊢
          cases htyped : typedCharacter xkb xkbState key with
          | some ch =>
              simp only [htyped] at hafter
              cases hafter
              simp only [commits_showBuffer, List.append_nil]
              exact ⟨h.append ch, rfl⟩
          | none =>
              simp only [htyped] at hafter
              cases hafter
              simp only [commits_showBuffer, List.append_nil]
              exact ⟨h, rfl⟩

/-! ## §4. One event. -/

/-- What is kept of a seat: what has been committed, and the buffer as long as the seat is there. -/
structure Types (seatIndex : SeatIndex) (emitted : List (SeatIndex × Request)) (state : State κ σ)
    (typist : Typist) : Prop where
  commits : commits (requestsOf seatIndex emitted) = typist.committed
  holds : ∀ context, state.context? seatIndex = some context → Holds context.buffer typist.editor

theorem Press.holds {time key : UInt32} {after : HandledKey κ σ}
    (h : Press xkb seatIndex context loopHandle time key after handled) :
    handled.context.buffer = after.context.buffer
      ∧ commits handled.requests = commits after.requests := by
  cases h with
  | stopped | forwarded => exact ⟨rfl, by simp [commits, Request.commitString?]⟩
  | _ => exact ⟨rfl, rfl⟩

/-- **An event for the seat carries out its strokes.** -/
theorem Handles.types {event : Event}
    (h : Handles xkb backend loopHandle seatIndex context event handled)
    (hholds : Holds context.buffer typist.editor) :
    Holds handled.context.buffer
        ((context.strokes xkb backend event).foldl Typist.strike typist).editor
      ∧ typist.committed ++ commits handled.requests
        = ((context.strokes xkb backend event).foldl Typist.strike typist).committed := by
  cases h with
  | @keyboardGrab event _ h =>
      cases InputContext.keyboardGrabEvent_ok h with
      | @ignored _ _ keyState hstate =>
          cases keyState with
          | pressed =>
              simp only [InputContext.strokes, InputContext.handlesKey, Option.map_some,
                Option.toList_some, List.foldl_cons, List.foldl_nil, InputContext.stroke, hstate]
              exact ⟨hholds, List.append_nil _⟩
          | released => exact ⟨hholds, List.append_nil _⟩
      | press hafter hpress =>
          obtain ⟨hbuffer, hcommits⟩ := hpress.holds
          rw [hbuffer, hcommits]
          exact hholds.handleKey hafter
      | release hrelease =>
          cases hrelease with
          | stopped => exact ⟨hholds, List.append_nil _⟩
          | kept => exact ⟨hholds, List.append_nil _⟩
          | forwarded => exact ⟨hholds, List.append_nil _⟩
      | noKey hkey hcontext _ htyping =>
          have hnone : context.strokes xkb backend (.keyboardGrab seatIndex event) = [] := by
            cases event with
            | key => exact absurd rfl (hkey _ _ _)
            | _ => rfl
          rw [hnone, commits_eq_nil htyping, hcontext]
          exact ⟨hholds, List.append_nil _⟩
  | inputMethod =>
      obtain ⟨⟨_, _, _, _, _, hcontext⟩, htyping⟩ := context.inputMethodEvent_frame _
      rw [commits_eq_nil htyping, hcontext]
      exact ⟨hholds, List.append_nil _⟩
  | timer _ _ h =>
      obtain ⟨after, hrepeat, rfl⟩ := InputContext.timerEvent_ok h
      obtain ⟨_, repeating, handledKey, timestamp, _, hrepeating, hhandle, hafter⟩ :=
        InputContext.repeatKey_ok hrepeat
      have hretimed : Holds ({ context with
          repeatTimer := some { repeating with timestamp } }).buffer typist.editor := hholds
      -- the timestamp, which is advanced first, has no part in the stroke
      have hkey : Holds handledKey.context.buffer
            (typist.strike (context.stroke xkb backend repeating.keycode)).editor
          ∧ typist.committed ++ commits handledKey.requests
            = (typist.strike (context.stroke xkb backend repeating.keycode)).committed :=
        hretimed.handleKey hhandle
      simp only [InputContext.strokes, InputContext.handlesKey, hrepeating, Option.map_some,
        Option.toList_some, List.foldl_cons, List.foldl_nil]
      rcases hafter with ⟨_, rfl⟩ | ⟨_, rfl⟩
      · simp only [commits_append]
        rw [show commits [Request.key _ _ _] = [] from rfl, List.append_nil]
        exact hkey
      · exact hkey

/-- An event for another seat makes no stroke on this one. -/
theorem Handles.isFor {state : State κ σ} {event : Event} {other : SeatIndex}
    (h : Handles xkb backend state.loopHandle other context event handled) :
    state.isFor seatIndex event = decide (other = seatIndex) := by
  cases h with
  | keyboardGrab => simp [State.isFor, Event.seat?]
  | inputMethod => simp [State.isFor, Event.seat?]
  | timer hfind hseat => simp [State.isFor, hfind, hseat]

/-- **So does every event**, if those of the other seats make none. -/
theorem Types.step {state state' : State κ σ} {emitted more : List (SeatIndex × Request)}
    {event : Backend ε × Event} (h : Types seatIndex emitted state typist)
    (hstep : state.dispatchAsking xkb event = .ok (state', more)) :
    Types seatIndex (emitted ++ more) state'
      ((state.strokes xkb seatIndex event).foldl Typist.strike typist) := by
  obtain ⟨backend, event⟩ := event
  rcases State.dispatch_ok hstep with ⟨registryEvent, rfl, rfl, rfl⟩ | ⟨token, rfl, hfind, rfl, rfl⟩ |
    ⟨other, context, handled, hcontext, hhandles, rfl, rfl⟩
  · have hnone : state.strokes xkb seatIndex (backend, .registry registryEvent) = [] := by
      unfold State.strokes
      split <;> rfl
    rw [hnone, List.append_nil]
    refine ⟨h.commits, fun context hcontext => h.holds context ?_⟩
    cases registryEvent with
    | seat id => exact hcontext
    | globalRemove id =>
        rw [State.context?_globalRemove] at hcontext
        exact Option.eq_some_of_filter_eq_some hcontext
  · have hnone : state'.strokes xkb seatIndex (backend, .timer token) = [] := by
      unfold State.strokes State.isFor
      split
      · rfl
      · simp [hfind]
    rw [hnone, List.append_nil]
    exact h
  · by_cases hseat : other = seatIndex
    · subst hseat
      have hstrokes : state.strokes xkb other (backend, event)
          = context.strokes xkb backend event := by
        unfold State.strokes
        rw [hcontext]
        simp [hhandles.isFor]
      obtain ⟨hholds, hcommits⟩ := hhandles.types (h.holds context hcontext)
      rw [hstrokes]
      constructor
      · rw [requestsOf_append, requestsOf_map, if_pos rfl, commits_append, h.commits, hcommits]
      · intro context' hcontext'
        rw [State.context?_put hcontext, if_pos rfl] at hcontext'
        cases hcontext'
        exact hholds
    · have hnone : state.strokes xkb seatIndex (backend, event) = [] := by
        unfold State.strokes
        split
        · rfl
        · rw [if_neg (by simpa [hhandles.isFor] using hseat)]
      rw [hnone]
      constructor
      · rw [requestsOf_append, requestsOf_map, if_neg hseat, List.append_nil]
        exact h.commits
      · intro context' hcontext'
        rw [State.context?_put hcontext, if_neg (Ne.symm hseat)] at hcontext'
        exact h.holds context' hcontext'

/-- An event makes one stroke on a seat at most, and that of Return asks the backend. -/
theorem State.strokes_enter {state : State κ σ} {event : Backend ε × Event}
    (hne : state.strokes xkb seatIndex event ≠ []) : ∃ context stroke,
    state.context? seatIndex = some context ∧ state.strokes xkb seatIndex event = [stroke]
      ∧ ∀ expand, stroke = .enter expand → expand = event.1.expand := by
  unfold State.strokes at hne ⊢
  cases hcontext : state.context? seatIndex with
  | none => simp [hcontext] at hne
  | some context =>
      simp only [hcontext] at hne
      by_cases hfor : state.isFor seatIndex event.2 = true
      · simp only [if_pos hfor, InputContext.strokes] at hne ⊢
        cases hkey : context.handlesKey event.2 with
        | none => simp [hkey] at hne
        | some key =>
            refine ⟨context, context.stroke xkb event.1 key, rfl, rfl, fun expand henter => ?_⟩
            unfold InputContext.stroke at henter
            split at henter
            · cases henter
            · split at henter
              · cases henter; rfl
              · cases henter
              · cases henter
              · cases henter
              · split at henter <;> cases henter
      · rw [if_neg hfor] at hne
        exact absurd rfl hne

/-- **Only Return commits**, and only what the backend answers for the buffer. -/
theorem Types.commits_of_step {state state' : State κ σ} {emitted more : List (SeatIndex × Request)}
    {event : Backend ε × Event} {out : String} (h : Types seatIndex emitted state typist)
    (hstep : state.dispatchAsking xkb event = .ok (state', more))
    (hout : out ∈ Wayland.commits (requestsOf seatIndex more)) :
    ∃ context text, state.context? seatIndex = some context ∧ context.buffer = some text
      ∧ text ≠ "" ∧ state.strokes xkb seatIndex event = [.enter event.1.expand]
      ∧ event.1.checkTrigger text = .ok (some out) := by
  have hcommits := (h.step hstep).commits
  rw [requestsOf_append, commits_append, h.commits] at hcommits
  by_cases hnone : state.strokes xkb seatIndex event = []
  · rw [hnone] at hcommits
    rw [List.append_right_eq_self.mp hcommits] at hout
    cases hout
  · obtain ⟨context, stroke, hcontext, hstroke, henter⟩ := State.strokes_enter hnone
    rw [hstroke] at hcommits
    obtain ⟨expand, rfl, hmem⟩ := Typist.mem_of_strike hcommits hout
    obtain rfl := henter expand rfl
    obtain ⟨hne, hexpand⟩ := Typist.mem_output.mp hmem
    have hholds := h.holds context hcontext
    rw [← hholds.text] at hne hexpand
    rw [String.ofList_toList] at hexpand
    cases hbuffer : context.buffer with
    | none =>
        rw [hbuffer] at hne
        exact absurd rfl hne
    | some text =>
        rw [hbuffer] at hexpand
        refine ⟨context, text, hcontext, hbuffer, ?_, hstroke, Backend.expand_eq_some.mp hexpand⟩
        rintro rfl
        exact hholds.nonempty hbuffer

/-! ## §5. Runs. -/

theorem Types.of_run {seatIds : List UInt32} {events : List (Backend ε × Event)}
    {emitted : List (SeatIndex × Request)} {state : State κ σ} (seatIndex : SeatIndex)
    (hrun : Run (State.dispatchAsking xkb) (fun _ _ _ => True) (State.init seatIds) events emitted
      state) :
    Types seatIndex emitted state (Typist.type (strokes xkb seatIndex seatIds events)) := by
  refine hrun.simulates Typist.strike (Types seatIndex) ⟨rfl, fun context hcontext => ?_⟩
    fun h _ hstep => h.step hstep
  obtain ⟨seatId, _, rfl⟩ := State.context?_init hcontext
  exact holds_fresh

/-- **Typing on a seat**: in every run, what has been committed on a seat is what a typist has
committed who makes the strokes of the seat, and as long as the seat is there, its buffer is the
text of the typist, and the cursor is at its end. -/
theorem typed_of_run {seatIds : List UInt32} {events : List (Backend ε × Event)}
    {emitted : List (SeatIndex × Request)} {state : State κ σ} (seatIndex : SeatIndex)
    (hrun : Run (State.dispatchAsking xkb) (fun _ _ _ => True) (State.init seatIds) events emitted
      state) :
    commits (requestsOf seatIndex emitted)
        = (Typist.type (strokes xkb seatIndex seatIds events)).committed
      ∧ ∀ context, state.context? seatIndex = some context →
        (context.buffer.getD "").toList
            = (Typist.type (strokes xkb seatIndex seatIds events)).editor.text
          ∧ (Typist.type (strokes xkb seatIndex seatIds events)).editor.cursor
            = (context.buffer.getD "").toList.length
          ∧ context.buffer ≠ some "" := by
  have htypes := Types.of_run seatIndex hrun
  refine ⟨htypes.commits, fun context hcontext => ?_⟩
  have hholds := htypes.holds context hcontext
  exact ⟨hholds.text, by rw [hholds.text]; exact hholds.cursor, hholds.nonempty⟩

/-- `a` is typed, repeated, and Return is pressed. -/
def typedAA : List (Backend Unit × Event) :=
  (setUp ++ [Event.keyboardGrab 0 (.key 7 30 .pressed), Event.timer 0,
    Event.keyboardGrab 0 (.key 8 30 .released),
    Event.keyboardGrab 0 (.key 9 28 .pressed)]).map (ShinranEngine.oneTrigger "aa" "bee", ·)

theorem typed_of_run_aa :
    ∃ emitted state, Run (State.dispatchAsking smallKeyboard) (fun _ _ _ => True)
        (State.init [1]) typedAA emitted state
      ∧ commits (requestsOf 0 emitted)
        = (Typist.type (strokes smallKeyboard 0 [1] typedAA)).committed
      ∧ commits (requestsOf 0 emitted) = ["bee"] := by
  refine Run.exists_of_exec (fun emitted _ => decide (commits (requestsOf 0 emitted) = ["bee"]))
    (by decide) ?_
  intro emitted state hrun htest
  exact ⟨(typed_of_run 0 hrun).1, of_decide_eq_true htest⟩

end Shinran.Wayland
