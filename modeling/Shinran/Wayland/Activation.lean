/-
  Shinran.Wayland.Activation
  ──────────────────────────
  **ACTIVATION AND THE KEYBOARD GRAB.**

  The compositor announces by `Activate` and `Deactivate` what is to become of
  the seat, and by `Done` that the batch is complete.  The context keeps which
  kinds of events a batch had, but not their order.

    • `followsActivation_iff` — the grab follows the last announcement as long as
                                no batch announces both and ends where it began,
    • `reactivation_drops_grab` — a batch that does,
    • `activation_of_run`     — in a run of the frontend nothing else matters.
-/
import Mathlib.Data.List.DropRight
import Shinran.Machine
import Shinran.Wayland.Steps

namespace Shinran.Wayland

open Machine (latest latest_append)

/-! ## §1. Sequences of events. -/

/-- What an event announces: activity, or its end. -/
def InputMethodEvent.announces? : InputMethodEvent → Option Bool
  | .activate => some true
  | .deactivate => some false
  | _ => none

/-- The last announcement, where a seat is inactive at first. -/
def lastAnnounced (events : List InputMethodEvent) : Bool :=
  (latest InputMethodEvent.announces? events).getD false

/-- The events up to the last `Done`, and those behind it. -/
def completed (events : List InputMethodEvent) : List InputMethodEvent :=
  events.rdropWhile (· ≠ .done)

def batch (events : List InputMethodEvent) : List InputMethodEvent :=
  events.rtakeWhile (· ≠ .done)

theorem completed_append_batch (events : List InputMethodEvent) :
    completed events ++ batch events = events := List.rdropWhile_append_rtakeWhile

@[simp] theorem completed_append_done (events : List InputMethodEvent) :
    completed (events ++ [.done]) = events ++ [.done] := by simp [completed]

@[simp] theorem batch_append_done (events : List InputMethodEvent) :
    batch (events ++ [.done]) = [] := by simp [batch]

theorem completed_append {event : InputMethodEvent} (h : event ≠ .done)
    (events : List InputMethodEvent) : completed (events ++ [event]) = completed events := by
  simp [completed, h]

theorem batch_append {event : InputMethodEvent} (h : event ≠ .done)
    (events : List InputMethodEvent) : batch (events ++ [event]) = batch events ++ [event] := by
  simp [batch, h]

theorem completed_cases (events : List InputMethodEvent) :
    completed events = [] ∨ ∃ before, completed events = before ++ [.done] := by
  rcases List.eq_nil_or_concat (completed events) with hnil | ⟨before, last, hlast⟩
  · exact Or.inl hnil
  · have hne : completed events ≠ [] := by rw [hlast]; simp
    have hdone : ¬ decide ((completed events).getLast hne ≠ .done) :=
      List.rdropWhile_last_not (fun event => decide (event ≠ InputMethodEvent.done)) events hne
    have hlast' : last = .done := by simpa [hlast] using hdone
    exact Or.inr ⟨before, by rw [hlast, hlast', List.concat_eq_append]⟩

/-! ## §2. What was announced last. -/

@[simp] theorem lastAnnounced_append_done (events : List InputMethodEvent) :
    lastAnnounced (events ++ [.done]) = lastAnnounced events := by
  rw [lastAnnounced, latest_append]
  rfl

/-- Where all announcements agree, the last one does not differ. -/
theorem lastAnnounced_append_of_agree {events more : List InputMethodEvent} {active : Bool}
    (hsome : ∃ event ∈ more, event.announces? = some active)
    (hagree : ∀ event ∈ more, event.announces? ≠ some (!active)) :
    lastAnnounced (events ++ more) = active := by
  obtain ⟨event, hevent, hannounces⟩ := hsome
  obtain ⟨last, hlast⟩ := Machine.latest_isSome hevent hannounces
  obtain ⟨event', hevent', hannounces'⟩ := Machine.exists_of_latest hlast
  have hne : last ≠ !active := by
    intro heq
    exact hagree event' hevent' (by rw [hannounces', heq])
  rw [lastAnnounced, latest_append, hlast]
  show last = active
  cases last <;> cases active <;> simp_all

theorem lastAnnounced_append_of_none {events more : List InputMethodEvent}
    (hnone : ∀ event ∈ more, event.announces? = none) :
    lastAnnounced (events ++ more) = lastAnnounced events := by
  rw [lastAnnounced, latest_append, Machine.latest_eq_none hnone]
  rfl

/-! ## §3. The grab. -/

variable {κ σ : Type}

/-- Handling events of the input method one after another. -/
def InputContext.afterEvents (context : InputContext κ σ) (events : List InputMethodEvent) :
    InputContext κ σ :=
  events.foldl (fun context event => (context.inputMethodEvent event).1) context

@[simp] theorem InputContext.afterEvents_append (context : InputContext κ σ)
    (events : List InputMethodEvent) (event : InputMethodEvent) :
    context.afterEvents (events ++ [event])
      = ((context.afterEvents events).inputMethodEvent event).1 := by
  simp [InputContext.afterEvents]

theorem InputContext.keyboardGrab_done (context : InputContext κ σ) :
    context.done.1.keyboardGrab
      = if context.keyboardGrab then !context.pendingDeactivate else context.pendingActivate := by
  unfold InputContext.done
  cases context.keyboardGrab <;> cases context.pendingDeactivate <;>
    cases context.pendingActivate <;> rfl

theorem InputContext.pending_done (context : InputContext κ σ) :
    context.done.1.pendingActivate = false ∧ context.done.1.pendingDeactivate = false :=
  ⟨rfl, rfl⟩

variable (context : InputContext κ σ)

/-- The grab is that of the last `Done`, and the context knows which kinds of events came since. -/
theorem InputContext.afterEvents_pending (hactivate : context.pendingActivate = false)
    (hdeactivate : context.pendingDeactivate = false) (events : List InputMethodEvent) :
    ((context.afterEvents events).pendingActivate = true ↔ .activate ∈ batch events) ∧
      ((context.afterEvents events).pendingDeactivate = true ↔ .deactivate ∈ batch events) ∧
      (context.afterEvents events).keyboardGrab
        = (context.afterEvents (completed events)).keyboardGrab := by
  induction events using List.reverseRecOn with
  | nil => simp [InputContext.afterEvents, batch, completed, hactivate, hdeactivate]
  | append_singleton events event ih =>
      obtain ⟨ihactivate, ihdeactivate, ihgrab⟩ := ih
      by_cases hdone : event = .done
      · subst hdone
        obtain ⟨hactivate', hdeactivate'⟩ := (context.afterEvents events).pending_done
        rw [completed_append_done, batch_append_done, InputContext.afterEvents_append]
        simp [InputContext.inputMethodEvent, hactivate', hdeactivate']
      · rw [completed_append hdone, batch_append hdone, InputContext.afterEvents_append, ← ihgrab]
        cases event <;>
          simp_all [InputContext.inputMethodEvent, List.mem_append]

/-- What holds of the events before each `Done`. -/
def EachBatch (p : List InputMethodEvent → Prop) (events : List InputMethodEvent) : Prop :=
  ∀ before, before ++ [.done] <+: events → p before

/-- After each `Done`, the grab is held iff activity was announced last. -/
def FollowsActivation : List InputMethodEvent → Prop :=
  EachBatch fun before =>
    (context.afterEvents (before ++ [.done])).keyboardGrab = true ↔ lastAnnounced before = true

/-- A batch that announces both activity and its end does not end on what was the case before. -/
def DecidedBatches : List InputMethodEvent → Prop :=
  EachBatch fun before =>
    .activate ∈ batch before → .deactivate ∈ batch before →
      lastAnnounced before ≠ lastAnnounced (completed before)

variable {context} {events : List InputMethodEvent}

theorem eachBatch_nil (p : List InputMethodEvent → Prop) : EachBatch p [] := by
  intro before hbefore
  exact absurd (List.prefix_nil.mp hbefore) (by simp)

theorem eachBatch_append {p : List InputMethodEvent → Prop} {event : InputMethodEvent} :
    EachBatch p (events ++ [event]) ↔ EachBatch p events ∧ (event = .done → p events) := by
  unfold EachBatch
  constructor
  · intro h
    refine ⟨fun before hbefore => h before (hbefore.trans (List.prefix_append _ _)), ?_⟩
    rintro rfl
    exact h events (List.prefix_refl _)
  · rintro ⟨hevents, hevent⟩ before hbefore
    rcases List.prefix_concat_iff.mp hbefore with heq | hprefix
    · obtain ⟨rfl, hdone⟩ := List.append_inj' heq rfl
      cases hdone
      exact hevent rfl
    · exact hevents before hprefix

/-- The grab at the start of a batch. -/
theorem FollowsActivation.completed (hgrab : context.keyboardGrab = false)
    (h : FollowsActivation context events) :
    (context.afterEvents (completed events)).keyboardGrab = lastAnnounced (completed events) := by
  have hprefix : Wayland.completed events <+: events := List.rdropWhile_prefix _ _
  rcases completed_cases events with hnil | ⟨before, hbefore⟩
  · rw [hnil]
    exact hgrab
  · rw [hbefore] at hprefix ⊢
    rw [lastAnnounced_append_done]
    exact Bool.eq_iff_iff.mpr (h before hprefix)

/-- **One batch**, where the grab was right when it began. -/
theorem followsBatch_iff (hgrab : context.keyboardGrab = false)
    (hactivate : context.pendingActivate = false) (hdeactivate : context.pendingDeactivate = false)
    (h : FollowsActivation context events) :
    ((context.afterEvents (events ++ [.done])).keyboardGrab = true ↔ lastAnnounced events = true)
      ↔ (.activate ∈ batch events → .deactivate ∈ batch events →
        lastAnnounced events ≠ lastAnnounced (completed events)) := by
  obtain ⟨hpa, hpd, hkept⟩ := context.afterEvents_pending hactivate hdeactivate events
  have hstart := FollowsActivation.completed hgrab h
  have hdone : (context.afterEvents (events ++ [.done])).keyboardGrab
      = if lastAnnounced (completed events)
        then !(context.afterEvents events).pendingDeactivate
        else (context.afterEvents events).pendingActivate := by
    rw [InputContext.afterEvents_append, ← hstart, ← hkept]
    exact InputContext.keyboardGrab_done _
  have hsplit : lastAnnounced events = lastAnnounced (completed events ++ batch events) := by
    rw [completed_append_batch]
  rw [hdone]
  by_cases ha : .activate ∈ batch events
  · by_cases hd : .deactivate ∈ batch events
    · -- the grab is dropped if it was held, and taken if it was not
      rw [hpa.mpr ha, hpd.mpr hd]
      cases lastAnnounced events <;> cases lastAnnounced (completed events) <;> simp [ha, hd]
    · have hlast : lastAnnounced events = true := by
        rw [hsplit]
        refine lastAnnounced_append_of_agree ⟨_, ha, rfl⟩ ?_
        intro event hevent hannounces
        cases event <;> simp_all [InputMethodEvent.announces?]
      rw [hpa.mpr ha, Bool.eq_false_iff.mpr (fun hp => hd (hpd.mp hp)), hlast]
      simp [hd]
  · have hpa' : (context.afterEvents events).pendingActivate = false :=
      Bool.eq_false_iff.mpr fun hp => ha (hpa.mp hp)
    by_cases hd : .deactivate ∈ batch events
    · have hlast : lastAnnounced events = false := by
        rw [hsplit]
        refine lastAnnounced_append_of_agree ⟨_, hd, rfl⟩ ?_
        intro event hevent hannounces
        cases event <;> simp_all [InputMethodEvent.announces?]
      rw [hpa', hpd.mpr hd, hlast]
      simp [ha]
    · have hlast : lastAnnounced events = lastAnnounced (completed events) := by
        conv_lhs => rw [hsplit]
        refine lastAnnounced_append_of_none ?_
        intro event hevent
        cases event <;> simp_all [InputMethodEvent.announces?]
      rw [hpa', Bool.eq_false_iff.mpr (fun hp => hd (hpd.mp hp)), hlast]
      simp [ha]

/-- **The grab follows the announcements** of an input method that is inactive at first, exactly
as long as the batches are decided. -/
theorem followsActivation_iff (seatId : UInt32) (events : List InputMethodEvent) :
    FollowsActivation ({ seatId } : InputContext κ σ) events ↔ DecidedBatches events := by
  induction events using List.reverseRecOn with
  | nil => exact ⟨fun _ => eachBatch_nil _, fun _ => eachBatch_nil _⟩
  | append_singleton events event ih =>
      unfold FollowsActivation DecidedBatches at ih ⊢
      rw [eachBatch_append, eachBatch_append, ← ih]
      refine and_congr_right fun hevents => imp_congr_right fun _ => ?_
      exact followsBatch_iff rfl rfl rfl hevents

/-- A seat that is activated again in the batch that ends its activity loses the grab. -/
theorem reactivation_drops_grab :
    ¬ FollowsActivation ({ seatId := 0 } : InputContext Unit Unit)
      [.activate, .done, .deactivate, .activate, .done] := by
  intro h
  have hlast := (h [.activate, .done, .deactivate, .activate] (List.prefix_refl _)).mpr rfl
  exact absurd hlast (by decide)

/-! ## §4. The grab in a run of the frontend. -/

/-- The events for the input method of a seat. -/
def inputMethodEvents (seatIndex : SeatIndex) (history : List Event) : List InputMethodEvent :=
  history.filterMap fun event => event.inputMethod?.bind fun told =>
    if told.1 = seatIndex then some told.2 else none

theorem inputMethodEvents_append {seatIndex : SeatIndex} {history : List Event} {event : Event} :
    inputMethodEvents seatIndex (history ++ [event])
      = inputMethodEvents seatIndex history ++ inputMethodEvents seatIndex [event] :=
  List.filterMap_append

theorem inputMethodEvents_of_seat {seatIndex : SeatIndex} {event : Event}
    (h : event.seat? ≠ some seatIndex) : inputMethodEvents seatIndex [event] = [] := by
  cases event with
  | inputMethod other inputMethodEvent =>
      have hne : other ≠ seatIndex := fun heq => h (by rw [heq]; rfl)
      simp [inputMethodEvents, Event.inputMethod?, hne]
  | _ => rfl

/-- What an event of the input method does to the grab depends on nothing else. -/
theorem SameActivation.inputMethodEvent {context context' : InputContext κ σ}
    (h : SameActivation context context') (event : InputMethodEvent) :
    SameActivation (context.inputMethodEvent event).1 (context'.inputMethodEvent event).1 := by
  obtain ⟨hseatId, hgrab, hactivate, hdeactivate⟩ := h
  cases event with
  | done =>
      show SameActivation context.done.1 context'.done.1
      unfold InputContext.done
      simp only [hgrab, hactivate, hdeactivate]
      cases context.keyboardGrab <;> cases context.pendingDeactivate <;>
        cases context.pendingActivate <;> exact ⟨hseatId, by simp, rfl, rfl⟩
  | activate => exact ⟨hseatId, hgrab, rfl, hdeactivate⟩
  | deactivate => exact ⟨hseatId, hgrab, hactivate, rfl⟩
  | _ => exact ⟨hseatId, hgrab, hactivate, hdeactivate⟩

/-- **In a run of the frontend** the grab of a seat is what the events of its input method make
of it, whatever else happens in between. -/
theorem activation_of_run {ε : Type} {xkb : Xkb κ σ} {backend : Backend ε}
    {guard : Machine.Guard (State κ σ) Event} {seatIds : List UInt32} {seatIndex : SeatIndex}
    {history : List Event} {requests : List (SeatIndex × Request)} {state : State κ σ}
    {context : InputContext κ σ}
    (hrun : Machine.Run (State.dispatch xkb backend) guard (State.init seatIds) history requests
      state)
    (hcontext : state.context? seatIndex = some context) :
    ∃ seatId, seatIds[seatIndex]? = some seatId ∧
      SameActivation (({ seatId } : InputContext κ σ).afterEvents
        (inputMethodEvents seatIndex history)) context := by
  refine hrun.invariant (fun history _ state =>
    ∀ context, state.context? seatIndex = some context →
      ∃ seatId, seatIds[seatIndex]? = some seatId ∧
        SameActivation (({ seatId } : InputContext κ σ).afterEvents
          (inputMethodEvents seatIndex history)) context) ?_ ?_ context hcontext
  · intro context hcontext
    obtain ⟨seatId, hseatId, rfl⟩ := State.context?_init hcontext
    exact ⟨seatId, hseatId, rfl, rfl, rfl, rfl⟩
  · intro history _ state event state' _ ih _ hstep context' hcontext'
    rw [inputMethodEvents_append]
    rcases State.dispatch_seat hstep seatIndex with ⟨hsame, _, hother⟩ |
      ⟨context, handled, hcontext, hhandles, hafter, _⟩
    · rw [inputMethodEvents_of_seat hother, List.append_nil]
      exact ih context' (hsame context' hcontext')
    · obtain ⟨seatId, hseatId, hactivation⟩ := ih context hcontext
      rw [hafter] at hcontext'
      cases hcontext'
      refine ⟨seatId, hseatId, ?_⟩
      by_cases hinput : ∃ inputMethodEvent, event = .inputMethod seatIndex inputMethodEvent
      · obtain ⟨inputMethodEvent, rfl⟩ := hinput
        have hone : inputMethodEvents seatIndex [.inputMethod seatIndex inputMethodEvent]
            = [inputMethodEvent] := by
          simp [inputMethodEvents, Event.inputMethod?]
        rw [hone, InputContext.afterEvents_append]
        cases hhandles with
        | inputMethod => exact hactivation.inputMethodEvent inputMethodEvent
      · have hnone : inputMethodEvents seatIndex [event] = [] := by
          cases event with
          | inputMethod other inputMethodEvent =>
              have hne : other ≠ seatIndex := fun heq => hinput ⟨_, by rw [heq]⟩
              simp [inputMethodEvents, Event.inputMethod?, hne]
          | _ => rfl
        rw [hnone, List.append_nil]
        have hsame := hhandles.sameActivation fun inputMethodEvent heq => hinput ⟨_, heq⟩
        exact ⟨hsame.seatId.trans hactivation.seatId,
          hsame.keyboardGrab.trans hactivation.keyboardGrab,
          hsame.pendingActivate.trans hactivation.pendingActivate,
          hsame.pendingDeactivate.trans hactivation.pendingDeactivate⟩

end Shinran.Wayland
