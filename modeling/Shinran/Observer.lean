/-
  Shinran.Observer
  ────────────────
  **MACHINES UNDER OBSERVATION.**

  An observer sees every event and what the machine emits for it, keeps a view
  of its own, and may object.  It does not interfere with the machine.

    • `watched_ok`   — a step that is watched is a step,
    • `Run.approves` — an observer that agrees with the machine from the start
                       on, and after every step, never objects.
-/
import Shinran.Machine

namespace Machine

variable {σ ε ρ π ω : Type}

/-! ## §1. Observers. -/

/-- What an observer makes of an event and of what is emitted for it; `none` is an objection. -/
abbrev Observer (ω ε ρ : Type) := ω → ε → List ρ → Option ω

/-- The machine beside the view of an observer, which is gone once the observer has objected. -/
def watched (step : Step σ ε ρ π) (observe : Observer ω ε ρ) : Step (σ × Option ω) ε ρ π :=
  fun state event =>
    match step state.1 event with
    | .ok (state', more) => .ok ((state', state.2.bind fun view => observe view event more), more)
    | .error stop => .error stop

/-- The guard does not see the observer. -/
def Guard.watched (guard : Guard σ ε) : Guard (σ × Option ω) ε :=
  fun events state event => guard events state.1 event

variable {step : Step σ ε ρ π} {observe : Observer ω ε ρ} {guard : Guard σ ε} {start state : σ}
  {events : List ε} {emitted : List ρ}

theorem watched_ok {view : Option ω} {event : ε} {state' : σ × Option ω} {more : List ρ} :
    watched step observe (state, view) event = .ok (state', more)
      ↔ step state event = .ok (state'.1, more)
        ∧ state'.2 = view.bind fun view => observe view event more := by
  unfold watched
  constructor
  · intro h
    split at h
    · rename_i heq
      cases h
      exact ⟨heq, rfl⟩
    · cases h
  · rintro ⟨hstep, hview⟩
    simp only [hstep, ← hview]

/-! ## §2. Watching a run. -/

/-- **The rule of observation**: an observer that agrees with the machine at first, and that
follows every admitted step from agreement to agreement, never objects. -/
theorem Run.approves (agrees : ω → σ → Prop) {view : ω} (hstart : agrees view start)
    (hstep : ∀ {events view state event state' more}, agrees view state →
      guard events state event → step state event = .ok (state', more) →
      ∃ view', observe view event more = some view' ∧ agrees view' state')
    (hrun : Run step guard start events emitted state) :
    ∃ view', Run (watched step observe) guard.watched (start, some view) events emitted
      (state, some view') ∧ agrees view' state := by
  induction hrun with
  | nil => exact ⟨view, .nil, hstart⟩
  | snoc _ heq hguard ih =>
      obtain ⟨view', hwatched, hagrees⟩ := ih
      obtain ⟨view'', hobserve, hagrees'⟩ := hstep hagrees hguard heq
      exact ⟨view'', .snoc hwatched (watched_ok.mpr ⟨heq, hobserve.symm⟩) hguard, hagrees'⟩

end Machine
