/-
  Shinran.Simulation
  ──────────────────
  **MACHINES THAT CARRY OUT AN ABSTRACT ONE.**

  An event of a machine stands for a few moves of an abstract machine, or for
  none; which ones it stands for may depend on the state in which it is
  handled.

    • `Run.moves_append` — the moves of a run, one event after another,
    • `Run.simulates`    — a machine whose steps are moves has runs that are.
-/
import Shinran.Machine

namespace Machine

variable {σ ε ρ π μ τ : Type}

/-! ## §1. Moves. -/

/-- What events stand for, each in the state in which it is handled. -/
def moves (step : Step σ ε ρ π) (meaning : σ → ε → List μ) : σ → List ε → List μ
  | _, [] => []
  | state, event :: events =>
      meaning state event ++
        match step state event with
        | .ok (state', _) => moves step meaning state' events
        | .error _ => []

variable {step : Step σ ε ρ π} {meaning : σ → ε → List μ} {guard : Guard σ ε} {start state : σ}
  {events : List ε} {emitted : List ρ}

/-- A move is what some event stands for. -/
theorem exists_of_mem_moves {move : μ} (h : move ∈ moves step meaning start events) :
    ∃ state event, move ∈ meaning state event := by
  induction events generalizing start with
  | nil => cases h
  | cons event events ih =>
      rw [moves] at h
      cases List.mem_append.mp h with
      | inl hmem => exact ⟨start, event, hmem⟩
      | inr hmem =>
          split at hmem
          · exact ih hmem
          · cases hmem

/-- What comes after a run has the meaning that it has in the state that the run leads to. -/
theorem Run.moves_append (hrun : Run step guard start events emitted state) (rest : List ε) :
    moves step meaning start (events ++ rest)
      = moves step meaning start events ++ moves step meaning state rest := by
  induction hrun generalizing rest with
  | nil => rfl
  | @snoc events emitted state event state' more hbefore hstep _ ih =>
      have hone : ∀ rest, moves step meaning state (event :: rest)
          = meaning state event ++ moves step meaning state' rest := fun rest => by
        rw [moves, hstep]
      rw [List.append_assoc, List.singleton_append, ih (event :: rest), ih [event], hone, hone]
      simp [moves]

/-- One event more. -/
theorem Run.moves_snoc (hrun : Run step guard start events emitted state) (event : ε) :
    moves step meaning start (events ++ [event])
      = moves step meaning start events ++ meaning state event := by
  rw [hrun.moves_append]
  congr 1
  simp only [moves]
  split <;> exact List.append_nil _

/-- Where the meaning does not depend on the state. -/
theorem Run.moves_eq_flatMap (meaning : ε → List μ)
    (hrun : Run step guard start events emitted state) :
    moves step (fun _ => meaning) start events = events.flatMap meaning := by
  induction hrun with
  | nil => rfl
  | snoc hbefore _ _ ih => rw [hbefore.moves_snoc, ih, List.flatMap_append, List.flatMap_singleton]

/-! ## §2. Simulation. -/

/-- **The rule of simulation**: if the machines are related at the start, and if every admitted
step of the one is related again after the moves that the event stands for, then so is every
run. -/
theorem Run.simulates (move : τ → μ → τ) (rel : List ρ → σ → τ → Prop) {abstract : τ}
    (hstart : rel [] start abstract)
    (hstep : ∀ {events emitted state abstract event state' more}, rel emitted state abstract →
      guard events state event → step state event = .ok (state', more) →
      rel (emitted ++ more) state' ((meaning state event).foldl move abstract))
    (hrun : Run step guard start events emitted state) :
    rel emitted state ((moves step meaning start events).foldl move abstract) := by
  induction hrun with
  | nil => exact hstart
  | snoc hbefore heq hguard ih =>
      rw [hbefore.moves_snoc, List.foldl_append]
      exact hstep ih hguard heq

end Machine
