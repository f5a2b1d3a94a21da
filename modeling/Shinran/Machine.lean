/-
  Shinran.Machine
  ───────────────
  **RUNS OF A MACHINE THAT EMITS AND MAY STOP.**

  A step takes a state and an event to the next state and to what is emitted
  meanwhile, or stops the machine for good.  A run handles events one after
  another, each of them admitted by a guard that sees the events before it.

    • `Run.invariant` — what the steps of a run preserve holds in all its states,
    • `Run.exists_step_of_mem` — what is emitted is emitted by one of the steps,
    • `Run.unique` — the events of a run decide all the rest,
    • `Run.exists_of_exec` — runs can be computed,
    • `latest_append` — what was noted last in a history.
-/
import Mathlib.Data.List.Basic

namespace Machine

/-! ## §1. Runs. -/

/-- Steps from states `σ` on events `ε`, which emit `ρ` and may stop with `π`. -/
abbrev Step (σ ε ρ π : Type) := σ → ε → Except π (σ × List ρ)

/-- Which events are admitted, after which others and in which states. -/
abbrev Guard (σ ε : Type) := List ε → σ → ε → Prop

variable {σ ε ρ π : Type}

/-- `Run step guard start events emitted state`: handling `events` from `start` on emits
`emitted` and leads to `state`, and the guard admits every event. -/
inductive Run (step : Step σ ε ρ π) (guard : Guard σ ε) (start : σ) :
    List ε → List ρ → σ → Prop
  | nil : Run step guard start [] [] start
  | snoc {events : List ε} {emitted : List ρ} {state : σ} {event : ε} {state' : σ}
      {more : List ρ} :
      Run step guard start events emitted state → step state event = .ok (state', more) →
      guard events state event → Run step guard start (events ++ [event]) (emitted ++ more) state'

namespace Run

variable {step : Step σ ε ρ π} {guard : Guard σ ε} {start state : σ}
  {events : List ε} {emitted : List ρ}

/-- **The rule of invariants**: what holds at the start and is preserved by the admitted steps
holds at the end of every run. -/
theorem invariant (inv : List ε → List ρ → σ → Prop) (hstart : inv [] [] start)
    (hstep : ∀ {events emitted state event state' more}, inv events emitted state →
      guard events state event → step state event = .ok (state', more) →
      inv (events ++ [event]) (emitted ++ more) state')
    (hrun : Run step guard start events emitted state) : inv events emitted state := by
  induction hrun with
  | nil => exact hstart
  | snoc _ heq hguard ih => exact hstep ih hguard heq

/-- A guard that admits more admits every run of the other one. -/
theorem mono {guard' : Guard σ ε}
    (h : ∀ events state event, guard events state event → guard' events state event)
    (hrun : Run step guard start events emitted state) :
    Run step guard' start events emitted state := by
  induction hrun with
  | nil => exact .nil
  | snoc _ heq hguard ih => exact .snoc ih heq (h _ _ _ hguard)

/-- **Whatever is emitted is emitted by a step**, in the state to which the events before lead. -/
theorem exists_step_of_mem {r : ρ} (hrun : Run step guard start events emitted state)
    (hr : r ∈ emitted) :
    ∃ before event after earlier here next more, events = before ++ event :: after
      ∧ Run step guard start before earlier here ∧ step here event = .ok (next, more)
      ∧ r ∈ more := by
  induction hrun with
  | nil => cases hr
  | @snoc events emitted state event state' more hbefore hstep _ ih =>
      cases List.mem_append.mp hr with
      | inl hearlier =>
          obtain ⟨before, event', after, earlier, here, next, more', rfl, hrest⟩ := ih hearlier
          exact ⟨before, event', after ++ [event], earlier, here, next, more', by simp, hrest⟩
      | inr hnow => exact ⟨events, event, [], emitted, state, state', more, rfl, hbefore, hstep, hnow⟩

/-- The events decide what is emitted, and where the run leads to. -/
theorem unique {emitted' : List ρ} {state' : σ} (hrun : Run step guard start events emitted state)
    (hrun' : Run step guard start events emitted' state') : emitted = emitted' ∧ state = state' := by
  induction hrun generalizing emitted' state' with
  | nil =>
      generalize hnil : [] = none at hrun'
      cases hrun' with
      | nil => exact ⟨rfl, rfl⟩
      | snoc => simp at hnil
  | snoc _ hstep _ ih =>
      generalize heq : _ ++ [_] = all at hrun'
      cases hrun' with
      | nil => simp at heq
      | snoc hbefore hstep' _ =>
          obtain ⟨rfl, hlast⟩ := List.append_inj' heq rfl
          obtain rfl := List.singleton_inj.mp hlast
          obtain ⟨rfl, rfl⟩ := ih hbefore
          rw [hstep] at hstep'
          cases hstep'
          exact ⟨rfl, rfl⟩

end Run

/-! ## §2. Computing runs. -/

section Exec

variable (step : Step σ ε ρ π) (guard : Guard σ ε)
  [∀ events state event, Decidable (guard events state event)]

/-- Handle the second list of events after the first one, if the guard admits them all. -/
def exec : List ε → List ρ → σ → List ε → Option (List ρ × σ)
  | _, emitted, state, [] => some (emitted, state)
  | events, emitted, state, event :: rest =>
      if guard events state event then
        match step state event with
        | .ok (state', more) => exec (events ++ [event]) (emitted ++ more) state' rest
        | .error _ => none
      else none

variable {step guard}

theorem Run.exec_append {start state state' : σ} {events rest : List ε} {emitted emitted' : List ρ}
    (hrun : Run step guard start events emitted state)
    (hexec : exec step guard events emitted state rest = some (emitted', state')) :
    Run step guard start (events ++ rest) emitted' state' := by
  induction rest generalizing events emitted state with
  | nil =>
      simp only [exec, Option.some.injEq, Prod.mk.injEq] at hexec
      obtain ⟨rfl, rfl⟩ := hexec
      simpa using hrun
  | cons event rest ih =>
      rw [exec] at hexec
      split at hexec
      · rename_i hguard
        split at hexec
        · rename_i heq
          have hrun' := ih (.snoc hrun heq hguard) hexec
          rwa [List.append_assoc] at hrun'
        · cases hexec
      · cases hexec

/-- **Runs can be computed**, and what they lead to can be tested. -/
theorem Run.exists_of_exec {start : σ} {events : List ε} {p : List ρ → σ → Prop}
    (test : List ρ → σ → Bool)
    (hexec : (exec step guard [] [] start events).any (fun result => test result.1 result.2))
    (hp : ∀ emitted state, Run step guard start events emitted state →
      test emitted state = true → p emitted state) :
    ∃ emitted state, Run step guard start events emitted state ∧ p emitted state := by
  obtain ⟨⟨emitted, state⟩, hsome, htest⟩ := (Option.any_eq_true _ _).mp hexec
  have hrun : Run step guard start events emitted state := Run.nil.exec_append hsome
  exact ⟨emitted, state, hrun, hp emitted state hrun htest⟩

end Exec

/-! ## §3. What happened last. -/

section Latest

variable {α β : Type}

/-- What was noted last, where not everything is worth a note. -/
def latest (note : α → Option β) (history : List α) : Option β :=
  (history.filterMap note).getLast?

@[simp] theorem latest_nil (note : α → Option β) : latest note [] = none := rfl

theorem latest_append (note : α → Option β) (history more : List α) :
    latest note (history ++ more) = (latest note more).or (latest note history) := by
  simp [latest, List.filterMap_append, List.getLast?_append]

theorem latest_singleton (note : α → Option β) (a : α) : latest note [a] = note a := by
  cases h : note a <;> simp [latest, h]

theorem latest_eq_none {note : α → Option β} {history : List α} (h : ∀ a ∈ history, note a = none) :
    latest note history = none := by
  rw [latest, List.filterMap_eq_nil_iff.mpr h]
  rfl

theorem exists_of_latest {note : α → Option β} {history : List α} {b : β}
    (h : latest note history = some b) : ∃ a ∈ history, note a = some b :=
  List.mem_filterMap.mp (List.mem_of_getLast? h)

theorem latest_isSome {note : α → Option β} {history : List α} {a : α} {b : β} (ha : a ∈ history)
    (hb : note a = some b) : ∃ c, latest note history = some c := by
  have hmem : b ∈ history.filterMap note := List.mem_filterMap.mpr ⟨a, ha, hb⟩
  cases hlast : (history.filterMap note).getLast? with
  | none => rw [List.getLast?_eq_none_iff.mp hlast] at hmem; cases hmem
  | some c => exact ⟨c, hlast⟩

end Latest

end Machine
