/-
  Shinran.Frontend.SameText
  ─────────────────────────
  **BOTH FRONTENDS COMMIT THE SAME.**

  The frontends have nothing in common but the backend.  The seat of the
  Wayland frontend has no cursor, and the cursor of the IBus engine is counted
  in characters and used as an offset into bytes.  What a seat can type is
  ASCII, where that makes no difference.

    • `Wayland.ascii_of_stroke`       — what a seat inserts,
    • `ShinranEngine.fitting_of_narrow` — every key for such a character fits,
    • `same_text`                     — the same strokes, the same commits.
-/
import Shinran.Wayland.Typing

namespace Shinran

open Machine (Run)

variable {ε ε' : Type}

/-! ## §1. What a seat inserts. -/

theorem utf8Size_ofNat {code : Nat} (h : code < 128) : (Char.ofNat code).utf8Size = 1 := by
  have hvalid : code.isValidChar := Or.inl (by omega)
  have hval : (Char.ofNat code).val.toNat = code := by
    unfold Char.ofNat
    rw [dif_pos hvalid]
    rfl
  unfold Char.utf8Size
  dsimp only
  rw [if_pos]
  rw [UInt32.le_iff_toNat_le, hval]
  exact Nat.le_of_lt_succ h

namespace Wayland

variable {κ σ : Type} {xkb : Xkb κ σ} {seatIndex : SeatIndex}

/-- **A seat inserts ASCII only.** -/
theorem InputContext.ascii_of_stroke {backend : Backend ε} {context : InputContext κ σ}
    {key : Keycode} {c : Char} (h : context.stroke xkb backend key = .edit (.insert c)) :
    c.utf8Size = 1 := by
  unfold InputContext.stroke at h
  split at h
  · cases h
  · split at h
    case h_5 =>
      split at h
      · rename_i htyped
        cases h
        unfold typedCharacter at htyped
        dsimp only at htyped
        split at htyped
        · rename_i hascii
          cases htyped
          exact utf8Size_ofNat hascii.2
        · cases htyped
      · cases h
    all_goals cases h

theorem ascii_of_strokes {seatIds : List UInt32} {events : List (Backend ε × Event)} {c : Char}
    (h : .edit (.insert c) ∈ strokes xkb seatIndex seatIds events) : c.utf8Size = 1 := by
  obtain ⟨state, event, hmem⟩ := Machine.exists_of_mem_moves h
  unfold State.strokes at hmem
  split at hmem
  · cases hmem
  · split at hmem
    · simp only [InputContext.strokes, Option.mem_toList, Option.map_eq_some_iff] at hmem
      obtain ⟨key, _, hstroke⟩ := hmem
      exact InputContext.ascii_of_stroke hstroke
    · cases hmem

end Wayland

/-! ## §2. Keys for such characters. -/

namespace ShinranEngine

variable {keyChar : UInt32 → Option Char} {calls : List (Backend ε × MethodCall)}
  {effects : List Effect} {engine : ShinranEngine}

/-- **Narrow characters fit**, as long as there are not too many of them. -/
theorem fitting_of_narrow
    (hrun : Run (handleCall keyChar) (fun _ _ _ => True) {} calls effects engine)
    (hnarrow : ∀ c, Stroke.edit (.insert c) ∈ calls.map (MethodCall.stroke keyChar) →
      c.utf8Size = 1) (hlength : calls.length < 2 ^ 31) :
    Run (handleCall keyChar) (Fitting keyChar) {} calls effects engine := by
  induction hrun with
  | nil => exact .nil
  | @snoc calls effects engine call engine' more _ hstep _ ih =>
      rw [List.length_append, List.length_singleton] at hlength
      rw [List.map_append] at hnarrow
      have hbefore := ih (fun c hc => hnarrow c (List.mem_append_left _ hc)) (by omega)
      refine .snoc hbefore hstep ?_
      have htypes := Types.of_run hbefore
      have hshort := Typist.length_type_le (calls.map (MethodCall.stroke keyChar))
      rw [List.length_map] at hshort
      unfold Fitting
      cases MethodCall.stroke keyChar call with
      | edit key =>
          exact htypes.refines.aligned (Typist.forall_mem_type fun c hc =>
            hnarrow c (List.mem_append_left _ hc)) (by omega) key
      | enter | discard => trivial

end ShinranEngine

/-! ## §3. The same strokes. -/

/-- **Both frontends commit the same**: in every run of the IBus engine of less than 2^31 calls and
every run of the Wayland frontend, if the engine and a seat get the same strokes, up to those that
do nothing, the same texts are committed, and as long as the seat is there, its buffer is the text
of the engine. -/
theorem same_text {κ σ : Type} {keyChar : UInt32 → Option Char} {xkb : Wayland.Xkb κ σ}
    {calls : List (Backend ε × MethodCall)} {effects : List Effect} {engine : ShinranEngine}
    {seatIds : List UInt32} {events : List (Backend ε' × Wayland.Event)}
    {emitted : List (Wayland.SeatIndex × Wayland.Request)} {state : Wayland.State κ σ}
    (seatIndex : Wayland.SeatIndex)
    (hcalls : Run (ShinranEngine.handleCall keyChar) (fun _ _ _ => True) {} calls effects engine)
    (hlength : calls.length < 2 ^ 31)
    (hevents : Run (Wayland.State.dispatchAsking xkb) (fun _ _ _ => True) (.init seatIds) events
      emitted state)
    (hsame : (calls.map (MethodCall.stroke keyChar)).filter Stroke.effective
      = (Wayland.strokes xkb seatIndex seatIds events).filter Stroke.effective) :
    commits effects = Wayland.commits (Wayland.requestsOf seatIndex emitted)
      ∧ ∀ context, state.context? seatIndex = some context →
        context.buffer.getD "" = engine.text := by
  have htypist : Typist.type (calls.map (MethodCall.stroke keyChar))
      = Typist.type (Wayland.strokes xkb seatIndex seatIds events) := by
    rw [← Typist.type_effective, hsame, Typist.type_effective]
  have hnarrow : ∀ c, Stroke.edit (.insert c) ∈ calls.map (MethodCall.stroke keyChar) →
      c.utf8Size = 1 := by
    intro c hc
    have hmem : Stroke.edit (.insert c)
        ∈ (calls.map (MethodCall.stroke keyChar)).filter Stroke.effective :=
      List.mem_filter.mpr ⟨hc, rfl⟩
    rw [hsame] at hmem
    exact Wayland.ascii_of_strokes (List.mem_filter.mp hmem).1
  have hengine := ShinranEngine.Types.of_run
    (ShinranEngine.fitting_of_narrow hcalls hnarrow hlength)
  have hseat := Wayland.Types.of_run seatIndex hevents
  refine ⟨?_, fun context hcontext => ?_⟩
  · rw [hengine.commits, hseat.commits, htypist]
  · refine String.toList_inj.mp ?_
    rw [(hseat.holds context hcontext).text, hengine.refines.text, htypist]

/-- `aa` is typed on both sides, once with two keys and once with one that is repeated. -/
theorem same_text_aa :
    ∃ effects emitted, commits effects = Wayland.commits (Wayland.requestsOf 0 emitted)
      ∧ commits effects = ["bee"] := by
  have hcalls : ∃ effects engine, Run (ShinranEngine.handleCall latin1Char) (fun _ _ _ => True) {}
      ([0x61, 0x61, 0xff0d].map fun keyval =>
        (ShinranEngine.oneTrigger "aa" "bee", .processKeyEvent { keyval })) effects engine
      ∧ commits effects = ["bee"] :=
    Run.exists_of_exec (fun effects _ => decide (commits effects = ["bee"])) (by decide)
      fun _ _ _ htest => of_decide_eq_true htest
  have hevents : ∃ emitted state, Run (Wayland.State.dispatchAsking Wayland.smallKeyboard)
      (fun _ _ _ => True) (Wayland.State.init [1]) Wayland.typedAA emitted state ∧ True :=
    Run.exists_of_exec (fun _ _ => true) (by decide) fun _ _ _ _ => trivial
  obtain ⟨effects, engine, hcalls, hcommits⟩ := hcalls
  obtain ⟨emitted, state, hevents, _⟩ := hevents
  exact ⟨effects, emitted, (same_text 0 hcalls (by decide) hevents rfl).1, hcommits⟩

end Shinran
