/-
  Shinran.Ibus.Typing
  ───────────────────
  **TYPING WITH THE IBUS ENGINE.**

  The calls of a run, as strokes of a typist.  As long as every key that edits
  finds the cursor where it needs it, the engine commits what the typist
  commits, and ends with the same text.

    • `Types.step`     — one call carries out its stroke,
    • `handleCall_ok`  — and does not panic unless the backend fails,
    • `commits_of_run` — so a run carries out all its strokes.
-/
import Shinran.Fallible
import Shinran.Frontend.Typist
import Shinran.Ibus.Preedit
import Shinran.Simulation

namespace Shinran

open Machine (Run Guard)

variable {ε : Type} {keyChar : UInt32 → Option Char} {backend : Backend ε}

/-! ## §1. Calls as strokes. -/

/-- What the backend answers, where it answers. -/
def Backend.expand (backend : Backend ε) (text : String) : Option String :=
  (backend.checkTrigger text).toOption.join

theorem Backend.expand_eq_some {text out : String} :
    backend.expand text = some out ↔ backend.checkTrigger text = .ok (some out) := by
  rw [Backend.expand, Option.join_eq_some_iff, toOption_eq_some_iff]

/-- The stroke of a call, while the backend answers in this way. -/
def MethodCall.stroke (keyChar : UInt32 → Option Char) : Backend ε × MethodCall → Stroke
  | (backend, .processKeyEvent event) =>
      if event.isRelease then .edit .nothing
      else
        match Keysym.new event.keyval with
        | .return_ => .enter backend.expand
        | .escape => .discard
        | _ => .edit (event.editKey keyChar)
  | (_, .focusOut true) => .edit .nothing
  | (_, .focusOut false) | (_, .reset) => .discard

/-- A key that edits finds the cursor where it needs it. -/
def Stroke.Fits (engine : ShinranEngine) : Stroke → Prop
  | .edit key => Aligned engine key
  | _ => True

instance (engine : ShinranEngine) : (stroke : Stroke) → Decidable (stroke.Fits engine)
  | .edit key => inferInstanceAs (Decidable (Aligned engine key))
  | .enter _ => inferInstanceAs (Decidable True)
  | .discard => inferInstanceAs (Decidable True)

/-- Only such keys are pressed. -/
def Fitting (keyChar : UInt32 → Option Char) : Guard ShinranEngine (Backend ε × MethodCall) :=
  fun _ engine call => (MethodCall.stroke keyChar call).Fits engine

instance (calls : List (Backend ε × MethodCall)) (engine : ShinranEngine)
    (call : Backend ε × MethodCall) : Decidable (Fitting keyChar calls engine call) :=
  inferInstanceAs (Decidable (Stroke.Fits engine _))

/-- A press of a key is Return, Escape, or an edit. -/
theorem KeyEvent.isEdit_or (keyChar : UInt32 → Option Char) (backend : Backend ε)
    {event : KeyEvent} (hpress : event.isRelease = false) :
    Keysym.new event.keyval = .return_ ∨ Keysym.new event.keyval = .escape
      ∨ event.IsEdit
        ∧ MethodCall.stroke keyChar (backend, .processKeyEvent event)
          = .edit (event.editKey keyChar) := by
  unfold MethodCall.stroke KeyEvent.IsEdit
  simp only [hpress]
  cases Keysym.new event.keyval <;> simp

/-! ## §2. What is committed. -/

def Effect.commit? : Effect → Option String
  | .commitText text => some text
  | _ => none

/-- The texts that are committed. -/
def commits (effects : List Effect) : List String := effects.filterMap Effect.commit?

@[simp] theorem commits_append (effects more : List Effect) :
    commits (effects ++ more) = commits effects ++ commits more := List.filterMap_append

@[simp] theorem commits_updateText (engine : ShinranEngine) :
    commits (engine.updateText backend) = [] := by
  unfold ShinranEngine.updateText commits
  dsimp only
  split <;> rfl

theorem commits_output (output : Option String) :
    commits ((output.map Effect.commitText).toList ++ [.exit]) = output.toList := by
  cases output <;> rfl

namespace ShinranEngine

variable {engine engine' : ShinranEngine} {effects more : List Effect} {typist : Typist}

theorem commits_of_bind {α : Type} {x : Except (EnginePanic ε) α} {change : α → ShinranEngine}
    {handled : Handled}
    (h : (x >>= fun a => .ok (Handled.mk (change a) ((change a).updateText backend)))
      = .ok handled) : commits handled.effects = [] := by
  cases x with
  | error panic => cases h
  | ok a =>
      cases h
      exact commits_updateText _

/-- **A key that edits commits nothing.** -/
theorem processKeyEvent_commits {event : KeyEvent} {handled : Handled} (hedit : event.IsEdit)
    (h : engine.processKeyEvent keyChar backend event = .ok handled) :
    commits handled.effects = [] := by
  obtain ⟨hpress, hreturn, hescape⟩ := hedit
  unfold processKeyEvent at h
  rw [hpress, if_neg Bool.false_ne_true] at h
  simp only at h
  split at h
  case h_1 hkey => exact absurd hkey hreturn
  case h_2 hkey => exact absurd hkey hescape
  case h_3 | h_4 =>
    split at h
    · exact commits_of_bind h
    · cases h
      rfl
  case h_5 | h_6 => exact commits_of_bind h
  case h_7 =>
    split at h
    · cases h
      rfl
    · split at h
      · exact commits_of_bind h
      · cases h
        rfl

/-- **Only Return commits**, and only what the backend answers for the text. -/
theorem handleCall_commits {call : Backend ε × MethodCall} {out : String}
    (h : engine.handleCall keyChar call = .ok (engine', more)) (hout : out ∈ commits more) :
    MethodCall.stroke keyChar call = .enter call.1.expand ∧ engine.text ≠ ""
      ∧ call.1.checkTrigger engine.text = .ok (some out) := by
  obtain ⟨backend, call⟩ := call
  have hdiscard : commits (engine.clearAndExit backend).effects = [] := by
    simp [clearAndExit]
    rfl
  cases call with
  | processKeyEvent event =>
      obtain ⟨handled, hhandled, hresult⟩ := map_eq_ok_iff.mp h
      cases hresult
      by_cases hpress : event.isRelease = true
      · unfold processKeyEvent at hhandled
        rw [if_pos hpress] at hhandled
        cases hhandled
        dsimp only at hout
        split at hout <;> cases hout
      · have hpress := Bool.eq_false_of_not_eq_true hpress
        rcases KeyEvent.isEdit_or keyChar backend hpress with hreturn | hescape | ⟨hedit, _⟩
        · refine ⟨by simp [MethodCall.stroke, hpress, hreturn], ?_⟩
          rw [processKeyEvent_return hpress hreturn] at hhandled
          split at hhandled
          · rename_i hne
            obtain ⟨output, hanswer, rfl⟩ := map_eq_ok_iff.mp hhandled
            refine ⟨hne, ?_⟩
            rw [mapError_eq_ok_iff.mp hanswer]
            dsimp only at hout
            rw [List.append_assoc, commits_append, commits_updateText, commits_output,
              List.nil_append, Option.mem_toList] at hout
            rw [hout]
          · cases hhandled
            cases hout
        · unfold processKeyEvent at hhandled
          rw [hpress, if_neg Bool.false_ne_true] at hhandled
          simp only [hescape] at hhandled
          cases hhandled
          cases hdiscard ▸ hout
        · rw [processKeyEvent_commits hedit hhandled] at hout
          cases hout
  | focusOut early =>
      cases early with
      | true =>
          cases h
          cases hout
      | false =>
          cases h
          cases hdiscard ▸ hout
  | reset =>
      cases h
      cases hdiscard ▸ hout

/-! ## §3. One call. -/

/-- The engine has the text of the typist, and has committed what the typist has. -/
structure Types (effects : List Effect) (engine : ShinranEngine) (typist : Typist) : Prop where
  refines : Refines engine typist.editor
  commits : commits effects = typist.committed

/-- The text is cleared, and something may be committed. -/
theorem Types.clear (h : Types effects engine typist) {output : List String}
    (hcleared : engine'.text = "" ∧ engine'.cursorPos = 0) (hmore : Shinran.commits more = output) :
    Types (effects ++ more) engine' { committed := typist.committed ++ output } where
  refines := ⟨by rw [hcleared.1]; rfl, by rw [hcleared.2]; rfl⟩
  commits := by rw [commits_append, h.commits, hmore]

/-- The text stays as it is, and nothing is committed. -/
theorem Types.keep (h : Types effects engine typist) (htext : engine'.text = engine.text)
    (hcursor : engine'.cursorPos = engine.cursorPos) (hmore : Shinran.commits more = []) :
    Types (effects ++ more) engine' typist where
  refines := ⟨by rw [htext, h.refines.text], by rw [hcursor, h.refines.cursor]⟩
  commits := by rw [commits_append, h.commits, hmore, List.append_nil]

theorem Refines.text_eq_empty_iff (h : Refines engine typist.editor) :
    engine.text = "" ↔ typist.editor.text = [] := by
  rw [← h.text, String.toList_eq_nil_iff]

/-- **Return commits what the text stands for.** -/
theorem Types.enter {event : KeyEvent} {handled : Handled} (h : Types effects engine typist)
    (hpress : event.isRelease = false) (hreturn : Keysym.new event.keyval = .return_)
    (hhandled : engine.processKeyEvent keyChar backend event = .ok handled) :
    Types (effects ++ handled.effects) handled.engine (typist.strike (.enter backend.expand)) := by
  have hempty := Refines.text_eq_empty_iff h.refines
  rw [processKeyEvent_return hpress hreturn] at hhandled
  by_cases hnone : engine.text = ""
  · rw [if_neg (by simpa using hnone)] at hhandled
    cases hhandled
    have hcursor : engine.cursorPos = 0 := by
      have hle := h.refines.cursor_le
      rw [hnone] at hle
      exact UInt32.toNat_inj.mp (Nat.le_zero.mp hle)
    refine h.clear ⟨hnone, hcursor⟩ ?_
    rw [Typist.output, if_pos (hempty.mp hnone)]
    rfl
  · rw [if_pos hnone] at hhandled
    cases hanswer : backend.checkTrigger engine.text with
    | error error => rw [hanswer] at hhandled; cases hhandled
    | ok output =>
        rw [hanswer] at hhandled
        cases hhandled
        refine h.clear ⟨rfl, rfl⟩ ?_
        dsimp only
        rw [Typist.output, if_neg fun hnil => hnone (hempty.mpr hnil), ← h.refines.text,
          String.ofList_toList, List.append_assoc, commits_append, commits_updateText,
          commits_output]
        simp [Backend.expand, hanswer, Except.toOption]

/-- What clears the text discards it. -/
theorem Types.discard (h : Types effects engine typist) {backend : Backend ε} :
    Types (effects ++ (engine.clearAndExit backend).effects) engine.cleared
      (typist.strike .discard) := by
  have hcommits : Shinran.commits (engine.clearAndExit backend).effects = [] := by
    simp [clearAndExit]
    rfl
  have hcleared : Types (effects ++ (engine.clearAndExit backend).effects) engine.cleared
      { committed := typist.committed ++ [] } := h.clear ⟨rfl, rfl⟩ hcommits
  rwa [List.append_nil] at hcleared

/-- **A call carries out its stroke.** -/
theorem Types.step {call : Backend ε × MethodCall} (h : Types effects engine typist)
    (hfits : (MethodCall.stroke keyChar call).Fits engine)
    (hstep : engine.handleCall keyChar call = .ok (engine', more)) :
    Types (effects ++ more) engine' (typist.strike (MethodCall.stroke keyChar call)) := by
  obtain ⟨backend, call⟩ := call
  cases call with
  | processKeyEvent event =>
      obtain ⟨handled, hhandled, hresult⟩ := map_eq_ok_iff.mp hstep
      cases hresult
      by_cases hpress : event.isRelease = true
      · rw [show MethodCall.stroke keyChar (backend, .processKeyEvent event) = .edit .nothing by
          simp [MethodCall.stroke, hpress]]
        unfold processKeyEvent at hhandled
        rw [if_pos hpress] at hhandled
        cases hhandled
        refine h.keep rfl rfl ?_
        dsimp only
        split <;> rfl
      · have hpress := Bool.eq_false_of_not_eq_true hpress
        rcases KeyEvent.isEdit_or keyChar backend hpress with
          hreturn | hescape | ⟨hedit, hstroke⟩
        · rw [show MethodCall.stroke keyChar (backend, .processKeyEvent event)
            = .enter backend.expand by simp [MethodCall.stroke, hpress, hreturn]]
          exact h.enter hpress hreturn hhandled
        · rw [show MethodCall.stroke keyChar (backend, .processKeyEvent event) = .discard by
            simp [MethodCall.stroke, hpress, hescape]]
          unfold processKeyEvent at hhandled
          rw [hpress, if_neg Bool.false_ne_true] at hhandled
          simp only [hescape] at hhandled
          cases hhandled
          have hpressed : Types effects { engine with newKeyPressed := true } typist :=
            ⟨⟨h.refines.text, h.refines.cursor⟩, h.commits⟩
          exact hpressed.discard
        · rw [hstroke] at hfits ⊢
          obtain ⟨handled', hhandled', hrefines⟩ :=
            processKeyEvent_refines keyChar backend h.refines hedit hfits
          rw [hhandled] at hhandled'
          cases hhandled'
          refine ⟨hrefines, ?_⟩
          rw [commits_append, h.commits, processKeyEvent_commits hedit hhandled, List.append_nil]
          rfl
  | focusOut early =>
      cases early with
      | true =>
          cases hstep
          exact h.keep rfl rfl rfl
      | false =>
          cases hstep
          exact h.discard
  | reset =>
      cases hstep
      exact h.discard

/-- **No call panics** on a key that fits, unless the backend fails on Return. -/
theorem handleCall_ok {call : Backend ε × MethodCall} (h : Refines engine typist.editor)
    (hfits : (MethodCall.stroke keyChar call).Fits engine)
    (hanswers : ∀ text, ∃ output, call.1.checkTrigger text = .ok output) :
    ∃ engine' more, engine.handleCall keyChar call = .ok (engine', more) := by
  obtain ⟨backend, call⟩ := call
  cases call with
  | processKeyEvent event =>
      suffices hhandled : ∃ handled, engine.processKeyEvent keyChar backend event = .ok handled by
        obtain ⟨handled, hhandled⟩ := hhandled
        exact ⟨handled.engine, handled.effects, map_eq_ok_iff.mpr ⟨handled, hhandled, rfl⟩⟩
      by_cases hpress : event.isRelease = true
      · unfold processKeyEvent
        rw [if_pos hpress]
        exact ⟨_, rfl⟩
      · have hpress := Bool.eq_false_of_not_eq_true hpress
        rcases KeyEvent.isEdit_or keyChar backend hpress with
          hreturn | hescape | ⟨hedit, hstroke⟩
        · rw [processKeyEvent_return hpress hreturn]
          obtain ⟨output, houtput⟩ := hanswers engine.text
          rw [houtput]
          split <;> exact ⟨_, rfl⟩
        · unfold processKeyEvent
          rw [hpress, if_neg Bool.false_ne_true]
          simp only [hescape]
          exact ⟨_, rfl⟩
        · rw [hstroke] at hfits
          obtain ⟨handled, hhandled, _⟩ := processKeyEvent_refines keyChar backend h hedit hfits
          exact ⟨handled, hhandled⟩
  | focusOut early => cases early <;> exact ⟨_, _, rfl⟩
  | reset => exact ⟨_, _, rfl⟩

/-! ## §4. Runs. -/

theorem Types.of_run {calls : List (Backend ε × MethodCall)}
    (hrun : Run (handleCall keyChar) (Fitting keyChar) {} calls effects engine) :
    Types effects engine (Typist.type (calls.map (MethodCall.stroke keyChar))) := by
  have hstrokes : Machine.moves (handleCall keyChar)
      (fun _ call => [MethodCall.stroke keyChar call]) {} calls
        = calls.map (MethodCall.stroke keyChar) :=
    (hrun.moves_eq_flatMap fun call => [MethodCall.stroke keyChar call]).trans
      List.map_eq_flatMap.symm
  rw [← hstrokes]
  exact hrun.simulates Typist.strike Types ⟨⟨rfl, rfl⟩, rfl⟩ fun h hfits hstep => h.step hfits hstep

/-- **Typing with the engine**: let each key of a run that edits find the cursor where it needs it.
In front of the character that it inserts or removes all characters take one byte each; the
cursor is not moved to the right of a text with longer ones, and it is moved only in texts of less
than 2^31 bytes and stays below 2^31 there, below 2^32 where characters are inserted.  Then the
text, the cursor and what has been committed are those of the typist who makes the same strokes,
and the next call that fits does not panic unless the backend fails. -/
theorem commits_of_run {calls : List (Backend ε × MethodCall)}
    (hrun : Run (handleCall keyChar) (Fitting keyChar) {} calls effects engine) :
    (engine.text.toList = (Typist.type (calls.map (MethodCall.stroke keyChar))).editor.text
        ∧ engine.cursorPos.toNat
          = (Typist.type (calls.map (MethodCall.stroke keyChar))).editor.cursor
        ∧ Shinran.commits effects
          = (Typist.type (calls.map (MethodCall.stroke keyChar))).committed)
      ∧ ∀ call : Backend ε × MethodCall, (MethodCall.stroke keyChar call).Fits engine →
        (∀ text, ∃ output, call.1.checkTrigger text = .ok output) →
        ∃ engine' more, engine.handleCall keyChar call = .ok (engine', more) := by
  have htypes := Types.of_run hrun
  exact ⟨⟨htypes.refines.text, htypes.refines.cursor, htypes.commits⟩,
    fun _ hfits hanswers => handleCall_ok htypes.refines hfits hanswers⟩

/-- A backend with one match. -/
def oneTrigger (trigger replacement : String) : Backend Unit where
  checkTrigger text := .ok (if text = trigger then some replacement else none)
  fuzzyMatch _ := []

/-- `a`, `b`, Left, BackSpace and Return, and another Return. -/
def typedB : List (Backend Unit × MethodCall) :=
  [0x61, 0x62, 0xff51, 0xff08, 0xff0d, 0xff0d].map fun keyval =>
    (oneTrigger "b" "bee", .processKeyEvent { keyval })

theorem commits_of_run_b :
    ∃ effects engine, Run (handleCall latin1Char) (Fitting latin1Char) {} typedB effects engine
      ∧ Shinran.commits effects
        = (Typist.type (typedB.map (MethodCall.stroke latin1Char))).committed
      ∧ Shinran.commits effects = ["bee"] := by
  refine Run.exists_of_exec (fun effects _ => decide (Shinran.commits effects = ["bee"]))
    (by decide) ?_
  intro effects engine hrun htest
  exact ⟨(commits_of_run hrun).1.2.2, of_decide_eq_true htest⟩

end ShinranEngine

end Shinran
