/-
  Shinran.Ibus.LookupTable
  ────────────────────────
  **THE CANDIDATES THAT THE IBUS ENGINE SHOWS.**

  `update_text` sends the lookup table only if the backend finds candidates, and
  it never takes a table back.  The preedit text is sent with every update, and
  as invisible if it is empty.

    • `visibleTable_eq`    — after every run, the table is that of the last text
                             for which there were candidates,
    • `tableMatches_iff`   — when that is the table of the current text.
-/
import Shinran.Ibus.Editor
import Shinran.Ibus.Preedit

namespace Shinran

open Machine (Guard Run latest)

variable {ε : Type} {keyChar : UInt32 → Option Char}

/-! ## §1. Tables. -/

/-- The table that is sent, if any: its candidates, or nothing visible. -/
def Effect.table? : Effect → Option (Option (List String))
  | .updateLookupTable candidates visible => some (if visible then some candidates else none)
  | _ => none

/-- The candidates that are visible in the end. -/
def visibleTable (effects : List Effect) : Option (List String) :=
  (latest Effect.table? effects).join

/-- The text that `update_text` is called with. -/
def Effect.updatedText? : Effect → Option String
  | .updatePreeditText text _ _ _ => some text
  | _ => none

/-- The texts that `update_text` has been called with, one after another. -/
def updatedTexts (effects : List Effect) : List String := effects.filterMap Effect.updatedText?

/-- The table that belongs to a text: the triggers of the first five results, if there are
results. -/
def candidateTable (fuzzyMatch : String → List (String × UInt16)) (text : String) :
    Option (List String) :=
  if (fuzzyMatch text).isEmpty then none else some (((fuzzyMatch text).take 5).map (·.1))

/-- The backend always has the same matches. -/
def SameMatches (fuzzyMatch : String → List (String × UInt16)) :
    Guard ShinranEngine (Backend ε × MethodCall) :=
  fun _ _ (backend, _) => backend.fuzzyMatch = fuzzyMatch

theorem Effect.table?_of_not_isDisplay {effect : Effect} (h : effect.isDisplay = false) :
    effect.table? = none := by
  cases effect <;> first | rfl | cases h

theorem Effect.updatedText?_of_not_isDisplay {effect : Effect} (h : effect.isDisplay = false) :
    effect.updatedText? = none := by
  cases effect <;> first | rfl | cases h

theorem candidateTable_eq_none {fuzzyMatch : String → List (String × UInt16)} {text : String} :
    candidateTable fuzzyMatch text = none ↔ fuzzyMatch text = [] := by
  simp [candidateTable]

namespace ShinranEngine

variable {engine engine' : ShinranEngine} {backend : Backend ε}
  {fuzzyMatch : String → List (String × UInt16)} {effects more : List Effect}

/-! ## §2. One update. -/

theorem table_updateText : latest Effect.table? (engine.updateText backend)
    = (candidateTable backend.fuzzyMatch engine.text).map some := by
  unfold updateText candidateTable
  rw [← List.singleton_append, Machine.latest_append]
  split
  · rfl
  · rfl

theorem updatedTexts_updateText : updatedTexts (engine.updateText backend) = [engine.text] := by
  unfold updateText updatedTexts
  dsimp only
  split <;> rfl

theorem nothing_of_not_isDisplay (h : ∀ effect ∈ effects, effect.isDisplay = false) :
    latest Effect.table? effects = none ∧ updatedTexts effects = [] :=
  ⟨Machine.latest_eq_none fun effect hmem => Effect.table?_of_not_isDisplay (h effect hmem),
    List.filterMap_eq_nil_iff.mpr fun effect hmem =>
      Effect.updatedText?_of_not_isDisplay (h effect hmem)⟩

/-- **What a call sends**: neither text nor table, or the text and the table that belongs to it. -/
theorem Updates.table (h : Updates backend engine engine' more) :
    latest Effect.table? more = none ∧ updatedTexts more = []
      ∨ latest Effect.table? more = (candidateTable backend.fuzzyMatch engine'.text).map some
        ∧ updatedTexts more = [engine'.text] := by
  cases h with
  | kept _ hdisplay => exact Or.inl (nothing_of_not_isDisplay hdisplay)
  | @updated rest hdisplay =>
      obtain ⟨htable, htexts⟩ := nothing_of_not_isDisplay hdisplay
      refine Or.inr ⟨?_, ?_⟩
      · rw [Machine.latest_append, htable, Option.none_or, table_updateText]
      · rw [updatedTexts, List.filterMap_append]
        exact (congrArg₂ _ updatedTexts_updateText htexts).trans (List.append_nil _)

/-! ## §3. Runs. -/

/-- **The table of a run** is that of the last text for which there were candidates. -/
theorem visibleTable_eq {calls : List (Backend ε × MethodCall)}
    (hrun : Run (handleCall keyChar) (SameMatches fuzzyMatch) {} calls effects engine) :
    visibleTable effects = latest (candidateTable fuzzyMatch) (updatedTexts effects) := by
  have htable : latest Effect.table? effects
      = (latest (candidateTable fuzzyMatch) (updatedTexts effects)).map some := by
    refine hrun.invariant (fun _ effects _ => latest Effect.table? effects
      = (latest (candidateTable fuzzyMatch) (updatedTexts effects)).map some) rfl ?_
    intro _ effects _ call _ more hinv hguard hstep
    have hmore : latest Effect.table? more
        = (latest (candidateTable fuzzyMatch) (updatedTexts more)).map some := by
      rcases (handleCall_updates hstep).table with ⟨htable, htexts⟩ | ⟨htable, htexts⟩
      · rw [htable, htexts]
        rfl
      · rw [htable, htexts, Machine.latest_singleton, hguard]
    rw [updatedTexts, List.filterMap_append, Machine.latest_append, Machine.latest_append, hmore,
      hinv]
    exact Option.map_or.symm
  rw [visibleTable, htable]
  cases latest (candidateTable fuzzyMatch) (updatedTexts effects) <;> rfl

/-- **When the table belongs to the current text**, after every call that updates the text: there
are candidates for the text, or there were none for any text before. -/
theorem tableMatches_iff {calls : List (Backend ε × MethodCall)}
    (hrun : Run (handleCall keyChar) (SameMatches fuzzyMatch) {} calls effects engine)
    {call : MethodCall} (hsame : backend.fuzzyMatch = fuzzyMatch)
    (hcall : engine.handleCall keyChar (backend, call) = .ok (engine', more))
    (hupdate : updatedTexts more ≠ []) :
    visibleTable (effects ++ more) = candidateTable fuzzyMatch engine'.text
      ↔ fuzzyMatch engine'.text ≠ [] ∨ ∀ text ∈ updatedTexts effects, fuzzyMatch text = [] := by
  have htexts : updatedTexts more = [engine'.text] := by
    rcases (handleCall_updates hcall).table with ⟨_, htexts⟩ | ⟨_, htexts⟩
    · exact absurd htexts hupdate
    · exact htexts
  have hnone : latest (candidateTable fuzzyMatch) (updatedTexts effects) = none
      ↔ ∀ text ∈ updatedTexts effects, fuzzyMatch text = [] := by
    simp [latest, candidateTable_eq_none]
  rw [visibleTable_eq (hrun.snoc hcall hsame), updatedTexts, List.filterMap_append]
  change latest _ (updatedTexts effects ++ updatedTexts more) = _ ↔ _
  rw [htexts, Machine.latest_append, Machine.latest_singleton, ← hnone, ne_eq,
    ← candidateTable_eq_none]
  cases candidateTable fuzzyMatch engine'.text <;> simp

end ShinranEngine

/-! ## §4. A table that stays. -/

/-- A backend with the single trigger `ab`, which only a prefix of it finds. -/
def abBackend : Backend Unit where
  checkTrigger _ := .ok none
  fuzzyMatch text := if text = "a" ∨ text = "ab" then [("ab", 0)] else []

/-- The engine that has been typed `a` at, and what it has sent. -/
def aTyped : ShinranEngine := { text := "a", cursorPos := 1, newKeyPressed := true }

def aEffects : List Effect :=
  [.updatePreeditText "a" 1 1 true, .updateLookupTable ["ab"] true]

theorem run_a : Run (ShinranEngine.handleCall latin1Char) (SameMatches abBackend.fuzzyMatch) {}
    [(abBackend, .processKeyEvent { keyval := 0x61 })] aEffects aTyped :=
  Run.nil.snoc (by rfl) rfl

/-- `b` finds the candidate again. -/
theorem tableMatches_iff_ab : ∃ engine' more,
    aTyped.handleCall latin1Char (abBackend, .processKeyEvent { keyval := 0x62 })
        = .ok (engine', more)
      ∧ updatedTexts more = ["ab"]
      ∧ (visibleTable (aEffects ++ more) = candidateTable abBackend.fuzzyMatch engine'.text
        ↔ abBackend.fuzzyMatch engine'.text ≠ []
          ∨ ∀ text ∈ updatedTexts aEffects, abBackend.fuzzyMatch text = []) := by
  have hcall : aTyped.handleCall latin1Char (abBackend, .processKeyEvent { keyval := 0x62 })
      = .ok ({ text := "ab", cursorPos := 2, newKeyPressed := true },
        [.updatePreeditText "ab" 2 2 true, .updateLookupTable ["ab"] true]) := by rfl
  exact ⟨_, _, hcall, rfl, ShinranEngine.tableMatches_iff run_a rfl hcall (by decide)⟩

/-- **The table of an earlier text stays**: with `x` behind it nothing is found any more, and the
candidate for `a` is still visible. -/
theorem table_stays :
    Run (ShinranEngine.handleCall latin1Char) (SameMatches abBackend.fuzzyMatch) {}
        [(abBackend, .processKeyEvent { keyval := 0x61 })] aEffects aTyped
      ∧ ∃ engine' more,
        aTyped.handleCall latin1Char (abBackend, .processKeyEvent { keyval := 0x78 })
            = .ok (engine', more)
          ∧ engine'.text = "ax" ∧ updatedTexts more = ["ax"]
          ∧ candidateTable abBackend.fuzzyMatch "ax" = none
          ∧ visibleTable (aEffects ++ more) = some ["ab"] := by
  have hcall : aTyped.handleCall latin1Char (abBackend, .processKeyEvent { keyval := 0x78 })
      = .ok ({ text := "ax", cursorPos := 2, newKeyPressed := true },
        [.updatePreeditText "ax" 2 2 true]) := by rfl
  exact ⟨run_a, _, _, hcall, rfl, rfl, by decide, rfl⟩

end Shinran
