/-
  Shinran.Frontend.Said
  ─────────────────────
  **NOTHING IS COMMITTED THAT THE FILES DO NOT SAY.**

  A frontend commits when Return is handled, and only what its backend answers
  for the text that has been typed.  So whatever is committed in the course of
  a run, on either frontend, is in the match files to which the default
  profile leads.

    • `ibus_says`, `wayland_says` — what has been committed was the answer once,
    • `committed_said`            — over the life of an installation.
-/
import Shinran.Frontend.Program

namespace Shinran

open Machine (Run)

variable [CaseTables]

/-! ## §1. The frontends. -/

/-- What the files say of a text that is committed: the typed text may stand for it, and has no
other meaning. -/
structure Said (runtime : Runtime) (files : MatchFile → Prop) (text out : String) : Prop where
  mayMean : MayMean runtime files text out
  only : ∀ meaning, Meaning runtime files text meaning → meaning = some out

/-- Whatever the IBus engine has committed was said of its text when Return was pressed. -/
def IbusSays (adapter : RendererAdapter) (files : MatchFile → Prop) : Prop :=
  ∀ {keyChar : UInt32 → Option Char} {calls : List (Backend BackendFailure × MethodCall)}
    {effects : List Effect} {engine : ShinranEngine},
    Run (ShinranEngine.handleCall keyChar) (fun _ _ _ => True) {} calls effects engine →
    (∀ call ∈ calls, call.1.Asks adapter 0) → ∀ out ∈ commits effects,
    ∃ before call after earlier here, calls = before ++ call :: after
      ∧ Run (ShinranEngine.handleCall keyChar) (fun _ _ _ => True) {} before earlier here
      ∧ MethodCall.stroke keyChar call = .enter call.1.expand
      ∧ Said adapter.runtime files here.text out

/-- Whatever has been committed on a seat was said of its buffer when Return was handled there. -/
def WaylandSays (adapter : RendererAdapter) (files : MatchFile → Prop) : Prop :=
  ∀ {κ σ : Type} {xkb : Wayland.Xkb κ σ} {seatIds : List UInt32}
    {events : List (Backend BackendFailure × Wayland.Event)}
    {emitted : List (Wayland.SeatIndex × Wayland.Request)} {state : Wayland.State κ σ}
    {seatIndex : Wayland.SeatIndex},
    Run (Wayland.State.dispatchAsking xkb) (fun _ _ _ => True) (.init seatIds) events emitted
      state →
    (∀ event ∈ events, event.1.Asks adapter 0) →
    ∀ out ∈ Wayland.commits (Wayland.requestsOf seatIndex emitted),
    ∃ before event after earlier here context text, events = before ++ event :: after
      ∧ Run (Wayland.State.dispatchAsking xkb) (fun _ _ _ => True) (.init seatIds) before earlier
        here
      ∧ here.context? seatIndex = some context ∧ context.buffer = some text
      ∧ here.strokes xkb seatIndex event = [.enter event.1.expand]
      ∧ Said adapter.runtime files text out

section Says

variable {adapter : RendererAdapter} {files : MatchFile → Prop} (hknows : adapter.Knows files)
  (hregular : RegularFiles adapter.runtime files)
include hknows hregular

/-- What a backend answers that asks the adapter is said. -/
theorem Backend.Asks.said {backend : Backend BackendFailure} {depth : Nat} {text out : String}
    (h : backend.Asks adapter depth) (hanswer : backend.checkTrigger text = .ok (some out)) :
    Said adapter.runtime files text out := by
  obtain ⟨fuel, orders, argOrder, _, hasks⟩ := h
  rw [hasks] at hanswer
  have hmay := hknows.mayMean hregular hanswer
  exact ⟨hmay, fun _ hmeaning => hmeaning.eq_of_mayMean hmay⟩

/-- **The IBus engine commits only what is said.** -/
theorem ibus_says : IbusSays adapter files := by
  intro keyChar calls effects engine hrun hasks out hout
  -- the step that has committed it
  obtain ⟨effect, heffect, hcommit⟩ := List.mem_filterMap.mp hout
  obtain ⟨before, call, after, earlier, here, next, more, rfl, hbefore, hstep, hmore⟩ :=
    hrun.exists_step_of_mem heffect
  obtain ⟨hstroke, _, hanswer⟩ := ShinranEngine.handleCall_commits hstep
    (List.mem_filterMap.mpr ⟨effect, hmore, hcommit⟩)
  have hcall := hasks call (List.mem_append_right _ List.mem_cons_self)
  exact ⟨before, call, after, earlier, here, rfl, hbefore, hstroke,
    Backend.Asks.said hknows hregular hcall hanswer⟩

/-- **The seats of the Wayland frontend commit only what is said.** -/
theorem wayland_says : WaylandSays adapter files := by
  intro κ σ xkb seatIds events emitted state seatIndex hrun hasks out hout
  -- the step that has requested it, for this seat
  obtain ⟨request, hrequest, hcommit⟩ := List.mem_filterMap.mp hout
  obtain ⟨before, event, after, earlier, here, next, more, rfl, hbefore, hstep, hmore⟩ :=
    hrun.exists_step_of_mem (Wayland.mem_requestsOf.mp hrequest)
  have htypes := Wayland.Types.of_run seatIndex hbefore
  obtain ⟨context, text, hcontext, hbuffer, _, hstroke, hanswer⟩ := htypes.commits_of_step hstep
    (List.mem_filterMap.mpr ⟨request, Wayland.mem_requestsOf.mpr hmore, hcommit⟩)
  have hevent := hasks event (List.mem_append_right _ List.mem_cons_self)
  exact ⟨before, event, after, earlier, here, context, text, rfl, hbefore, hcontext, hbuffer,
    hstroke, Backend.Asks.said hknows hregular hevent hanswer⟩

end Says

/-! ## §2. Over the life of an installation. -/

/-- **Nothing is committed that the files do not say.**  After any number of starts and settled
edits, let the program be started and serve a configuration, fresh or from the cache, such that
nothing is newly imported; and let the variables of the match files to which the default profile
leads now be regular, those for captured groups included.  Then in every run of either frontend
whose backends ask the adapter that is set up, with any stack and under all hash orders, whatever
has been committed is what the text typed at a Return may stand for by these files, and if that
text has a meaning, its meaning. -/
theorem committed_said {ε : Type} {libs : Libraries ε} {basePath : PathBuf}
    {fs : FileSystem} {now : Nat} {events : List Happening} {emitted : List (StartResult ε)}
    {st : Installation}
    (hrun : Run (installationStep libs basePath) Settled (.init fs now) events emitted st)
    {order : PathOrder} {config : Configuration} {cached : Bool}
    (hserved : st.configuration libs basePath order = some (.ok (config, cached)))
    (hnothing : NothingNewVisible libs st.fs config config.profileStore.defaultProfile)
    {fuel : Nat} (hfuel : config.matchStore.indexedFiles.files.length < fuel)
    (regexIsMatch : String → String → Bool) (runtime : Runtime) (nextId : Int32)
    (hregular : RegularFiles runtime
      (VisibleFile libs st.fs config.profileStore.defaultProfile)) :
    ∃ adapter, RendererAdapter.new runtime nextId (config.activeProfile regexIsMatch)
        config.matchStore fuel = some (.ok adapter)
      ∧ adapter.runtime = runtime
      ∧ IbusSays adapter (VisibleFile libs st.fs config.profileStore.defaultProfile)
      ∧ WaylandSays adapter (VisibleFile libs st.fs config.profileStore.defaultProfile) := by
  have hsound := Installation.Sound.of_run hrun
  obtain ⟨adapter, hnew, hruntime, hknows⟩ :=
    hsound.exists_served_backend hserved hnothing hfuel regexIsMatch runtime nextId
  rw [← hruntime] at hregular
  exact ⟨adapter, hnew, hruntime, ibus_says hknows hregular, wayland_says hknows hregular⟩

omit [CaseTables] in
/-- What has no variables is regular. -/
theorem regular_textLibraries (fs : FileSystem) (profile : ProfileFile) :
    @RegularFiles .ascii .plain (VisibleFile textLibraries fs profile) := by
  refine @RegularFiles.mk .ascii _ _ ?_ ?_ ?_ ?_
  · intro file hfile var hvar
    rw [(textLibraries_plain hfile).1] at hvar
    cases hvar
  · intro file hfile m hm effect heffect var hvar
    rw [(textLibraries_plain hfile).2.2 m hm] at heffect
    cases heffect
    cases hvar
  · intro file hfile m hm
    rw [(textLibraries_plain hfile).2.1] at hm
    cases hm
  · intro file hfile m hm
    rw [(textLibraries_plain hfile).2.1] at hm
    cases hm

omit [CaseTables] in
/-- `mail` is typed, and Return is pressed. -/
def enteredMail : List (Backend BackendFailure × MethodCall) :=
  [0x6d, 0x61, 0x69, 0x6c, 0xff0d].map fun keyval =>
    (mailAdapter.asciiBackend 1, .processKeyEvent { keyval })

omit [CaseTables] in
/-- What is committed then is in the files. -/
theorem committed_said_mail : ∃ emitted st config effects engine,
    Run (installationStep textLibraries "/shinran") Settled (.init filesNow 4)
        [.start .canonical, .writeCache, .tick] emitted st
      ∧ st.configuration textLibraries "/shinran" .canonical = some (.ok (config, true))
      ∧ RendererAdapter.new .plain 0 (config.activeProfile fun _ _ => false) config.matchStore 4
        = some (.ok mailAdapter)
      ∧ Run (ShinranEngine.handleCall latin1Char) (fun _ _ _ => True) {} enteredMail effects engine
      ∧ commits effects = ["me"]
      ∧ ∃ text, @Said .ascii .plain (VisibleFile textLibraries filesNow
        { sourcePath := "/shinran/config/default.yml" }) text "me" := by
  obtain ⟨emitted, st, config, hrun, hfs, hserved, hvisible, hnothing, hfuel, hmail⟩ :=
    exists_secondStart
  obtain ⟨adapter, hnew, hruntime, hsays, _⟩ := @committed_said .ascii _ _ _ _ _ _ _ _ hrun _ _ _
    hserved hnothing 4 hfuel (fun _ _ => false) .plain 0 (regular_textLibraries _ _)
  rw [hmail] at hnew
  cases hnew
  rw [hfs, hvisible] at hsays
  obtain ⟨effects, engine, htyped, hcommits⟩ : ∃ effects engine,
      Run (ShinranEngine.handleCall latin1Char) (fun _ _ _ => True) {} enteredMail effects engine
        ∧ commits effects = ["me"] :=
    Run.exists_of_exec (fun effects _ => decide (commits effects = ["me"])) (by decide +kernel)
      fun _ _ _ htest => of_decide_eq_true htest
  have hasks : ∀ call ∈ enteredMail, @Backend.Asks .ascii call.1 mailAdapter 0 := by
    intro call hcall
    obtain ⟨_, _, rfl⟩ := List.mem_map.mp hcall
    exact ⟨1, fun _ => .canonical, .canonical, Nat.zero_le 1, fun _ => rfl⟩
  obtain ⟨_, _, _, _, here, _, _, _, hsaid⟩ :=
    hsays htyped hasks "me" (hcommits ▸ List.mem_singleton_self _)
  exact ⟨emitted, st, config, effects, engine, hrun, hserved, hmail, htyped, hcommits, here.text,
    hruntime ▸ hsaid⟩

end Shinran
