/-
  Shinran.Frontend.Program
  ────────────────────────
  **FROM THE FILES TO WHAT IS COMMITTED.**

  What a text stands for is written in the match files to which the default
  profile leads.  Both frontends commit it, if they ask a backend that has been
  set up from these files, and the stack is deep enough for the matches that
  are nested in each other.

    • `ibus_commits`, `wayland_commits` — Return commits the answer of the backend,
    • `meaning_committed`      — all the way,
    • `meaning_committed_over_life` — also after edits, and from the cache,
    • `committed_when_added`   — and after match files have been added.
-/
import Shinran.Backend.Adding
import Shinran.Backend.Lifetime
import Shinran.Backend.Meaning
import Shinran.Wayland.Progress
import Shinran.Wayland.Typing

namespace Shinran

open Machine (Run)

variable [CaseTables]

/-! ## §1. The frontends. -/

/-- The backend of a frontend asks the adapter, in whatever orders, and with a stack for this
depth at least. -/
def Backend.Asks (backend : Backend BackendFailure) (adapter : RendererAdapter) (depth : Nat) :
    Prop :=
  ∃ fuel orders argOrder, depth ≤ fuel ∧ ∀ text,
    backend.checkTrigger text = adapter.checkTrigger fuel orders argOrder text

/-- Whenever the text has been typed into the IBus engine, with keys that find the cursor where they
need it, Return commits the meaning. -/
def IbusCommits (adapter : RendererAdapter) (depth : Nat) (text : String)
    (meaning : Option String) : Prop :=
  ∀ {keyChar : UInt32 → Option Char} {calls : List (Backend BackendFailure × MethodCall)}
    {effects : List Effect} {engine : ShinranEngine} {backend : Backend BackendFailure}
    {event : KeyEvent},
    Run (ShinranEngine.handleCall keyChar) (Fitting keyChar) {} calls effects
      engine →
    (Typist.type (calls.map (MethodCall.stroke keyChar))).editor.text = text.toList →
    backend.Asks adapter depth → event.isRelease = false → Keysym.new event.keyval = .return_ →
    ∃ engine' more, engine.handleCall keyChar (backend, .processKeyEvent event)
        = .ok (engine', more)
      ∧ commits more = meaning.toList ∧ engine'.text = ""

/-- Whenever the text has been typed on a seat, in events that the frontend expects, and Return is
expected next, it commits the meaning there. -/
def WaylandCommits (adapter : RendererAdapter) (depth : Nat) (text : String)
    (meaning : Option String) : Prop :=
  ∀ {κ σ : Type} {xkb : Wayland.Xkb κ σ} {seatIds : List UInt32}
    {events : List (Backend BackendFailure × Wayland.Event)}
    {emitted : List (Wayland.SeatIndex × Wayland.Request)} {state : Wayland.State κ σ}
    {seatIndex : Wayland.SeatIndex} {event : Backend BackendFailure × Wayland.Event},
    Run (Wayland.State.dispatchAsking xkb) (Wayland.Expected xkb seatIds) (.init seatIds) events
      emitted state →
    (Typist.type (Wayland.strokes xkb seatIndex seatIds events)).editor.text = text.toList →
    event.1.Asks adapter depth → Wayland.Expected xkb seatIds events state event →
    state.strokes xkb seatIndex event = [.enter event.1.expand] →
    ∃ state' more, state.dispatchAsking xkb event = .ok (state', more)
      ∧ Wayland.commits (Wayland.requestsOf seatIndex more) = meaning.toList

section Answers

variable {adapter : RendererAdapter} {depth : Nat} {text : String} {meaning : Option String}
  (hanswers : ∀ fuel orders argOrder, depth ≤ fuel →
    adapter.checkTrigger fuel orders argOrder text = .ok meaning)
include hanswers

theorem Backend.Asks.checkTrigger_eq {backend : Backend BackendFailure}
    (h : backend.Asks adapter depth) : backend.checkTrigger text = .ok meaning := by
  obtain ⟨fuel, orders, argOrder, hfuel, h⟩ := h
  rw [h, hanswers fuel orders argOrder hfuel]

theorem Backend.Asks.output_eq {backend : Backend BackendFailure} (h : backend.Asks adapter depth)
    (htext : text ≠ "") : Typist.output text.toList backend.expand = meaning.toList := by
  have hne : text.toList ≠ [] := fun hnil => htext (String.toList_eq_nil_iff.mp hnil)
  rw [Typist.output, if_neg hne, String.ofList_toList, Backend.expand,
    Backend.Asks.checkTrigger_eq hanswers h]
  rfl

/-- **The IBus engine commits the answer.** -/
theorem ibus_commits (htext : text ≠ "") : IbusCommits adapter depth text meaning := by
  intro keyChar calls effects engine backend event hrun htyped hasks hpress hreturn
  have htypes := ShinranEngine.Types.of_run hrun
  -- the engine has the text that the typist has typed
  have hengine : engine.text = text :=
    String.toList_inj.mp (htypes.refines.text.trans htyped)
  obtain ⟨handled, hhandled⟩ : ∃ handled,
      engine.processKeyEvent keyChar backend event = .ok handled := by
    rw [ShinranEngine.processKeyEvent_return hpress hreturn, hengine,
      Backend.Asks.checkTrigger_eq hanswers hasks]
    split <;> exact ⟨_, rfl⟩
  have hafter := htypes.enter hpress hreturn hhandled
  have hcommits := hafter.commits
  rw [commits_append, htypes.commits] at hcommits
  have hmore := List.append_cancel_left hcommits
  rw [htyped, Backend.Asks.output_eq hanswers hasks htext] at hmore
  refine ⟨handled.engine, handled.effects, map_eq_ok_iff.mpr ⟨handled, hhandled, rfl⟩, hmore, ?_⟩
  exact String.toList_eq_nil_iff.mp hafter.refines.text

/-- **The seat of the Wayland frontend commits the answer.** -/
theorem wayland_commits (htext : text ≠ "") : WaylandCommits adapter depth text meaning := by
  intro κ σ xkb seatIds events emitted state seatIndex event hrun htyped hasks hexpected hreturn
  obtain ⟨state', more, hstep⟩ := (Wayland.Sound.of_run hrun).exists_dispatch hexpected
  -- what is committed over the whole run, less what had been committed before
  have htypes := Wayland.Types.of_run seatIndex (hrun.mono fun _ _ _ _ => trivial)
  have hafter := htypes.step hstep
  have hcommits := hafter.commits
  rw [Wayland.requestsOf_append, Wayland.commits_append, htypes.commits, hreturn,
    List.foldl_cons, List.foldl_nil] at hcommits
  have hmore := List.append_cancel_left hcommits
  rw [htyped, Backend.Asks.output_eq hanswers hasks htext] at hmore
  exact ⟨state', more, hstep, hmore⟩

end Answers

/-- **What the files say is committed**, if the backend knows them. -/
theorem RendererAdapter.Knows.commits {adapter : RendererAdapter} {files : MatchFile → Prop}
    (h : adapter.Knows files) {text : String} {meaning : Option String} (htext : text ≠ "")
    (hmeaning : Meaning adapter.runtime files text meaning) :
    ∃ depth, IbusCommits adapter depth text meaning ∧ WaylandCommits adapter depth text meaning := by
  obtain ⟨depth, hanswers⟩ := h.exists_depth hmeaning
  exact ⟨depth, ibus_commits hanswers htext, wayland_commits hanswers htext⟩

/-! ## §2. All the way. -/

/-- **From the files to what is committed.**  If the default profile loads, the configuration
loads and the backend is set up.  Whatever text is typed then, into the IBus engine in the course of
any run whose keys find the cursor where they need it (`Fitting`), or on a seat in the course of any
run of events that the Wayland frontend expects (`Expected`), Return commits what the text stands
for by the match files to which the default profile leads, or nothing if it stands for nothing,
provided that the stack is deep enough for what is nested in its match. -/
theorem meaning_committed {ε : Type} {libs : Libraries ε} {fs : FileSystem} {order : PathOrder}
    {basePath : PathBuf} (hdir : fs.isDir (PathBuf.join basePath "config"))
    {profile : LoadedProfileFile}
    (hdefault : LoadedProfileFile.loadFromPath libs fs order
      (PathBuf.join (PathBuf.join basePath "config") "default.yml") none = .ok profile)
    {fuel : Nat} (hfuel : fs.files.keys.length < fuel) (regexIsMatch : String → String → Bool)
    (runtime : Runtime) (nextId : Int32) :
    ∃ config adapter, loadConfig libs fs order basePath = some (.ok config)
      ∧ RendererAdapter.new runtime nextId (config.activeProfile regexIsMatch) config.matchStore
        fuel = some (.ok adapter)
      ∧ ∀ {text meaning}, text ≠ "" →
        Meaning runtime (VisibleFile libs fs
          { content := profile.content, sourcePath := profile.sourcePath }) text meaning →
        ∃ depth, IbusCommits adapter depth text meaning
          ∧ WaylandCommits adapter depth text meaning := by
  obtain ⟨config, hload, hvisible⟩ := exists_loadConfig hdir hdefault
  have hlength := Nat.lt_of_le_of_lt (length_le_of_loadConfig hload) hfuel
  obtain ⟨adapter, hnew, hruntime, hknows⟩ :=
    exists_backend hload hlength regexIsMatch runtime nextId
  rw [hvisible] at hknows
  exact ⟨config, adapter, hload, hnew, fun htext hmeaning =>
    hknows.commits htext (hruntime.symm ▸ hmeaning)⟩

omit [CaseTables] in
/-- Whatever a match file is, it has one match for `mail` at most. -/
theorem textLibraries_mail {fs : FileSystem} {path : PathBuf} {group : LoadedMatchFile}
    {m : TriggerMatch} (hloads : (matchLoader textLibraries fs).Loads path group)
    (hentry : ("mail", m) ∈ group.content.triggerEntries) :
    m = { baseMatch := { effect := .text { body := "me" } }, triggers := ["mail"] } := by
  obtain ⟨_, entry, parsed, _, _, hparse, _, rfl⟩ := loadMatchFile_ok_iff.mp hloads
  unfold textLibraries at hparse
  dsimp only at hparse
  split_ifs at hparse
  · cases hparse
    cases hentry
  · cases hparse
    exact congrArg Prod.snd (List.mem_singleton.mp hentry)

omit [CaseTables] in
/-- No match file has a variable or an expression here. -/
theorem textLibraries_plain {fs : FileSystem} {profile : ProfileFile} {file : MatchFile}
    (hfile : VisibleFile textLibraries fs profile file) :
    file.globalVars = [] ∧ file.regexMatches = []
      ∧ ∀ m ∈ file.triggerMatches, m.baseMatch.effect = .text { body := "me" } := by
  obtain ⟨_, _, _, _, _, hloads, rfl⟩ := hfile
  obtain ⟨_, entry, parsed, _, _, hparse, _, rfl⟩ := loadMatchFile_ok_iff.mp hloads
  unfold textLibraries at hparse
  dsimp only at hparse
  split_ifs at hparse
  · cases hparse
    exact ⟨rfl, rfl, fun _ hm => by cases hm⟩
  · cases hparse
    exact ⟨rfl, rfl, fun _ hm => by cases List.mem_singleton.mp hm; rfl⟩

omit [CaseTables] in
/-- `mail` is typed, which the backend is not asked about. -/
def typedMail : List (Backend BackendFailure × MethodCall) :=
  [0x6d, 0x61, 0x69, 0x6c].map fun keyval =>
    (⟨fun _ => .ok none, fun _ => []⟩, .processKeyEvent { keyval })

omit [CaseTables] in
/-- The backend of a frontend, without a fuzzy search. -/
def RendererAdapter.asciiBackend (adapter : RendererAdapter) (depth : Nat) :
    Backend BackendFailure where
  checkTrigger := @checkTrigger .ascii adapter depth (fun _ => .canonical) .canonical
  fuzzyMatch _ := []

omit [CaseTables] in
theorem filesNow_onlyMatch : OnlyMatch (VisibleFile textLibraries filesNow
    { sourcePath := "/shinran/config/default.yml" }) "mail"
    { baseMatch := { effect := .text { body := "me" } }, triggers := ["mail"] } := by
  have hunique : ∀ file m, VisibleFile textLibraries filesNow
      { sourcePath := "/shinran/config/default.yml" } file →
      ("mail", m) ∈ file.triggerEntries →
      m = { baseMatch := { effect := .text { body := "me" } }, triggers := ["mail"] } := by
    rintro _ m ⟨_, _, _, _, _, hloads, rfl⟩ hentry
    exact textLibraries_mail hloads hentry
  obtain ⟨file, m, hfile, hentry⟩ := filesNow_mail
  obtain rfl := hunique file m hfile hentry
  exact ⟨⟨file, hfile, hentry⟩, hunique⟩

omit [CaseTables] in
theorem meaning_of_onlyMatch {files : MatchFile → Prop} (h : OnlyMatch files "mail"
    { baseMatch := { effect := .text { body := "me" } }, triggers := ["mail"] }) :
    @Meaning .ascii Runtime.plain files "mail" (some "me") :=
  @Meaning.of_snippet .ascii _ _ _ _ _ "me" _ none h (Or.inr (by decide)) rfl (by decide)
    (by decide) (by decide)

omit [CaseTables] in
theorem filesNow_meaning : @Meaning .ascii Runtime.plain (VisibleFile textLibraries filesNow
    { sourcePath := "/shinran/config/default.yml" }) "mail" (some "me") :=
  meaning_of_onlyMatch filesNow_onlyMatch

omit [CaseTables] in
/-- `mail` is typed into the engine, and what the imported file says is committed. -/
theorem meaning_committed_mail :
    ∃ config adapter depth effects engine engine' more,
      loadConfig textLibraries filesNow .canonical "/shinran" = some (.ok config)
      ∧ RendererAdapter.new .plain 0 (config.activeProfile fun _ _ => false) config.matchStore 4
        = some (.ok adapter)
      ∧ Run (ShinranEngine.handleCall latin1Char) (Fitting latin1Char) {} typedMail effects engine
      ∧ engine.handleCall latin1Char
        (adapter.asciiBackend depth, .processKeyEvent { keyval := 0xff0d }) = .ok (engine', more)
      ∧ commits more = ["me"] := by
  obtain ⟨config, adapter, hload, hnew, hcommits⟩ := @meaning_committed .ascii _ textLibraries
    filesNow .canonical "/shinran" filesNow_isDir _ filesNow_default 4 (by decide)
    (fun _ _ => false) .plain 0
  obtain ⟨depth, hibus, _⟩ := hcommits (by decide) filesNow_meaning
  obtain ⟨effects, engine, hrun, _⟩ : ∃ effects engine,
      Run (ShinranEngine.handleCall latin1Char) (Fitting latin1Char) {} typedMail effects engine
        ∧ True :=
    Run.exists_of_exec (fun _ _ => true) (by decide) fun _ _ _ _ => trivial
  have hasks : @Backend.Asks .ascii (adapter.asciiBackend depth) adapter depth :=
    ⟨depth, fun _ => .canonical, .canonical, Nat.le_refl depth, fun _ => rfl⟩
  obtain ⟨engine', more, hstep, hmore, _⟩ := @hibus _ _ _ _ (adapter.asciiBackend depth)
    { keyval := 0xff0d } hrun rfl hasks rfl rfl
  exact ⟨config, adapter, depth, effects, engine, engine', more, hload, hnew, hrun, hstep, hmore⟩

/-! ## §3. Over the life of an installation. -/

/-- **What is committed over the life of an installation.**  After any number of starts and
settled edits, the program that is started next serves a configuration, fresh or from the cache.
Unless a match file that the default profile leads to newly imports another one, its backend is
set up, and whatever text is typed then, in the course of any run that is fitting for the IBus
engine or expected by the Wayland frontend, Return commits what the text stands for by the match
files to which the default profile leads now, provided that the stack is deep enough. -/
theorem meaning_committed_over_life {ε : Type} {libs : Libraries ε} {basePath : PathBuf}
    {fs : FileSystem} {now : Nat} {events : List Happening} {emitted : List (StartResult ε)}
    {st : Installation}
    (hrun : Run (installationStep libs basePath) Settled (.init fs now) events emitted st)
    {order : PathOrder} {config : Configuration} {cached : Bool}
    (hserved : st.configuration libs basePath order = some (.ok (config, cached)))
    (hnothing : NothingNewVisible libs st.fs config config.profileStore.defaultProfile)
    {fuel : Nat} (hfuel : config.matchStore.indexedFiles.files.length < fuel)
    (regexIsMatch : String → String → Bool) (runtime : Runtime) (nextId : Int32) :
    ∃ adapter, RendererAdapter.new runtime nextId (config.activeProfile regexIsMatch)
        config.matchStore fuel = some (.ok adapter)
      ∧ ∀ {text meaning}, text ≠ "" →
        Meaning runtime (VisibleFile libs st.fs config.profileStore.defaultProfile) text meaning →
        ∃ depth, IbusCommits adapter depth text meaning
          ∧ WaylandCommits adapter depth text meaning := by
  have hsound := Installation.Sound.of_run hrun
  obtain ⟨adapter, hnew, hruntime, hknows⟩ :=
    hsound.exists_served_backend hserved hnothing hfuel regexIsMatch runtime nextId
  exact ⟨adapter, hnew, fun htext hmeaning =>
    hknows.commits htext (hruntime.symm ▸ hmeaning)⟩

omit [CaseTables] in
/-- A backend with one trigger. -/
def mailAdapter : RendererAdapter := .ofCollection .plain 0
  { triggerMatches := [{ baseMatch := { effect := .text { body := "me" } }, triggers := ["mail"] }]
    regexMatches := []
    globalVars := [] }

omit [CaseTables] in
/-- The second start takes the cache, to which nothing is newly imported. -/
theorem exists_secondStart : ∃ emitted st config,
    Run (installationStep textLibraries "/shinran") Settled (.init filesNow 4)
      [.start .canonical, .writeCache, .tick] emitted st
    ∧ st.fs = filesNow
    ∧ st.configuration textLibraries "/shinran" .canonical = some (.ok (config, true))
    ∧ VisibleFile textLibraries filesNow config.profileStore.defaultProfile
      = VisibleFile textLibraries filesNow { sourcePath := "/shinran/config/default.yml" }
    ∧ NothingNewVisible textLibraries st.fs config config.profileStore.defaultProfile
    ∧ config.matchStore.indexedFiles.files.length < 4
    ∧ RendererAdapter.new .plain 0 (config.activeProfile fun _ _ => false) config.matchStore 4
      = some (.ok mailAdapter) := by
  obtain ⟨emitted, st, config, hrun, hfs, hserved, hvisible, hfuel, hnew, hall⟩ :
      ∃ emitted st config,
      Run (installationStep textLibraries "/shinran") Settled (.init filesNow 4)
        [.start .canonical, .writeCache, .tick] emitted st
      ∧ st.fs = filesNow
      ∧ st.configuration textLibraries "/shinran" .canonical = some (.ok (config, true))
      ∧ VisibleFile textLibraries filesNow config.profileStore.defaultProfile
        = VisibleFile textLibraries filesNow { sourcePath := "/shinran/config/default.yml" }
      ∧ config.matchStore.indexedFiles.files.length < 4
      ∧ RendererAdapter.new .plain 0 (config.activeProfile fun _ _ => false) config.matchStore 4
        = some (.ok mailAdapter)
      ∧ ∀ path ∈ filesNow.files.keys,
        ((matchLoader textLibraries filesNow).importGraph path).isSome →
          path ∈ config.matchStore.sourcePaths := by
    refine ⟨_, _, _, ((Run.nil.snoc rfl trivial).snoc rfl trivial).snoc rfl trivial, rfl, rfl,
      rfl, ?_, rfl, ?_⟩
    · decide
    · decide
  have hnothing := ((Installation.Sound.of_run hrun).served_recorded_iff hserved).mp
    fun path hpath => hall path (hfs ▸ hpath.mem_keys) (hfs ▸ hpath.1)
  exact ⟨emitted, st, config, hrun, hfs, hserved, hvisible, hnothing, hfuel, hnew⟩

omit [CaseTables] in
/-- The second start commits what the files say. -/
theorem meaning_committed_over_life_mail :
    ∃ emitted st config adapter depth,
      Run (installationStep textLibraries "/shinran") Settled (.init filesNow 4)
        [.start .canonical, .writeCache, .tick] emitted st
      ∧ st.configuration textLibraries "/shinran" .canonical = some (.ok (config, true))
      ∧ RendererAdapter.new .plain 0 (config.activeProfile fun _ _ => false) config.matchStore 4
        = some (.ok adapter)
      ∧ @IbusCommits .ascii adapter depth "mail" (some "me")
      ∧ @WaylandCommits .ascii adapter depth "mail" (some "me") := by
  obtain ⟨emitted, st, config, hrun, hfs, hserved, hvisible, hnothing, hfuel, _⟩ :=
    exists_secondStart
  obtain ⟨adapter, hnew, hcommits⟩ := @meaning_committed_over_life .ascii _ _ _ _ _ _ _ _ hrun _ _
    _ hserved hnothing 4 hfuel (fun _ _ => false) .plain 0
  rw [hfs, hvisible] at hcommits
  obtain ⟨depth, hibus, hwayland⟩ := hcommits (by decide) filesNow_meaning
  exact ⟨emitted, st, config, adapter, depth, hrun, hserved, hnew, hibus, hwayland⟩

/-! ## §4. After match files have been added. -/

/-- **Adding match files changes nothing that is committed.**  After any number of starts and
settled edits, let the program be started and serve a configuration, fresh or from the cache, such
that nothing is newly imported; and let the match files to which the default profile leads now be
some files and others that are added to these.  Whatever text is left alone by the added files then
is committed as what it stands for by the first ones, in the course of any run that is fitting for
the IBus engine or expected by the Wayland frontend. -/
theorem committed_when_added {ε : Type} {libs : Libraries ε} {basePath : PathBuf}
    {fs : FileSystem} {now : Nat} {events : List Happening} {emitted : List (StartResult ε)}
    {st : Installation}
    (hrun : Run (installationStep libs basePath) Settled (.init fs now) events emitted st)
    {order : PathOrder} {config : Configuration} {cached : Bool}
    (hserved : st.configuration libs basePath order = some (.ok (config, cached)))
    (hnothing : NothingNewVisible libs st.fs config config.profileStore.defaultProfile)
    {fuel : Nat} (hfuel : config.matchStore.indexedFiles.files.length < fuel)
    (regexIsMatch : String → String → Bool) (runtime : Runtime) (nextId : Int32)
    {files : MatchFile → Prop}
    (hadds : Adds files (VisibleFile libs st.fs config.profileStore.defaultProfile)) :
    ∃ adapter, RendererAdapter.new runtime nextId (config.activeProfile regexIsMatch)
        config.matchStore fuel = some (.ok adapter)
      ∧ ∀ {text meaning}, text ≠ "" →
        LeavesAlone runtime.regex files
          (VisibleFile libs st.fs config.profileStore.defaultProfile) text →
        Meaning runtime files text meaning →
        ∃ depth, IbusCommits adapter depth text meaning
          ∧ WaylandCommits adapter depth text meaning := by
  obtain ⟨adapter, hnew, hruntime, hknows⟩ :=
    (Installation.Sound.of_run hrun).exists_served_backend hserved hnothing hfuel regexIsMatch
      runtime nextId
  exact ⟨adapter, hnew, fun htext halone hmeaning =>
    hknows.commits htext (hruntime.symm ▸ hmeaning.added hadds halone)⟩

omit [CaseTables] in
/-- The files with a match, to which the one that imports them has been added. -/
def MatchingFile (file : MatchFile) : Prop :=
  VisibleFile textLibraries filesNow { sourcePath := "/shinran/config/default.yml" } file
    ∧ file.triggerMatches ≠ []

omit [CaseTables] in
/-- The added file has no triggers. -/
theorem not_mem_triggerEntries {file : MatchFile} (hfile : VisibleFile textLibraries filesNow
    { sourcePath := "/shinran/config/default.yml" } file) (hnot : ¬ MatchingFile file)
    (entry : String × TriggerMatch) : entry ∉ file.triggerEntries := by
  have hnil : file.triggerMatches = [] := Decidable.not_not.mp fun hne => hnot ⟨hfile, hne⟩
  unfold MatchFile.triggerEntries
  rw [hnil]
  exact List.not_mem_nil

omit [CaseTables] in
theorem matchingFile_added : Adds MatchingFile (VisibleFile textLibraries filesNow
    { sourcePath := "/shinran/config/default.yml" }) := by
  refine ⟨fun file h => h.1, fun file hfile hnot trigger m hentry => ?_,
    fun file hfile hnot name var hentry => ?_⟩
  · exact absurd hentry (not_mem_triggerEntries hfile hnot _)
  · unfold MatchFile.globalVarEntries at hentry
    rw [(textLibraries_plain hfile).1] at hentry
    cases hentry

omit [CaseTables] in
theorem matchingFile_leavesAlone (text : String) : LeavesAlone Runtime.plain.regex MatchingFile
    (VisibleFile textLibraries filesNow { sourcePath := "/shinran/config/default.yml" }) text := by
  refine ⟨fun file hfile hnot m => not_mem_triggerEntries hfile hnot _,
    fun _ file hfile hnot m => not_mem_triggerEntries hfile hnot _,
    fun _ _ file hfile _ m hm => ?_⟩
  rw [(textLibraries_plain hfile).2.1] at hm
  cases hm

omit [CaseTables] in
theorem matchingFile_onlyMatch : OnlyMatch MatchingFile "mail"
    { baseMatch := { effect := .text { body := "me" } }, triggers := ["mail"] } := by
  obtain ⟨⟨file, hfile, hentry⟩, hunique⟩ := filesNow_onlyMatch
  refine ⟨⟨file, ?_, hentry⟩, fun file m hfile => hunique file m hfile.1⟩
  by_contra hnot
  exact not_mem_triggerEntries hfile hnot _ hentry

omit [CaseTables] in
/-- There is a file that has been added. -/
theorem exists_not_matchingFile : ∃ file, VisibleFile textLibraries filesNow
    { sourcePath := "/shinran/config/default.yml" } file ∧ ¬ MatchingFile file := by
  obtain ⟨group, hloads, hnil⟩ : ∃ group,
      (matchLoader textLibraries filesNow).Loads "/shinran/match/base.yml" group
        ∧ group.content.triggerMatches = [] := ⟨_, ⟨none, rfl⟩, rfl⟩
  exact ⟨group.content, ⟨_, _, group, filesNow_selects, .refl, hloads, rfl⟩, fun h => h.2 hnil⟩

omit [CaseTables] in
/-- What the imported file says is committed, though the file that imports it has been added. -/
theorem committed_when_added_mail :
    ∃ emitted st config adapter depth,
      Run (installationStep textLibraries "/shinran") Settled (.init filesNow 4)
        [.start .canonical, .writeCache, .tick] emitted st
      ∧ st.configuration textLibraries "/shinran" .canonical = some (.ok (config, true))
      ∧ RendererAdapter.new .plain 0 (config.activeProfile fun _ _ => false) config.matchStore 4
        = some (.ok adapter)
      ∧ (∃ file, VisibleFile textLibraries st.fs config.profileStore.defaultProfile file
        ∧ ¬ MatchingFile file)
      ∧ @IbusCommits .ascii adapter depth "mail" (some "me")
      ∧ @WaylandCommits .ascii adapter depth "mail" (some "me") := by
  obtain ⟨emitted, st, config, hrun, hfs, hserved, hvisible, hnothing, hfuel, _⟩ :=
    exists_secondStart
  have hadds := matchingFile_added
  rw [← hvisible, ← hfs] at hadds
  obtain ⟨adapter, hnew, hcommits⟩ := @committed_when_added .ascii _ _ _ _ _ _ _ _ hrun _ _
    _ hserved hnothing 4 hfuel (fun _ _ => false) .plain 0 _ hadds
  rw [hfs, hvisible] at hcommits
  obtain ⟨depth, hibus, hwayland⟩ := hcommits (by decide) (matchingFile_leavesAlone "mail")
    (meaning_of_onlyMatch matchingFile_onlyMatch)
  have hmore := exists_not_matchingFile
  rw [← hvisible, ← hfs] at hmore
  exact ⟨emitted, st, config, adapter, depth, hrun, hserved, hnew, hmore, hibus, hwayland⟩

end Shinran
