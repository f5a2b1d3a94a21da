/-
  Shinran.Backend.CacheRace
  ─────────────────────────
  **THE CACHE AND CONCURRENT EDITS.**

  A startup reads its files one after another and later writes what it has
  loaded to the cache, while another party edits the files at any moment.

    • `startupStep`             — the startup and the edits, interleaved,
    • `current_of_unraced`      — with no edit of a file between its read and
                                  the write of the cache, an accepted cache
                                  records what the files contain,
    • `staleContent_accepted`   — with such an edit it need not,
    • `written_eq_loadConfig`   — with none at all it is what `load_config` returns.
-/
import Shinran.Backend.StartupRecords
import Shinran.Backend.CacheCorrect
import Shinran.Machine

namespace Shinran

open Inquiry Machine

variable {ε : Type}

/-! ## §1. A startup among edits. -/

/-- How far the startup is. -/
inductive StartupPhase (ε : Type) where
  | loading (rest : Startup (Option (Except (LoadError ε) Configuration)))
  | written (config : Configuration) (cacheModTime : Nat)

structure StartupState (ε : Type) where
  fs : FileSystem
  now : Nat
  /-- What the startup has asked of the files so far. -/
  transcript : Transcript FsQuestion FsQuestion.Answer := []
  phase : StartupPhase ε

inductive StartupEvent where
  /-- The startup takes its next step. -/
  | startup
  /-- Another party writes, or deletes, a file. -/
  | write (path : PathBuf) (content : String)
  | delete (path : PathBuf)
  /-- Time passes. -/
  | tick
  deriving DecidableEq, Repr

/-- What ends a startup without a cache. -/
inductive StartupHalt (ε : Type) where
  | outOfFuel
  /-- `expect("unable to load config")`. -/
  | unableToLoadConfig (error : LoadError ε)

/-- `Configuration::new`, once there is no cache to load, and what `main` does with a
configuration that was not loaded from the cache. -/
def StartupState.advance (st : StartupState ε) : Except (StartupHalt ε) (StartupState ε) :=
  match st.phase with
  | .loading (.ask question rest) => .ok { st with
      transcript := st.transcript ++ [⟨question, st.fs.answer question⟩]
      phase := .loading (rest (st.fs.answer question)) }
  -- the cache is written once the load is over, maybe much later
  | .loading (.done (some (.ok config))) => .ok { st with phase := .written config st.now }
  | .loading (.done (some (.error err))) => .error (.unableToLoadConfig err)
  | .loading (.done none) => .error .outOfFuel
  | .written _ _ => .ok st

/-- A step of the startup, or of the other party. -/
def startupStep : Step (StartupState ε) StartupEvent Empty (StartupHalt ε)
  | st, .startup => st.advance.map (·, [])
  | st, .write path content =>
      .ok ({ st with fs.files := st.fs.files.insert path ⟨content, st.now⟩ }, [])
  | st, .delete path => .ok ({ st with fs.files := st.fs.files.erase path }, [])
  | st, .tick => .ok ({ st with now := st.now + 1 }, [])

/-- A startup that has not asked anything yet. -/
def StartupState.init (libs : Libraries ε) (order : PathOrder) (fuel : Nat) (basePath : PathBuf)
    (fs : FileSystem) (now : Nat) : StartupState ε where
  fs := fs
  now := now
  phase := .loading (Startup.loadConfig libs order fuel basePath)

/-- The modification time of the cache, once it is written. -/
def StartupState.cacheTime (st : StartupState ε) : Option Nat :=
  match st.phase with
  | .loading _ => none
  | .written _ cacheModTime => some cacheModTime

/-- Any step may come at any time. -/
def anyStep : Guard (StartupState ε) StartupEvent := fun _ _ _ => True

/-- A file that the startup has read is not given another content, unless the cache is older. -/
def Unraced : Guard (StartupState ε) StartupEvent := fun _ st event =>
  match event with
  | .write path content =>
      (∀ entry ∈ st.transcript, ∀ text ∈ Startup.readFrom path entry, text = content)
        ∨ ∃ cacheModTime ∈ st.cacheTime, cacheModTime < st.now
  | _ => True

/-- A later startup that accepts the cache finds in it what the files contain. -/
def CacheIsCurrent (libs : Libraries ε) (configDir : PathBuf) (st : StartupState ε) : Prop :=
  ∀ config cacheModTime accepted, st.phase = .written config cacheModTime →
    loadCache libs st.fs config cacheModTime configDir = .ok accepted →
      Records libs (fun path text => st.fs.readToString path = some text) accepted

/-! ## §2. What keeps a cache current. -/

section Unraced

variable {libs : Libraries ε} {order : PathOrder} {fuel : Nat} {basePath : PathBuf}
  {start : FileSystem} {now : Nat} {events : List StartupEvent} {emitted : List Empty}
  {st : StartupState ε}

/-- The startup is where its load has led it, by the answers it has been given. -/
def StartupState.Follows (program : Startup (Option (Except (LoadError ε) Configuration)))
    (st : StartupState ε) : Prop :=
  match st.phase with
  | .loading rest => program.Follows st.transcript rest
  | .written config _ => program.Returns st.transcript (some (.ok config))

/-- A file that has been read still has the content that was read, unless it is newer than the
cache. -/
def StartupState.Kept (st : StartupState ε) : Prop :=
  ∀ path text, Startup.ReadsFrom st.transcript path text →
    ∀ entry, st.fs.files.lookup path = some entry → entry.content = text
      ∨ ∃ cacheModTime, st.cacheTime = some cacheModTime ∧ cacheModTime < entry.modified

/-- **What a step of the startup does**: it asks, or writes the cache, or nothing. -/
theorem advance_ok {st' : StartupState ε} (h : st.advance = .ok st') :
    (∃ question rest, st.phase = .loading (.ask question rest)
        ∧ st' = { st with
          transcript := st.transcript ++ [⟨question, st.fs.answer question⟩]
          phase := .loading (rest (st.fs.answer question)) })
      ∨ (∃ config, st.phase = .loading (.done (some (.ok config)))
        ∧ st' = { st with phase := .written config st.now })
      ∨ st' = st := by
  unfold StartupState.advance at h
  split at h
  · rename_i question rest hphase
    cases h
    exact .inl ⟨question, rest, hphase, rfl⟩
  · rename_i config hphase
    cases h
    exact .inr (.inl ⟨config, hphase, rfl⟩)
  · cases h
  · cases h
  · cases h
    exact .inr (.inr rfl)

theorem startupStep_startup {st' : StartupState ε} {more : List Empty}
    (h : startupStep st .startup = .ok (st', more)) : st.advance = .ok st' := by
  have hmap : st.advance.map (·, ([] : List Empty)) = .ok (st', more) := h
  cases hadvance : st.advance with
  | error halt => rw [hadvance] at hmap; cases hmap
  | ok next => rw [hadvance] at hmap; cases hmap; rfl

theorem StartupState.Follows.step
    {program : Startup (Option (Except (LoadError ε) Configuration))} {event : StartupEvent}
    {st' : StartupState ε} {more : List Empty} (h : st.Follows program)
    (hstep : startupStep st event = .ok (st', more)) : st'.Follows program := by
  cases event with
  | startup =>
      unfold StartupState.Follows at h
      obtain ⟨question, rest, hphase, rfl⟩ | ⟨config, hphase, rfl⟩ | rfl :=
        advance_ok (startupStep_startup hstep)
      · rw [hphase] at h
        exact Program.Follows.snoc h _
      · rw [hphase] at h
        exact h
      · exact h
  | write path content => cases hstep; exact h
  | delete path => cases hstep; exact h
  | tick => cases hstep; exact h

/-- What a question adds to the transcript is what the files contain. -/
theorem readFrom_answer {fs : FileSystem} {question : FsQuestion} {path : PathBuf}
    {text : String} (h : Startup.readFrom path ⟨question, fs.answer question⟩ = some text)
    {entry : FileEntry} (hentry : fs.files.lookup path = some entry) : entry.content = text := by
  unfold Startup.readFrom at h
  split at h
  · rename_i path' answer heq
    cases heq
    have hread : (if path' = path then fs.readToString path' else none) = some text := h
    split_ifs at hread with hpath
    subst hpath
    simpa [FileSystem.readToString, hentry] using hread
  · cases h

/-- An edit of another file, or one that the guard admits, keeps what has been read. -/
theorem StartupState.Kept.step {event : StartupEvent} {st' : StartupState ε} {more : List Empty}
    (h : st.Kept) (hguard : Unraced events st event)
    (hstep : startupStep st event = .ok (st', more)) : st'.Kept := by
  intro path text hreads entry hentry
  cases event with
  | startup =>
      obtain ⟨question, rest, hphase, rfl⟩ | ⟨config, hphase, rfl⟩ | rfl :=
        advance_ok (startupStep_startup hstep)
      · have hcache : st.cacheTime = none := by rw [StartupState.cacheTime, hphase]
        obtain ⟨asked, hasked, htext⟩ := hreads
        cases List.mem_append.mp hasked with
        | inl hasked =>
            refine .inl ((h path text ⟨asked, hasked, htext⟩ entry hentry).resolve_right ?_)
            simp [hcache]
        | inr hasked =>
            obtain rfl := List.mem_singleton.mp hasked
            exact .inl (readFrom_answer htext hentry)
      · have hcache : st.cacheTime = none := by rw [StartupState.cacheTime, hphase]
        refine .inl ((h path text hreads entry hentry).resolve_right ?_)
        simp [hcache]
      · exact h path text hreads entry hentry
  | write path' content =>
      cases hstep
      by_cases hpath : path = path'
      · subst hpath
        obtain rfl : _ = entry := by simpa using hentry
        cases hguard with
        | inl hsame =>
            obtain ⟨asked, hasked, htext⟩ := hreads
            exact .inl (hsame asked hasked text htext).symm
        | inr hlater =>
            obtain ⟨cacheModTime, hcache, hlater⟩ := hlater
            exact .inr ⟨cacheModTime, hcache, hlater⟩
      · exact h path text hreads entry (by rwa [AList.lookup_insert_ne hpath] at hentry)
  | delete path' =>
      cases hstep
      by_cases hpath : path = path'
      · subst hpath
        simp at hentry
      · exact h path text hreads entry (by rwa [AList.lookup_erase_ne hpath] at hentry)
  | tick =>
      cases hstep
      exact h path text hreads entry hentry

/-- **Without a race the cache is current.**  In every run in which no file that the startup has
read is given another content up to the write of the cache, a later startup that accepts the
cache finds in it what the files contain. -/
theorem current_of_unraced
    (hrun : Run (startupStep (ε := ε)) Unraced (.init libs order fuel basePath start now) events
      emitted st) : CacheIsCurrent libs (PathBuf.join basePath "config") st := by
  obtain ⟨hfollows, hkept⟩ := hrun.invariant
    (fun _ _ st => st.Follows (Startup.loadConfig libs order fuel basePath) ∧ st.Kept)
    ⟨.refl _, by rintro path text ⟨entry, hentry, _⟩; cases hentry⟩
    (fun hinv hguard hstep => ⟨hinv.1.step hstep, hinv.2.step hguard hstep⟩)
  intro config cacheModTime accepted hphase haccept
  obtain ⟨rfl, haccepted⟩ := loadCache_ok haccept
  rw [StartupState.Follows, hphase] at hfollows
  refine (Startup.records_of_loadConfig hfollows fun _ _ hreads => hreads).mono ?_
  intro path hpath text hreads
  -- the recorded file is not newer than the cache, so it has not been edited since the write
  obtain ⟨entry, hentry, hold⟩ := haccepted.recorded path hpath
  cases hkept path text hreads entry hentry with
  | inl hcontent =>
      show (st.fs.files.lookup path).map (·.content) = some text
      rw [hentry, Option.map_some, hcontent]
  | inr hnewer =>
      obtain ⟨time, htime, hnewer⟩ := hnewer
      rw [StartupState.cacheTime, hphase] at htime
      cases htime
      omega

/-- No file is written or deleted before the cache is. -/
def NoEdits : Guard (StartupState ε) StartupEvent := fun _ st event =>
  match event with
  | .write _ _ | .delete _ => st.cacheTime.isSome
  | _ => True

/-- All answers so far are those of the files at the start, which stay until the cache is
written. -/
structure StartupState.AtRest (start : FileSystem) (st : StartupState ε) : Prop where
  answers : ∀ entry ∈ st.transcript, entry.2 = start.answer entry.1
  files : st.cacheTime = none → st.fs = start

theorem StartupState.AtRest.step {event : StartupEvent} {st' : StartupState ε}
    {more : List Empty} (h : st.AtRest start) (hguard : NoEdits events st event)
    (hstep : startupStep st event = .ok (st', more)) : st'.AtRest start := by
  have hwritten : (∃ path content, event = .write path content) ∨ (∃ path, event = .delete path) →
      st.cacheTime ≠ none := by
    rintro (⟨_, _, rfl⟩ | ⟨_, rfl⟩) <;> exact Option.isSome_iff_ne_none.mp hguard
  cases event with
  | startup =>
      obtain ⟨question, rest, hphase, rfl⟩ | ⟨config, hphase, rfl⟩ | rfl :=
        advance_ok (startupStep_startup hstep)
      · have hcache : st.cacheTime = none := by rw [StartupState.cacheTime, hphase]
        refine ⟨?_, fun _ => h.files hcache⟩
        rw [List.forall_mem_append, List.forall_mem_singleton]
        exact ⟨h.answers, by rw [h.files hcache]⟩
      · exact ⟨h.answers, nofun⟩
      · exact h
  | write path content =>
      cases hstep
      exact ⟨h.answers, fun hcache => absurd hcache (hwritten (.inl ⟨_, _, rfl⟩))⟩
  | delete path =>
      cases hstep
      exact ⟨h.answers, fun hcache => absurd hcache (hwritten (.inr ⟨_, rfl⟩))⟩
  | tick =>
      cases hstep
      exact ⟨h.answers, h.files⟩

/-- **A load that is not disturbed** is `load_config`, and that is what the cache holds. -/
theorem written_eq_loadConfig
    (hrun : Run (startupStep (ε := ε)) NoEdits
      (.init libs order (start.files.keys.length + 1) basePath start now) events emitted st)
    {config : Configuration} {cacheModTime : Nat} (hphase : st.phase = .written config cacheModTime) :
    loadConfig libs start order basePath = some (.ok config) := by
  obtain ⟨hfollows, hrest⟩ := hrun.invariant
    (fun _ _ st =>
      st.Follows (Startup.loadConfig libs order (start.files.keys.length + 1) basePath)
        ∧ st.AtRest start)
    ⟨.refl _, nofun, fun _ => rfl⟩
    (fun hinv hguard hstep => ⟨hinv.1.step hstep, hinv.2.step hguard hstep⟩)
  rw [StartupState.Follows, hphase] at hfollows
  rw [← Startup.eval_loadConfig]
  exact (hfollows.eq_eval hrest.answers).symm

end Unraced

/-! ## §3. An edit between the read and the write of the cache. -/

instance (events : List StartupEvent) (st : StartupState ε) (event : StartupEvent) :
    Decidable (anyStep events st event) := .isTrue trivial

instance (events : List StartupEvent) (st : StartupState ε) (event : StartupEvent) :
    Decidable (Unraced events st event) :=
  match event with
  | .write path content => inferInstanceAs (Decidable
      ((∀ entry ∈ st.transcript, ∀ text ∈ Startup.readFrom path entry, text = content)
        ∨ ∃ cacheModTime ∈ st.cacheTime, cacheModTime < st.now))
  | .delete _ | .startup | .tick => .isTrue trivial

/-- The text of a match file with one match. -/
def editedText : String := "matches: [\x7btrigger: mail, replace: me\x7d]"

/-- The whole load, an edit of the match file, and only then the write of the cache. -/
def editBeforeWrite : List StartupEvent :=
  List.replicate 12 .startup ++ [.write "/shinran/match/base.yml" editedText, .tick, .startup]

/-- The cache is accepted, though it has no matches for a file that contains one. -/
def lacksMatch (st : StartupState String) : Bool :=
  match st.phase with
  | .loading _ => false
  | .written config cacheModTime =>
      (loadCache textLibraries st.fs config cacheModTime "/shinran/config").isOk
        && config.matchStore.indexedFiles.files.any fun file =>
          file.content.triggerMatches.isEmpty
            && st.fs.readToString file.sourcePath = some editedText

/-- **Stale content is accepted**: the match file is edited after its read, the cache is written
after the edit, and a later startup takes the content from before the edit. -/
theorem staleContent_accepted : ∃ emitted st,
    Run startupStep anyStep (.init textLibraries .canonical 3 "/shinran" filesThen 2)
        editBeforeWrite emitted st
      ∧ ¬ CacheIsCurrent textLibraries "/shinran/config" st := by
  refine Run.exists_of_exec (fun _ st => lacksMatch st) (by decide) ?_
  intro emitted st _ htest hcurrent
  unfold lacksMatch at htest
  split at htest
  · cases htest
  · rename_i config cacheModTime hphase
    rw [Bool.and_eq_true] at htest
    obtain ⟨haccept, hfile⟩ := htest
    obtain ⟨file, hmem, hfile⟩ := List.any_eq_true.mp hfile
    rw [Bool.and_eq_true, decide_eq_true_eq] at hfile
    obtain ⟨hempty, htext⟩ := hfile
    cases hload : loadCache textLibraries st.fs config cacheModTime "/shinran/config" with
    | error err => rw [hload] at haccept; cases haccept
    | ok accepted =>
        obtain ⟨rfl, _⟩ := loadCache_ok hload
        obtain ⟨text, parsed, hcontains, hparsed, hcontent⟩ :=
          (hcurrent _ _ _ hphase hload).matchFiles file hmem
        obtain rfl : editedText = text := Option.some.inj (htext.symm.trans hcontains)
        -- the text has a match, the recorded content has none
        cases hparsed
        rw [hcontent] at hempty
        cases hempty

/-- While the cache is about to be written, a file appears that is no match file. -/
def notesBeforeWrite : List StartupEvent :=
  List.replicate 12 .startup ++ [.write "/shinran/match/notes.txt" editedText, .startup]

theorem current_of_unraced_notes : ∃ emitted st,
    Run startupStep Unraced (.init textLibraries .canonical 3 "/shinran" filesThen 2)
        notesBeforeWrite emitted st
      ∧ (∃ config cacheModTime, st.phase = .written config cacheModTime
        ∧ (loadCache textLibraries st.fs config cacheModTime "/shinran/config").isOk)
      ∧ CacheIsCurrent textLibraries "/shinran/config" st := by
  refine Run.exists_of_exec (fun _ st => match st.phase with
    | .loading _ => false
    | .written config cacheModTime =>
        (loadCache textLibraries st.fs config cacheModTime "/shinran/config").isOk) (by decide) ?_
  intro emitted st hrun htest
  refine ⟨?_, current_of_unraced hrun⟩
  split at htest
  · cases htest
  · rename_i config cacheModTime hphase
    exact ⟨config, cacheModTime, hphase, htest⟩

end Shinran
