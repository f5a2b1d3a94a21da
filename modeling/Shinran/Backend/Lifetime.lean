/-
  Shinran.Backend.Lifetime
  ────────────────────────
  **AN INSTALLATION OVER ITS STARTS** (`Configuration::new` and the `main` functions).

  The program is started again and again, and the files are edited in between.
  A start takes the cache if it is accepted, else it loads the files and writes
  what it has loaded to the cache, some time later.  Several programs may run
  at once, so several configurations may be on their way to the cache.

    • `Installation`       — the files, the cache, and what is not written yet,
    • `installationStep`   — starts, writes of the cache, and edits,
    • `Installation.Sound` — the cache holds what some earlier start has loaded,
    • `starts_as_fresh`    — a start goes as if there were no cache.

  A start reads its files at once here; `Shinran.Backend.CacheRace` takes a
  start apart, and says when its load is one on files at rest.
-/
import Shinran.Backend.CachedBackend
import Shinran.Machine

namespace Shinran

open Machine

variable {ε : Type} {libs : Libraries ε} {basePath : PathBuf}

/-! ## §1. Starts, writes of the cache, and edits. -/

/-- `Configuration::new`, and whether the configuration is loaded from the cache. -/
def Configuration.new (libs : Libraries ε) (fs : FileSystem) (order : PathOrder)
    (basePath : PathBuf) (cache : Option (Configuration × Nat)) :
    Option (Except (LoadError ε) (Configuration × Bool)) :=
  match cache.bind fun (archivedConfig, cacheModTime) =>
      (loadCache libs fs archivedConfig cacheModTime (PathBuf.join basePath "config")).toOption with
  | some config => some (.ok (config, true))
  -- whatever is wrong with the cache is only logged
  | none => (loadConfig libs fs order basePath).map fun result => result.map (·, false)

structure Installation where
  fs : FileSystem
  now : Nat
  /-- What the cache holds, and when it was written. -/
  cache : Option (Configuration × Nat) := none
  /-- What has been loaded and is still to be written to the cache. -/
  unwritten : List Configuration := []

inductive Happening where
  | start (order : PathOrder)
  /-- The task that writes the cache succeeds, or fails. -/
  | writeCache
  | failToWriteCache
  /-- The cache is deleted, or damaged so that its bytes do not check. -/
  | loseCache
  | write (path : PathBuf) (content : String)
  | delete (path : PathBuf)
  | tick

/-- How a start ends. -/
inductive StartResult (ε : Type) where
  | configured (config : Configuration) (loadedFromCache : Bool)
  /-- `expect("unable to load config")`. -/
  | unableToLoadConfig (error : LoadError ε)

/-- What the program serves if it is started now. -/
def Installation.configuration (libs : Libraries ε) (basePath : PathBuf) (st : Installation)
    (order : PathOrder) : Option (Except (LoadError ε) (Configuration × Bool)) :=
  Configuration.new libs st.fs order basePath st.cache

/-- What happens to an installation.  Starts emit how they end; a start that fails leaves the
installation as it is. -/
def installationStep (libs : Libraries ε) (basePath : PathBuf) :
    Step Installation Happening (StartResult ε) Unit
  | st, .start order =>
      match st.configuration libs basePath order with
      | none => .error ()
      | some (.error err) => .ok (st, [.unableToLoadConfig err])
      | some (.ok (config, true)) => .ok (st, [.configured config true])
      | some (.ok (config, false)) =>
          .ok ({ st with unwritten := st.unwritten ++ [config] }, [.configured config false])
  | st, .writeCache =>
      match st.unwritten with
      | [] => .ok (st, [])
      | config :: unwritten =>
          .ok ({ st with cache := some (config, st.now), unwritten := unwritten }, [])
  | st, .failToWriteCache => .ok ({ st with unwritten := st.unwritten.tail }, [])
  | st, .loseCache => .ok ({ st with cache := none }, [])
  | st, .write path content =>
      .ok ({ st with fs.files := st.fs.files.insert path ⟨content, st.now⟩ }, [])
  | st, .delete path => .ok ({ st with fs.files := st.fs.files.erase path }, [])
  | st, .tick => .ok ({ st with now := st.now + 1 }, [])

/-- No file is written while a configuration is on its way to the cache, or in the very moment in
which the cache is written.  Files may be deleted at any time. -/
def Settled : Guard Installation Happening := fun _ st happening =>
  match happening with
  | .write _ _ => st.unwritten = [] ∧ ∀ cache ∈ st.cache, cache.2 < st.now
  | _ => True

/-- An installation that has never been started. -/
def Installation.init (fs : FileSystem) (now : Nat) : Installation where
  fs := fs
  now := now

/-! ## §2. What the cache holds. -/

section Sound

/-- A fresh start has loaded the configuration from files of which edits after `T` have made
those of now. -/
def LoadedBefore (libs : Libraries ε) (basePath : PathBuf) (emitted : List (StartResult ε))
    (fs : FileSystem) (T : Nat) (config : Configuration) : Prop :=
  .configured config false ∈ emitted
    ∧ ∃ fsThen order, loadConfig libs fsThen order basePath = some (.ok config)
      ∧ fsThen.Edits T fs

theorem LoadedBefore.mono {emitted more : List (StartResult ε)} {fs : FileSystem} {T : Nat}
    {config : Configuration} (h : LoadedBefore libs basePath emitted fs T config) :
    LoadedBefore libs basePath (emitted ++ more) fs T config :=
  ⟨List.mem_append_left _ h.1, h.2⟩

theorem LoadedBefore.edit {emitted : List (StartResult ε)} {fs fs' : FileSystem} {T : Nat}
    {config : Configuration} (h : LoadedBefore libs basePath emitted fs T config)
    (hedit : fs.Edit T fs') : LoadedBefore libs basePath emitted fs' T config := by
  obtain ⟨hemitted, fsThen, order, hload, hedits⟩ := h
  exact ⟨hemitted, fsThen, order, hload, hedits.tail hedit⟩

/-- **The invariant of an installation.**  The cache holds what an earlier start has loaded, and
later edits bear later times.  What is still unwritten may be written at any time. -/
structure Installation.Sound (libs : Libraries ε) (basePath : PathBuf)
    (emitted : List (StartResult ε)) (st : Installation) : Prop where
  cache : ∀ cache ∈ st.cache, LoadedBefore libs basePath emitted st.fs cache.2 cache.1
  unwritten : ∀ config ∈ st.unwritten, ∀ T, LoadedBefore libs basePath emitted st.fs T config

variable {emitted more : List (StartResult ε)} {st st' : Installation}

theorem Installation.Sound.emit (h : st.Sound libs basePath emitted) :
    st.Sound libs basePath (emitted ++ more) :=
  ⟨fun cache hcache => (h.cache cache hcache).mono,
    fun config hconfig T => (h.unwritten config hconfig T).mono⟩

/-- A fresh load is on its way to the cache. -/
theorem Configuration.new_fresh {fs : FileSystem} {order : PathOrder}
    {cache : Option (Configuration × Nat)} {config : Configuration}
    (h : Configuration.new libs fs order basePath cache = some (.ok (config, false))) :
    loadConfig libs fs order basePath = some (.ok config) := by
  unfold Configuration.new at h
  split at h
  · cases h
  · cases hload : loadConfig libs fs order basePath with
    | none => rw [hload] at h; cases h
    | some result =>
        rw [hload] at h
        cases result with
        | error err => cases h
        | ok config' => cases h; rfl

theorem Configuration.new_cached {fs : FileSystem} {order : PathOrder}
    {cache : Option (Configuration × Nat)} {config : Configuration}
    (h : Configuration.new libs fs order basePath cache = some (.ok (config, true))) :
    ∃ T, cache = some (config, T)
      ∧ Accepted libs fs config T (PathBuf.join basePath "config") := by
  unfold Configuration.new at h
  split at h
  · rename_i config' hcache
    cases h
    obtain ⟨⟨archivedConfig, T⟩, hsome, haccept⟩ := Option.bind_eq_some_iff.mp hcache
    obtain ⟨rfl, haccepted⟩ := loadCache_ok (toOption_eq_some_iff.mp haccept)
    exact ⟨T, hsome, haccepted⟩
  · cases hload : loadConfig libs fs order basePath with
    | none => rw [hload] at h; cases h
    | some result => rw [hload] at h; cases result <;> cases h

/-- Where a load goes through, so does a start, with or without a cache. -/
theorem Configuration.exists_new {fs : FileSystem} {order : PathOrder} {config : Configuration}
    (hload : loadConfig libs fs order basePath = some (.ok config))
    (cache : Option (Configuration × Nat)) :
    ∃ served, Configuration.new libs fs order basePath cache = some (.ok served) := by
  unfold Configuration.new
  split
  · exact ⟨_, rfl⟩
  · exact ⟨(config, false), by rw [hload]; rfl⟩

/-- **A step keeps the invariant**, if the edits are settled. -/
theorem Installation.Sound.step {events : List Happening} {happening : Happening}
    (h : st.Sound libs basePath emitted) (hguard : Settled events st happening)
    (hstep : installationStep libs basePath st happening = .ok (st', more)) :
    st'.Sound libs basePath (emitted ++ more) := by
  cases happening with
  | start order =>
      simp only [installationStep] at hstep
      split at hstep
      · cases hstep
      · cases hstep; exact h.emit
      · cases hstep; exact h.emit
      · rename_i config hnew
        cases hstep
        refine ⟨fun cache hcache => (h.cache cache hcache).mono, ?_⟩
        intro config' hconfig' T
        cases List.mem_append.mp hconfig' with
        | inl hbefore => exact (h.unwritten config' hbefore T).mono
        | inr hnow =>
            obtain rfl := List.mem_singleton.mp hnow
            exact ⟨List.mem_append_right _ (List.mem_singleton_self _), st.fs, order,
              Configuration.new_fresh hnew, .refl⟩
  | writeCache =>
      simp only [installationStep] at hstep
      split at hstep
      · cases hstep; exact h.emit
      · rename_i config unwritten hunwritten
        cases hstep
        rw [List.append_nil]
        constructor
        · intro cache hcache
          cases hcache
          exact h.unwritten config (hunwritten ▸ List.mem_cons_self) st.now
        · intro config' hconfig'
          exact h.unwritten config' (hunwritten ▸ List.mem_cons_of_mem _ hconfig')
  | failToWriteCache =>
      cases hstep
      rw [List.append_nil]
      exact ⟨h.cache, fun config hconfig => h.unwritten config (List.mem_of_mem_tail hconfig)⟩
  | loseCache =>
      cases hstep
      rw [List.append_nil]
      exact ⟨fun _ hcache => absurd hcache (Option.not_mem_none _), h.unwritten⟩
  | write path content =>
      cases hstep
      obtain ⟨hnone, hlater⟩ := hguard
      rw [List.append_nil]
      constructor
      · intro cache hcache
        exact (h.cache cache hcache).edit (.write _ _ _ (hlater cache hcache))
      · intro config hconfig
        exact absurd (hnone ▸ hconfig) List.not_mem_nil
  | delete path =>
      cases hstep
      rw [List.append_nil]
      exact ⟨fun cache hcache => (h.cache cache hcache).edit (.delete _ _),
        fun config hconfig T => (h.unwritten config hconfig T).edit (.delete _ _)⟩
  | tick =>
      cases hstep
      rw [List.append_nil]
      exact ⟨h.cache, h.unwritten⟩

theorem Installation.Sound.of_run {fs : FileSystem} {now : Nat} {events : List Happening}
    (hrun : Run (installationStep libs basePath) Settled (.init fs now) events emitted st) :
    st.Sound libs basePath emitted :=
  hrun.invariant (fun _ emitted st => st.Sound libs basePath emitted)
    ⟨fun _ hcache => absurd hcache (Option.not_mem_none _),
      fun _ hconfig => absurd hconfig List.not_mem_nil⟩
    (fun hinv hguard hstep => hinv.step hguard hstep)

end Sound

/-! ## §3. Starts over the life of an installation. -/

/-- What a fresh load serves has all that is visible. -/
theorem loadConfig_records {fs : FileSystem} {order : PathOrder} {config : Configuration}
    (hload : loadConfig libs fs order basePath = some (.ok config)) {path : PathBuf}
    (h : VisiblePath libs fs config.profileStore.defaultProfile path) :
    path ∈ config.matchStore.sourcePaths := by
  obtain ⟨errors, hfiles⟩ := loadConfig_ok_iff.mp hload
  obtain ⟨loaded, fileMap, paths, hresult⟩ := exists_of_loadFromFiles hfiles
  exact hresult.mem_of_visiblePath List.mem_cons_self h

section Start

variable {emitted : List (StartResult ε)} {st : Installation} (order : PathOrder)

/-- A start succeeds exactly if the files of now load. -/
theorem Installation.Sound.served_iff (h : st.Sound libs basePath emitted) :
    (∃ served, st.configuration libs basePath order = some (.ok served))
      ↔ ∃ config', loadConfig libs st.fs order basePath = some (.ok config') := by
  constructor
  · rintro ⟨⟨config, cached⟩, hserved⟩
    cases cached with
    | false => exact ⟨config, Configuration.new_fresh hserved⟩
    | true =>
        obtain ⟨T, hcache, haccepted⟩ := Configuration.new_cached hserved
        obtain ⟨_, fsThen, orderThen, hload, hedits⟩ := h.cache _ hcache
        obtain ⟨config', hload', _⟩ := exists_fresh order hload hedits haccepted
        exact ⟨config', hload'⟩
  · rintro ⟨config', hload⟩
    exact Configuration.exists_new hload st.cache

variable {order} {config : Configuration} {cached : Bool}

/-- What is served has all that is visible now exactly if nothing is newly imported. -/
theorem Installation.Sound.served_recorded_iff (h : st.Sound libs basePath emitted)
    (hserved : st.configuration libs basePath order = some (.ok (config, cached))) :
    (∀ path, VisiblePath libs st.fs config.profileStore.defaultProfile path →
        path ∈ config.matchStore.sourcePaths)
      ↔ NothingNewVisible libs st.fs config config.profileStore.defaultProfile := by
  cases cached with
  | false =>
      have hrecords := fun path =>
        @loadConfig_records _ libs basePath _ _ _ (Configuration.new_fresh hserved) path
      refine iff_of_true hrecords ?_
      intro path import_ ⟨_, root, hselects, hreach⟩ _ hedge hnode
      exact hrecords import_ ⟨hnode, root, hselects, hreach.tail hedge⟩
  | true =>
      obtain ⟨T, hcache, haccepted⟩ := Configuration.new_cached hserved
      obtain ⟨_, fsThen, orderThen, hload, hedits⟩ := h.cache _ hcache
      obtain ⟨errors, hfiles⟩ := loadConfig_ok_iff.mp hload
      obtain ⟨loaded, fileMap, paths, hresult⟩ := exists_of_loadFromFiles hfiles
      exact recorded_iff hresult hedits haccepted List.mem_cons_self

/-- Then the backend knows what that of a fresh load knows. -/
theorem Installation.Sound.served_knows (h : st.Sound libs basePath emitted)
    (hserved : st.configuration libs basePath order = some (.ok (config, cached)))
    (hnothing : NothingNewVisible libs st.fs config config.profileStore.defaultProfile) :
    ∃ config', loadConfig libs st.fs order basePath = some (.ok config')
      ∧ BothKnow (VisibleFile libs st.fs config'.profileStore.defaultProfile) config config' := by
  cases cached with
  | false =>
      have hload := Configuration.new_fresh hserved
      refine ⟨config, hload, fun regexIsMatch runtime nextId fuel hfuel _ => ?_⟩
      obtain ⟨adapter, hnew, _, hknows⟩ := exists_backend hload hfuel regexIsMatch runtime nextId
      exact ⟨adapter, adapter, hnew, hnew, hknows, hknows⟩
  | true =>
      obtain ⟨T, hcache, haccepted⟩ := Configuration.new_cached hserved
      obtain ⟨_, fsThen, orderThen, hload, hedits⟩ := h.cache _ hcache
      exact bothKnow_of_accepted order hload hedits haccepted hnothing

/-- **The backend of a start** knows what the default profile leads to now. -/
theorem Installation.Sound.exists_served_backend (h : st.Sound libs basePath emitted)
    (hserved : st.configuration libs basePath order = some (.ok (config, cached)))
    (hnothing : NothingNewVisible libs st.fs config config.profileStore.defaultProfile)
    {fuel : Nat} (hfuel : config.matchStore.indexedFiles.files.length < fuel)
    (regexIsMatch : String → String → Bool) (runtime : Runtime) (nextId : Int32) :
    ∃ adapter, RendererAdapter.new runtime nextId (config.activeProfile regexIsMatch)
        config.matchStore fuel = some (.ok adapter)
      ∧ adapter.runtime = runtime
      ∧ adapter.Knows (VisibleFile libs st.fs config.profileStore.defaultProfile) := by
  cases cached with
  | false =>
      exact exists_backend (Configuration.new_fresh hserved) hfuel regexIsMatch runtime nextId
  | true =>
      obtain ⟨T, hcache, haccepted⟩ := Configuration.new_cached hserved
      obtain ⟨_, fsThen, orderThen, hload, hedits⟩ := h.cache _ hcache
      exact exists_backend_of_accepted hload hedits haccepted hnothing hfuel regexIsMatch runtime
        nextId

end Start

/-- **A start goes as if there were no cache.**  Take any life of an installation, with any number
of starts and edits, in which no file is written while a configuration is on its way to the cache,
or at the very time of the cache.  Then the next start succeeds exactly if the files of now load.
What it serves from the cache is what an earlier start has loaded from the files.  It has all
match files to which the default profile leads now, exactly if none of them newly imports one;
and then the backend knows what the backend of a fresh load knows. -/
theorem starts_as_fresh {fs : FileSystem} {now : Nat} {events : List Happening}
    {emitted : List (StartResult ε)} {st : Installation}
    (hrun : Run (installationStep libs basePath) Settled (.init fs now) events emitted st)
    (order : PathOrder) :
    ((∃ served, st.configuration libs basePath order = some (.ok served))
        ↔ ∃ config', loadConfig libs st.fs order basePath = some (.ok config'))
      ∧ ∀ config cached, st.configuration libs basePath order = some (.ok (config, cached)) →
        (cached = true → .configured config false ∈ emitted)
          ∧ ((∀ path, VisiblePath libs st.fs config.profileStore.defaultProfile path →
              path ∈ config.matchStore.sourcePaths)
            ↔ NothingNewVisible libs st.fs config config.profileStore.defaultProfile)
          ∧ (NothingNewVisible libs st.fs config config.profileStore.defaultProfile →
            ∃ config', loadConfig libs st.fs order basePath = some (.ok config')
              ∧ BothKnow (VisibleFile libs st.fs config'.profileStore.defaultProfile) config
                config') := by
  have hsound := Installation.Sound.of_run hrun
  refine ⟨hsound.served_iff order, fun config cached hserved => ⟨?_, ?_, ?_⟩⟩
  · rintro rfl
    obtain ⟨T, hcache, _⟩ := Configuration.new_cached hserved
    exact (hsound.cache _ hcache).1
  · exact hsound.served_recorded_iff hserved
  · exact hsound.served_knows hserved

instance (events : List Happening) (st : Installation) (happening : Happening) :
    Decidable (Settled events st happening) :=
  match happening with
  | .write _ _ => inferInstanceAs (Decidable
      (st.unwritten = [] ∧ ∀ cache ∈ st.cache, cache.2 < st.now))
  | .start _ | .writeCache | .failToWriteCache | .loseCache | .delete _ | .tick => .isTrue trivial

/-- A start whose configuration is written to the cache, and a later note. -/
def startThenNote : List Happening :=
  [.start .canonical, .writeCache, .tick, .write "/shinran/match/notes.txt" "to do"]

/-- The next start takes the cache, which has every file that loads. -/
def servesAll (st : Installation) : Bool :=
  match st.configuration textLibraries "/shinran" .canonical with
  | some (.ok (config, true)) => st.fs.files.keys.all fun path =>
      !((matchLoader textLibraries st.fs).importGraph path).isSome
        || path ∈ config.matchStore.sourcePaths
  | _ => false

/-- The second start takes the cache, and knows what a fresh load would know. -/
theorem starts_as_fresh_noted : ∃ emitted st,
    Run (installationStep textLibraries "/shinran") Settled (.init filesThen 2) startThenNote
        emitted st
      ∧ ∃ config config', st.configuration textLibraries "/shinran" .canonical
          = some (.ok (config, true))
        ∧ .configured config false ∈ emitted
        ∧ loadConfig textLibraries st.fs .canonical "/shinran" = some (.ok config')
        ∧ BothKnow (VisibleFile textLibraries st.fs config'.profileStore.defaultProfile) config
          config' := by
  refine Run.exists_of_exec (fun _ st => servesAll st) (by decide) ?_
  intro emitted st hrun htest
  unfold servesAll at htest
  split at htest
  · rename_i config hserved
    obtain ⟨hearlier, hiff, hsame⟩ := (starts_as_fresh hrun .canonical).2 config true hserved
    have hnothing := hiff.mp fun path hpath => by
      have hrecorded := List.all_eq_true.mp htest path hpath.mem_keys
      rw [hpath.1, Bool.not_true, Bool.false_or, decide_eq_true_eq] at hrecorded
      exact hrecorded
    obtain ⟨config', hload', hknow⟩ := hsame hnothing
    exact ⟨config, config', hserved, hearlier rfl, hload', hknow⟩
  · cases htest

end Shinran
