/-
  Shinran.Backend.Cache
  ─────────────────────
  **THE CONFIGURATION CACHE** (`load_cache` of `shinran_backend::config`).

  A configuration that has been loaded is written to a file and read back at
  the next start, if its files have not changed since.  The cache is accepted
  on three grounds, each a question to the file system of now:

    • the recorded files exist and are not newer than the cache,
    • every configuration file of the config directory is recorded,
    • every path that the globs of a profile select is recorded.

  The file in which the cache is kept appears as its contents, a
  `Configuration`, and its modification time.
-/
import Shinran.Config.Load

namespace Shinran

variable {ε : Type}

/-! ## §1. Configurations. -/

/-- `Configuration`, without the renderer, which a cache does not look at. -/
structure Configuration where
  profileStore : ProfileStore
  matchStore : MatchStore

/-- `load_config`: the errors that are not fatal are only logged. -/
def loadConfig (libs : Libraries ε) (fs : FileSystem) (order : PathOrder) (basePath : PathBuf) :
    Option (Except (LoadError ε) Configuration) :=
  (loadFromFiles libs fs order basePath).map fun result =>
    result.map fun (profileStore, matchStore, _) => ⟨profileStore, matchStore⟩

/-- `ArchivedProfileStore::get_source_paths`. -/
def ProfileStore.sourcePaths (store : ProfileStore) : List PathBuf :=
  store.profiles.map (·.sourcePath)

/-- `ArchivedMatchStore::get_source_paths`. -/
def MatchStore.sourcePaths (store : MatchStore) : List PathBuf :=
  store.indexedFiles.files.map (·.sourcePath)

/-- The files that a configuration has been loaded from. -/
def Configuration.sourcePaths (config : Configuration) : List PathBuf :=
  config.profileStore.sourcePaths ++ config.matchStore.sourcePaths

/-! ## §2. Validating a cache. -/

inductive CacheError where
  | noPathsProvided
  | notARegularFile (path : PathBuf)
  | outdated
  | failedToList
  | newConfigurationFiles
  | failedToGenerateMatchPaths
  | newMatchFiles
  deriving DecidableEq, Repr

/-- The body of the fold in `most_recent_modification`. -/
def latestOf (fs : FileSystem) (maxTime : Option Nat) (path : PathBuf) :
    Except CacheError (Option Nat) :=
  match fs.files.lookup path with
  -- a directory, or nothing at all, is not a regular file
  | none => .error (.notARegularFile path)
  | some entry => .ok (some (maxTime.elim entry.modified fun maxTime =>
      max maxTime entry.modified))

/-- `most_recent_modification`. -/
def mostRecentModification (fs : FileSystem) (paths : List PathBuf) : Except CacheError Nat :=
  match paths.foldlM (latestOf fs) none with
  | .error err => .error err
  | .ok none => .error .noPathsProvided
  | .ok (some time) => .ok time

/-- The loop over the profiles in `load_cache`. -/
def checkMatchPaths (libs : Libraries ε) (fs : FileSystem) (configPaths : List PathBuf) :
    List ProfileFile → Except CacheError Unit
  | [] => .ok ()
  | profileFile :: profileFiles =>
      match generateMatchPaths libs fs profileFile.content profileFile.sourcePath with
      | none => .error .failedToGenerateMatchPaths
      | some matchPaths =>
          if matchPaths.all (· ∈ configPaths) then
            checkMatchPaths libs fs configPaths profileFiles
          else .error .newMatchFiles

/-- `load_cache`, with the contents and the modification time of the cache. -/
def loadCache (libs : Libraries ε) (fs : FileSystem) (archivedConfig : Configuration)
    (cacheModTime : Nat) (configDir : PathBuf) : Except CacheError Configuration :=
  let configPaths := archivedConfig.sourcePaths
  match mostRecentModification fs configPaths with
  | .error err => .error err
  | .ok configModTime =>
      -- a file as old as the cache is not newer
      if configModTime > cacheModTime then .error .outdated
      else
        match allConfigFiles fs configDir with
        | none => .error .failedToList
        | some foundPaths =>
            if foundPaths.any (· ∉ configPaths) then .error .newConfigurationFiles
            else
              match checkMatchPaths libs fs configPaths archivedConfig.profileStore.profiles with
              | .error err => .error err
              | .ok () => .ok archivedConfig

/-! ## §3. What an accepted cache says. -/

/-- The three grounds on which a cache is accepted. -/
structure Accepted (libs : Libraries ε) (fs : FileSystem) (config : Configuration)
    (cacheModTime : Nat) (configDir : PathBuf) : Prop where
  recorded : ∀ path ∈ config.sourcePaths, ∃ entry, fs.files.lookup path = some entry
    ∧ entry.modified ≤ cacheModTime
  listed : ∀ foundPaths, allConfigFiles fs configDir = some foundPaths →
    ∀ path ∈ foundPaths, path ∈ config.sourcePaths
  selected : ∀ profile ∈ config.profileStore.profiles, ∀ matchPaths,
    generateMatchPaths libs fs profile.content profile.sourcePath = some matchPaths →
      ∀ path ∈ matchPaths, path ∈ config.sourcePaths

/-- The latest time is no earlier than that of any of the files, all of which exist. -/
theorem foldlM_latestOf {fs : FileSystem} {paths : List PathBuf} {start : Option Nat}
    {time : Nat} (h : paths.foldlM (latestOf fs) start = .ok (some time)) :
    (∀ t, start = some t → t ≤ time)
      ∧ ∀ path ∈ paths, ∃ entry, fs.files.lookup path = some entry ∧ entry.modified ≤ time := by
  -- the start of the fold takes part in the maximum, so it varies with the list
  induction paths generalizing start with
  | nil =>
      obtain rfl : start = some time := by simpa [pure, Except.pure] using h
      simp
  | cons path paths ih =>
      rw [List.foldlM_cons] at h
      cases hentry : fs.files.lookup path with
      | none => simp [latestOf, hentry, bind, Except.bind] at h
      | some entry =>
          simp only [latestOf, hentry, bind, Except.bind] at h
          obtain ⟨hstart, hpaths⟩ := ih h
          have hle := hstart _ rfl
          refine ⟨?_, ?_⟩
          · intro t ht
            subst ht
            simp only [Option.elim_some] at hle
            omega
          · rw [List.forall_mem_cons]
            refine ⟨⟨entry, hentry, ?_⟩, hpaths⟩
            cases start with
            | none => simpa using hle
            | some t =>
                simp only [Option.elim_some] at hle
                omega

theorem mostRecentModification_ok {fs : FileSystem} {paths : List PathBuf} {time : Nat}
    (h : mostRecentModification fs paths = .ok time) :
    ∀ path ∈ paths, ∃ entry, fs.files.lookup path = some entry ∧ entry.modified ≤ time := by
  unfold mostRecentModification at h
  split at h
  · cases h
  · cases h
  · rename_i time' hfold
    obtain rfl : time' = time := by simpa using h
    exact (foldlM_latestOf hfold).2

theorem checkMatchPaths_ok {libs : Libraries ε} {fs : FileSystem} {configPaths : List PathBuf}
    {profileFiles : List ProfileFile}
    (h : checkMatchPaths libs fs configPaths profileFiles = .ok ()) :
    ∀ profile ∈ profileFiles, ∀ matchPaths,
      generateMatchPaths libs fs profile.content profile.sourcePath = some matchPaths →
        ∀ path ∈ matchPaths, path ∈ configPaths := by
  induction profileFiles with
  | nil => simp
  | cons profileFile profileFiles ih =>
      unfold checkMatchPaths at h
      split at h
      · cases h
      · rename_i matchPaths hpaths
        split at h
        · rename_i hall
          rw [List.forall_mem_cons]
          refine ⟨?_, ih h⟩
          intro matchPaths' hpaths' path hpath
          obtain rfl := Option.some.inj (hpaths.symm.trans hpaths')
          simpa using List.all_eq_true.mp hall path hpath
        · cases h

/-- **An accepted cache** is returned as it is, on the three grounds. -/
theorem loadCache_ok {libs : Libraries ε} {fs : FileSystem} {config accepted : Configuration}
    {cacheModTime : Nat} {configDir : PathBuf}
    (h : loadCache libs fs config cacheModTime configDir = .ok accepted) :
    accepted = config ∧ Accepted libs fs config cacheModTime configDir := by
  -- only the last of six branches accepts
  unfold loadCache at h
  dsimp only at h
  split at h
  · cases h
  rename_i configModTime hmod
  split at h
  · cases h
  rename_i hfresh
  split at h
  · cases h
  rename_i foundPaths hfound
  split at h
  · cases h
  rename_i hlisted
  split at h
  · cases h
  rename_i hselected
  refine ⟨by simpa using h.symm, ?_, ?_, checkMatchPaths_ok hselected⟩
  · intro path hpath
    obtain ⟨entry, hentry, hle⟩ := mostRecentModification_ok hmod path hpath
    exact ⟨entry, hentry, by omega⟩
  · intro foundPaths' hfound' path hpath
    obtain rfl := Option.some.inj (hfound.symm.trans hfound')
    by_contra hnot
    exact hlisted (List.any_eq_true.mpr ⟨path, hpath, by simpa using hnot⟩)

end Shinran
