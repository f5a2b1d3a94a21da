/-
  Shinran.Config.Load
  ───────────────────
  **LOADING A CONFIGURATION FROM ITS FILES** (`shinran_config`).

  The profiles are the files of the config directory; their globs select the
  match files, from which imports lead to others.

    • `loadMatchFile`              — one match file, its imports resolved,
    • `generateMatchPaths`         — what the globs of a profile select,
    • `LoadedProfileFile.loadFromPath`, `LoadedProfileStore.load` — profiles,
    • `loadFromFiles`              — `shinran_config::load`.

  What the code takes from libraries is a parameter (`Libraries`): parsing a
  text, compiling a regular expression, matching a path against a glob, and
  the canonical form of a path.
-/
import Shinran.Config.FileSystem
import Shinran.Config.MatchStoreCorrect

namespace Shinran

variable {ε : Type}

/-! ## §1. Libraries and errors. -/

/-- The contents of a match file, its imports as they are written there. -/
structure ParsedMatchFile (ε : Type) where
  imports : List String := []
  content : MatchFile := {}
  errors : List (ErrorRecord ε) := []

structure Libraries (ε : Type) where
  /-- `YAMLConfig::parse_from_str`, and the conversion into a `ParsedConfig`. -/
  parseConfig : String → Except ε ParsedConfig
  /-- `YAMLMatchFile::parse_from_str`, and the conversion of its variables and matches. -/
  parseMatchFile : String → Except ε (ParsedMatchFile ε)
  /-- `Regex::new`. -/
  compileRegex : String → Except ε Unit
  /-- Whether `glob` selects an existing path. -/
  globMatches : String → PathBuf → Bool
  /-- What `dunce::canonicalize` makes of a path that exists. -/
  canonical : String → PathBuf

inductive LoadError (ε : Type) where
  | missingConfigDir
  | invalidConfigDir
  | missingDefault
  | parentResolveFailed
  | missingExtension
  | invalidFormat
  | resolveFailed (path : PathBuf)
  | unableToCanonicalize (path : PathBuf)
  | unableToResolve (path : PathBuf)
  | io
  | library (error : ε)

/-- The error of a library, as an error of the load. -/
def Except.fromLibrary {α : Type} : Except ε α → Except (LoadError ε) α :=
  Except.mapError .library

/-! ## §2. Match files. -/

section MatchFiles

variable (libs : Libraries ε) (fs : FileSystem)

/-- `dunce::canonicalize`. -/
def canonicalize (path : PathBuf) : Option PathBuf :=
  if fs.exists_ (libs.canonical path) then some (libs.canonical path) else none

/-- An import, in the body of the loop of `resolve_paths`. -/
def resolveImport (currentDir : PathBuf) (path : String) :
    Except (ErrorRecord (LoadError ε)) PathBuf :=
  let fullPath := PathBuf.join currentDir path
  match canonicalize libs fs fullPath with
  | some canonicalPath =>
      if fs.exists_ canonicalPath && fs.isFile canonicalPath then .ok canonicalPath
      else .error ⟨.error, .unableToResolve canonicalPath⟩
  | none => .error ⟨.error, .unableToCanonicalize fullPath⟩

/-- `resolve_paths`. -/
def resolvePaths (matchFilePath : PathBuf) (paths : List String) :
    Except (LoadError ε) (List PathBuf × List (ErrorRecord (LoadError ε))) :=
  -- an import is relative to the directory of the file that it is in
  let currentDir? := if fs.isFile matchFilePath then PathBuf.parent matchFilePath
    else some matchFilePath
  match currentDir? with
  | none => .error (.resolveFailed matchFilePath)
  | some currentDir => .ok
      (paths.filterMap fun path => (resolveImport libs fs currentDir path).toOption,
        paths.filterMap fun path =>
          match resolveImport libs fs currentDir path with
          | .ok _ => none
          | .error record => some record)

/-- `YAMLImporter::load_file`. -/
def loadFile (path : PathBuf) :
    Except (LoadError ε) (LoadedMatchFile × Option (NonFatalErrorSet (LoadError ε))) := do
  let content ← (fs.readToString path).elim (.error .io) .ok
  let parsed ← Except.fromLibrary (libs.parseMatchFile content)
  let (importPaths, importErrors) ← resolvePaths libs fs path parsed.imports
  -- what cannot be resolved is reported, and the file loads without it
  let nonFatalErrors :=
    parsed.errors.map (fun record => ⟨record.level, .library record.error⟩) ++ importErrors
  .ok (⟨importPaths, parsed.content, path⟩,
    if nonFatalErrors.isEmpty then none else some ⟨path, nonFatalErrors⟩)

/-- `load_match_file`. -/
def loadMatchFile (path : PathBuf) :
    Except (LoadError ε) (LoadedMatchFile × Option (NonFatalErrorSet (LoadError ε))) :=
  match PathBuf.extension path with
  | none => .error .missingExtension
  | some extension =>
      if !isSupported extension then .error .invalidFormat else loadFile libs fs path

variable {libs fs}

/-- An import leads to the file that exists under its canonical path. -/
theorem resolveImport_toOption_eq_some {currentDir path : PathBuf} {importPath : PathBuf} :
    (resolveImport libs fs currentDir path).toOption = some importPath
      ↔ libs.canonical (PathBuf.join currentDir path) = importPath ∧ fs.isFile importPath := by
  unfold resolveImport canonicalize
  dsimp only
  generalize libs.canonical (PathBuf.join currentDir path) = canonicalPath
  cases hfile : fs.isFile canonicalPath with
  | true =>
      have hexists : fs.exists_ canonicalPath := by simp [FileSystem.exists_, hfile]
      constructor
      · intro h
        obtain rfl : canonicalPath = importPath := by
          simpa [hexists, hfile, Except.toOption] using h
        exact ⟨rfl, hfile⟩
      · intro h
        obtain ⟨rfl, _⟩ := h
        simp [hexists, hfile, Except.toOption]
  | false =>
      -- what exists without being a file is refused as well
      constructor
      · intro h
        cases hexists : fs.exists_ canonicalPath <;>
          simp [hexists, hfile, Except.toOption] at h
      · intro h
        obtain ⟨rfl, h⟩ := h
        simp [hfile] at h

/-- **What a match file loads to.** -/
theorem loadMatchFile_ok_iff {path : PathBuf} {group : LoadedMatchFile} :
    (∃ errors, loadMatchFile libs fs path = .ok (group, errors))
      ↔ PathBuf.isSupported path ∧ ∃ entry parsed dir, fs.files.lookup path = some entry
          ∧ libs.parseMatchFile entry.content = .ok parsed
          ∧ PathBuf.parent path = some dir
          ∧ group = ⟨parsed.imports.filterMap fun import_ =>
              (resolveImport libs fs dir import_).toOption, parsed.content, path⟩ := by
  -- along the steps of `load_file`, each of which may fail
  unfold loadMatchFile PathBuf.isSupported
  cases hext : PathBuf.extension path with
  | none => simp
  | some extension =>
      by_cases hsupported : isSupported extension
      · simp only [hsupported, Bool.not_true, Bool.false_eq_true, if_false, Option.any_some,
          true_and]
        unfold loadFile FileSystem.readToString
        cases hentry : fs.files.lookup path with
        | none => simp [bind, Except.bind]
        | some entry =>
            cases hparse : libs.parseMatchFile entry.content with
            | error err => simp [bind, Except.bind, hparse, Except.fromLibrary, Except.mapError]
            | ok parsed =>
                have hfile : fs.isFile path := by simp [FileSystem.isFile, hentry]
                cases hdir : PathBuf.parent path with
                | none =>
                    simp [bind, Except.bind, hparse, Except.fromLibrary, Except.mapError,
                      resolvePaths, hfile, hdir]
                | some dir =>
                    simp [bind, Except.bind, hparse, Except.fromLibrary, Except.mapError,
                      resolvePaths, hfile, hdir, @eq_comm _ _ group]
      · simp [hsupported]

end MatchFiles

/-! ## §3. Profiles. -/

/-- `STANDARD_INCLUDES`. -/
def standardIncludes : List String := ["../match/**/[!_]*.yml"]

/-- `aggregate_includes`. -/
def aggregateIncludes (config : ParsedConfig) : List String :=
  -- the standard includes unless they are switched off
  ((if config.useStandardIncludes.all id then standardIncludes else [])
    ++ config.includes.getD [] ++ config.extraIncludes.getD []).dedup

/-- `aggregate_excludes`. -/
def aggregateExcludes (config : ParsedConfig) : List String :=
  (config.excludes.getD [] ++ config.extraExcludes.getD []).dedup

/-- `ABSOLUTE_PATH`: some line starts with a slash, or with a drive letter. -/
def isAbsolutePattern (pattern : String) : Bool :=
  -- the pattern is compiled in multi-line mode, so `^` also follows a line break
  (pattern.toList.splitOn '\n').any fun line =>
    match line with
    | '/' :: _ => true
    | drive :: ':' :: '\\' :: _ => drive.isAlpha
    | _ => false

section Profiles

variable (libs : Libraries ε) (fs : FileSystem)

/-- `calculate_paths`. -/
def calculatePaths (baseDir : PathBuf) (globPatterns : List String) : List PathBuf :=
  (globPatterns.flatMap fun globPattern =>
    let pattern := if isAbsolutePattern globPattern then globPattern
      else baseDir ++ "/" ++ globPattern
    fs.paths.filter (libs.globMatches pattern)).dedup

/-- `generate_match_paths`. -/
def generateMatchPaths (config : ParsedConfig) (sourcePath : PathBuf) : Option (List PathBuf) :=
  (PathBuf.parent sourcePath).map fun baseDir =>
    let excludePaths := calculatePaths libs fs baseDir (aggregateExcludes config)
    let includePaths := calculatePaths libs fs baseDir (aggregateIncludes config)
    includePaths.filter (· ∉ excludePaths)

/-- The filter regexes, compiled. -/
def compileFilters (config : ParsedConfig) : Except ε Filters := do
  let compile : Option String → Except ε Unit := fun regex =>
    regex.elim (.ok ()) libs.compileRegex
  compile config.filterTitle
  compile config.filterClass
  compile config.filterExec
  .ok ⟨config.filterTitle, config.filterClass, config.filterExec⟩

/-- `ParsedConfig::load`. -/
def ParsedConfig.load (sourcePath : PathBuf) : Except (LoadError ε) ParsedConfig := do
  let content ← (fs.readToString sourcePath).elim (.error .io) .ok
  Except.fromLibrary (libs.parseConfig content)

/-- `LoadedProfileFile::load_from_path`. -/
def LoadedProfileFile.loadFromPath (order : PathOrder) (sourcePath : PathBuf)
    (parent : Option LoadedProfileFile) : Except (LoadError ε) LoadedProfileFile := do
  let config ← ParsedConfig.load libs fs sourcePath
  -- a custom profile takes over what it leaves open from the default profile
  let config := parent.elim config fun parent => inherit config parent.content
  let matchPaths ← (generateMatchPaths libs fs config sourcePath).elim
    (.error .parentResolveFailed) .ok
  let filter ← Except.fromLibrary (compileFilters libs config)
  .ok ⟨config, sourcePath, order.iter matchPaths, filter⟩

/-- The files of the config directory that become custom profiles. -/
def customFiles (order : PathOrder) (configDir : PathBuf) : List PathBuf :=
  (order.iter ((fs.readDir configDir).getD [])).filter fun configFile =>
    PathBuf.isSupported configFile && fs.isFile configFile
      && configFile ≠ PathBuf.join configDir "default.yml"

/-- `LoadedProfileStore::load`. -/
def LoadedProfileStore.load (order : PathOrder) (configDir : PathBuf) :
    Except (LoadError ε) (LoadedProfileStore × List (NonFatalErrorSet (LoadError ε))) :=
  let defaultFile := PathBuf.join configDir "default.yml"
  if !fs.isDir configDir then .error .invalidConfigDir
  else if !fs.exists_ defaultFile || !fs.isFile defaultFile then .error .missingDefault
  else do
    let defaultProfile ← LoadedProfileFile.loadFromPath libs fs order defaultFile none
    -- additional config files are loaded best-effort
    let loadCustom := fun configFile =>
      LoadedProfileFile.loadFromPath libs fs order configFile (some defaultProfile)
    let configFiles := customFiles fs order configDir
    .ok (⟨defaultProfile, configFiles.filterMap fun configFile =>
        (loadCustom configFile).toOption⟩,
      configFiles.filterMap fun configFile =>
        match loadCustom configFile with
        | .ok _ => none
        | .error err => some (.singleError configFile err))

end Profiles

/-! ## §4. What a profile depends on. -/

section ProfileSpec

variable {libs : Libraries ε} {fs fs' : FileSystem}

theorem nodup_customFiles {order : PathOrder} {configDir : PathBuf} :
    (customFiles fs order configDir).Nodup := by
  unfold customFiles FileSystem.readDir FileSystem.paths
  refine List.Nodup.filter _ ((order.perm _).nodup_iff.mpr ?_)
  split
  · exact (List.nodup_dedup _).filter _
  · exact List.nodup_nil

/-- The pattern is one that selects the path, from the directory. -/
def SelectedBy (libs : Libraries ε) (baseDir : PathBuf) (globPatterns : List String)
    (path : PathBuf) : Prop :=
  ∃ globPattern ∈ globPatterns, libs.globMatches
    (if isAbsolutePattern globPattern then globPattern else baseDir ++ "/" ++ globPattern) path

theorem mem_calculatePaths {baseDir : PathBuf} {globPatterns : List String} {path : PathBuf} :
    path ∈ calculatePaths libs fs baseDir globPatterns
      ↔ fs.exists_ path ∧ SelectedBy libs baseDir globPatterns path := by
  unfold calculatePaths SelectedBy
  simp only [List.mem_dedup, List.mem_flatMap, List.mem_filter, FileSystem.mem_paths]
  constructor
  · intro h
    obtain ⟨globPattern, hpattern, hexists, hmatch⟩ := h
    exact ⟨hexists, globPattern, hpattern, hmatch⟩
  · intro h
    obtain ⟨hexists, globPattern, hpattern, hmatch⟩ := h
    exact ⟨globPattern, hpattern, hexists, hmatch⟩

/-- **The match files of a profile**: the existing paths that its globs select, a condition
on the configuration and the path alone. -/
theorem mem_generateMatchPaths {config : ParsedConfig} {sourcePath : PathBuf}
    {matchPaths : List PathBuf} (h : generateMatchPaths libs fs config sourcePath
      = some matchPaths) (path : PathBuf) :
    path ∈ matchPaths ↔ fs.exists_ path ∧ ∃ baseDir, PathBuf.parent sourcePath = some baseDir
      ∧ SelectedBy libs baseDir (aggregateIncludes config) path
      ∧ ¬ SelectedBy libs baseDir (aggregateExcludes config) path := by
  obtain ⟨baseDir, hparent, rfl⟩ := Option.map_eq_some_iff.mp h
  simp only [List.mem_filter, mem_calculatePaths, decide_eq_true_eq, hparent,
    Option.some.injEq, exists_eq_left']
  tauto

theorem nodup_of_generateMatchPaths {config : ParsedConfig} {sourcePath : PathBuf}
    {matchPaths : List PathBuf} (h : generateMatchPaths libs fs config sourcePath
      = some matchPaths) : matchPaths.Nodup := by
  obtain ⟨baseDir, _, rfl⟩ := Option.map_eq_some_iff.mp h
  exact (List.nodup_dedup _).filter _

theorem generateMatchPaths_isSome {config : ParsedConfig} {sourcePath : PathBuf} :
    (generateMatchPaths libs fs config sourcePath).isSome
      = (PathBuf.parent sourcePath).isSome := by
  unfold generateMatchPaths
  exact Option.isSome_map

/-- The configuration and the filters of a profile file are in its contents. -/
def Describes (libs : Libraries ε) (entry : FileEntry) (parent : Option ParsedConfig)
    (profile : LoadedProfileFile) : Prop :=
  ∃ config, libs.parseConfig entry.content = .ok config
    ∧ profile.content = parent.elim config (inherit config)
    ∧ compileFilters libs profile.content = .ok profile.filter

/-- **What a profile loads to.** -/
theorem loadFromPath_ok_iff {order : PathOrder} {sourcePath : PathBuf}
    {parent : Option LoadedProfileFile} {profile : LoadedProfileFile} :
    LoadedProfileFile.loadFromPath libs fs order sourcePath parent = .ok profile
      ↔ ∃ entry matchPaths, fs.files.lookup sourcePath = some entry
          ∧ Describes libs entry (parent.map (·.content)) profile
          ∧ profile.sourcePath = sourcePath
          ∧ generateMatchPaths libs fs profile.content sourcePath = some matchPaths
          ∧ profile.matchFilePaths = order.iter matchPaths := by
  -- inheriting reads nothing of the parent but its content
  have hconfig : ∀ config, parent.elim config (fun parent => inherit config parent.content)
      = (parent.map (·.content)).elim config (inherit config) := by
    intro config
    cases parent <;> rfl
  unfold LoadedProfileFile.loadFromPath ParsedConfig.load FileSystem.readToString Describes
  simp only [bind, Except.bind, hconfig]
  constructor
  · intro h
    cases hentry : fs.files.lookup sourcePath with
    | none => simp [hentry] at h
    | some entry =>
        cases hparse : libs.parseConfig entry.content with
        | error err => simp [hentry, hparse, Except.fromLibrary, Except.mapError] at h
        | ok config =>
            simp only [hentry, Option.map_some, Option.elim_some, hparse, Except.fromLibrary,
              Except.mapError] at h
            generalize hcontent : (parent.map (·.content)).elim config (inherit config)
              = content at h
            cases hpaths : generateMatchPaths libs fs content sourcePath with
            | none => simp [hpaths] at h
            | some matchPaths =>
                cases hfilter : compileFilters libs content with
                | error err => simp [hpaths, hfilter] at h
                | ok filter =>
                    simp only [hpaths, hfilter, Option.elim_some, Except.ok.injEq] at h
                    subst h
                    exact ⟨entry, matchPaths, rfl, ⟨config, hparse, hcontent.symm, hfilter⟩,
                      rfl, hpaths, rfl⟩
  · intro h
    obtain ⟨entry, matchPaths, hentry, ⟨config, hparse, hcontent, hfilter⟩, hsource, hpaths,
      hmatchFilePaths⟩ := h
    rw [hcontent] at hfilter hpaths
    simp only [hentry, Option.map_some, Option.elim_some, hparse, Except.fromLibrary,
      Except.mapError, hpaths, hfilter]
    rw [← hcontent, ← hsource, ← hmatchFilePaths]

/-- **A profile file that is unchanged** loads to the same profile, up to the match files that
its globs select. -/
theorem loadFromPath_of_unchanged {order : PathOrder} (order' : PathOrder) {sourcePath : PathBuf}
    {parent parent' : Option LoadedProfileFile} {profile : LoadedProfileFile}
    (hsame : fs'.files.lookup sourcePath = fs.files.lookup sourcePath)
    (hparent : parent'.map (·.content) = parent.map (·.content))
    (h : LoadedProfileFile.loadFromPath libs fs order sourcePath parent = .ok profile) :
    ∃ matchPaths, generateMatchPaths libs fs' profile.content sourcePath = some matchPaths
      ∧ LoadedProfileFile.loadFromPath libs fs' order' sourcePath parent'
        = .ok { profile with matchFilePaths := order'.iter matchPaths } := by
  obtain ⟨entry, matchPaths, hentry, hdescribes, hsource, hpaths, _⟩ :=
    loadFromPath_ok_iff.mp h
  -- whether the globs can be expanded depends on the path alone
  have hsome : (generateMatchPaths libs fs profile.content sourcePath).isSome := by
    rw [hpaths]
    rfl
  have hsome' : (generateMatchPaths libs fs' profile.content sourcePath).isSome := by
    rw [generateMatchPaths_isSome] at hsome ⊢
    exact hsome
  obtain ⟨matchPaths', hpaths'⟩ := Option.isSome_iff_exists.mp hsome'
  refine ⟨matchPaths', hpaths', loadFromPath_ok_iff.mpr ⟨entry, matchPaths',
    hsame.trans hentry, ?_, hsource, hpaths', rfl⟩⟩
  rw [hparent]
  exact hdescribes

end ProfileSpec

/-! ## §5. The whole load. -/

section Load

variable (libs : Libraries ε) (fs : FileSystem)

/-- What reading a file system gives the loader of match files. -/
def matchLoader : MatchLoader (LoadError ε) where
  loadMatchFile := loadMatchFile libs fs
  -- a file that loads remembers its path, and it is one of those there are
  sourcePath := by
    intro path group errors h
    obtain ⟨_, _, _, _, _, _, _, rfl⟩ := loadMatchFile_ok_iff.mp ⟨errors, h⟩
    rfl
  files := fs.files.keys
  mem_files := by
    intro path group errors h
    obtain ⟨_, entry, _, _, hentry, _⟩ := loadMatchFile_ok_iff.mp ⟨errors, h⟩
    rw [← AList.mem_keys, ← AList.lookup_isSome, hentry]
    rfl

/-- `load` of `shinran_config`; no import chain is longer than there are files. -/
def loadFromFiles (order : PathOrder) (basePath : PathBuf) :
    Option (Except (LoadError ε)
      (ProfileStore × MatchStore × List (NonFatalErrorSet (LoadError ε)))) :=
  let configDir := PathBuf.join basePath "config"
  if !fs.exists_ configDir || !fs.isDir configDir then some (.error .missingConfigDir)
  else
    match LoadedProfileStore.load libs fs order configDir with
    | .error err => some (.error err)
    | .ok (profileStore, nonFatalConfigErrors) =>
        (load (matchLoader libs fs) order (fs.files.keys.length + 1) profileStore
          nonFatalConfigErrors).map .ok

/-- `all_config_files`. -/
def allConfigFiles (configDir : PathBuf) : Option (List PathBuf) :=
  (fs.readDir configDir).map fun entries =>
    entries.filter fun path => PathBuf.isSupported path && fs.isFile path

variable {libs fs}

/-- The profiles are those of the config directory. -/
structure LoadedProfileStore.LoadedFrom (libs : Libraries ε) (fs : FileSystem)
    (order : PathOrder) (configDir : PathBuf) (store : LoadedProfileStore) : Prop where
  isDir : fs.isDir configDir
  defaultProfile : LoadedProfileFile.loadFromPath libs fs order
    (PathBuf.join configDir "default.yml") none = .ok store.defaultProfile
  customProfiles : store.customProfiles = (customFiles fs order configDir).filterMap
    fun configFile => (LoadedProfileFile.loadFromPath libs fs order configFile
      (some store.defaultProfile)).toOption

theorem LoadedProfileStore.load_ok_iff {order : PathOrder} {configDir : PathBuf}
    {store : LoadedProfileStore} :
    (∃ errors, LoadedProfileStore.load libs fs order configDir = .ok (store, errors))
      ↔ store.LoadedFrom libs fs order configDir := by
  unfold LoadedProfileStore.load
  dsimp only
  constructor
  · intro h
    obtain ⟨errors, h⟩ := h
    split at h
    · cases h
    · rename_i hdir
      split at h
      · cases h
      · cases hdefault : LoadedProfileFile.loadFromPath libs fs order
            (PathBuf.join configDir "default.yml") none with
        | error err => simp [bind, Except.bind, hdefault] at h
        | ok defaultProfile =>
            simp only [bind, Except.bind, hdefault, Except.ok.injEq, Prod.mk.injEq] at h
            obtain ⟨rfl, _⟩ := h
            exact ⟨by simpa using hdir, hdefault, rfl⟩
  · intro h
    -- a default profile that loads is a file, so both checks before it pass
    obtain ⟨entry, _, hentry, _⟩ := loadFromPath_ok_iff.mp h.defaultProfile
    have hfile : fs.isFile (PathBuf.join configDir "default.yml") := by
      simp [FileSystem.isFile, hentry]
    have hexists : fs.exists_ (PathBuf.join configDir "default.yml") := by
      simp [FileSystem.exists_, hfile]
    simp only [h.isDir, hfile, hexists, Bool.not_true, Bool.or_self, Bool.false_eq_true,
      if_false, bind, Except.bind, h.defaultProfile, ← h.customProfiles]
    exact ⟨_, rfl⟩

/-- What a load returns: the resolved profiles, and a store of the files that they reach. -/
structure LoadResult (libs : Libraries ε) (fs : FileSystem) (order : PathOrder)
    (configDir : PathBuf) (profileStore : ProfileStore) (matchStore : MatchStore)
    (loaded : LoadedProfileStore) (fileMap : HashMap PathBuf MatchFileRef)
    (paths : List PathBuf) : Prop where
  loadedFrom : loaded.LoadedFrom libs fs order configDir
  resolved : profileStore = .resolvePaths loaded fileMap
  indexes : matchStore.Indexes (matchLoader libs fs) fileMap paths
  mem_paths : ∀ path, path ∈ paths ↔ ((matchLoader libs fs).importGraph path).isSome
    ∧ ∃ profile ∈ loaded.profiles, ∃ root ∈ profile.matchFilePaths,
      DepthFirst.Reaches (matchLoader libs fs).importGraph root path

/-- **The load returns** as soon as the default profile loads. -/
theorem loadFromFiles_eq {order : PathOrder} {basePath : PathBuf} {loaded : LoadedProfileStore}
    (h : loaded.LoadedFrom libs fs order (PathBuf.join basePath "config")) :
    ∃ profileStore matchStore errors fileMap paths,
      loadFromFiles libs fs order basePath = some (.ok (profileStore, matchStore, errors))
        ∧ LoadResult libs fs order (PathBuf.join basePath "config") profileStore matchStore
          loaded fileMap paths := by
  obtain ⟨configErrors, hload⟩ := LoadedProfileStore.load_ok_iff.mpr h
  obtain ⟨matchStore, fileMap, errors, paths, hmatches, hindexes, hpaths⟩ :=
    @load_indexes _ (matchLoader libs fs) _ (Nat.lt_succ_self _) order loaded configErrors
  refine ⟨_, matchStore, errors, fileMap, paths, ?_, h, rfl, hindexes, hpaths⟩
  have hexists : fs.exists_ (PathBuf.join basePath "config") := by
    simp [FileSystem.exists_, h.isDir]
  have hmatches' : load (matchLoader libs fs) order (fs.files.keys.length + 1) loaded
      configErrors = _ := hmatches
  unfold loadFromFiles
  simp only [hexists, h.isDir, Bool.not_true, Bool.or_self, Bool.false_eq_true, if_false,
    hload, hmatches', Option.map_some]

theorem exists_of_loadFromFiles {order : PathOrder} {basePath : PathBuf}
    {profileStore : ProfileStore} {matchStore : MatchStore}
    {errors : List (NonFatalErrorSet (LoadError ε))}
    (h : loadFromFiles libs fs order basePath
      = some (.ok (profileStore, matchStore, errors))) :
    ∃ loaded fileMap paths, LoadResult libs fs order (PathBuf.join basePath "config")
      profileStore matchStore loaded fileMap paths := by
  have hload : ∃ loaded configErrors, LoadedProfileStore.load libs fs order
      (PathBuf.join basePath "config") = .ok (loaded, configErrors) := by
    unfold loadFromFiles at h
    dsimp only at h
    split at h
    · cases h
    · split at h
      · cases h
      · rename_i loaded configErrors hload
        exact ⟨loaded, configErrors, hload⟩
  obtain ⟨loaded, configErrors, hload⟩ := hload
  obtain ⟨_, _, _, fileMap, paths, heq, hresult⟩ :=
    loadFromFiles_eq (LoadedProfileStore.load_ok_iff.mp ⟨configErrors, hload⟩)
  obtain ⟨rfl, rfl, _⟩ := by simpa using h.symm.trans heq
  exact ⟨loaded, fileMap, paths, hresult⟩

end Load

end Shinran
