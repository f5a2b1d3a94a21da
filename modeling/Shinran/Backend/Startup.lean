/-
  Shinran.Backend.Startup
  ───────────────────────
  **LOADING WHILE THE FILES CHANGE.**

  The load of a configuration, as the sequence of its questions to the file
  system.  Each is answered by the files of its own moment, and others may
  edit them in between.

    • `Startup.loadConfig`      — the load, question by question,
    • `Startup.eval_loadConfig` — with all questions answered at one moment it
                                  is `loadConfig`.
-/
import Shinran.Backend.Cache
import Shinran.Inquiry

namespace Shinran

open Inquiry

variable {ε : Type}

/-! ## §1. Questions. -/

/-- What a load asks of the file system. -/
inductive FsQuestion where
  | exists_ (path : PathBuf)
  | isDir (path : PathBuf)
  | isFile (path : PathBuf)
  | readToString (path : PathBuf)
  | readDir (path : PathBuf)
  /-- The paths that a walk through the directories finds. -/
  | walk
  deriving DecidableEq, Repr

/-- The type of the answers to a question. -/
def FsQuestion.Answer : FsQuestion → Type
  | .exists_ _ | .isDir _ | .isFile _ => Bool
  | .readToString _ => Option String
  | .readDir _ => Option (List PathBuf)
  | .walk => List PathBuf

/-- The answers of a file system. -/
def FileSystem.answer (fs : FileSystem) : ∀ question : FsQuestion, question.Answer
  | .exists_ path => fs.exists_ path
  | .isDir path => fs.isDir path
  | .isFile path => fs.isFile path
  | .readToString path => fs.readToString path
  | .readDir path => fs.readDir path
  | .walk => fs.paths

/-- A part of the load. -/
abbrev Startup (α : Type) := Program FsQuestion FsQuestion.Answer α

/-- A part of the load that may fail. -/
abbrev FallibleStartup (ε α : Type) := ExceptT (LoadError ε) (Program FsQuestion FsQuestion.Answer) α

namespace Startup

/-- `Path::exists`. -/
def exists_ (path : PathBuf) : Startup Bool := Program.question (FsQuestion.exists_ path)

/-- `Path::is_dir`. -/
def isDir (path : PathBuf) : Startup Bool := Program.question (FsQuestion.isDir path)

/-- `Path::is_file`. -/
def isFile (path : PathBuf) : Startup Bool := Program.question (FsQuestion.isFile path)

/-- `std::fs::read_to_string`. -/
def readToString (path : PathBuf) : Startup (Option String) := Program.question (FsQuestion.readToString path)

/-- `std::fs::read_dir`. -/
def readDir (dir : PathBuf) : Startup (Option (List PathBuf)) := Program.question (FsQuestion.readDir dir)

/-- The walk of `glob` through the directories. -/
def walk : Startup (List PathBuf) := Program.question FsQuestion.walk

/-- `path.exists() && check`, which only checks what exists. -/
def existsAnd (path : PathBuf) (check : Startup Bool) : Startup Bool := do
  let found ← exists_ path
  if found then check else pure false

/-- A result of which the file system is not asked. -/
def lift {α : Type} (result : Except (LoadError ε) α) : FallibleStartup ε α :=
  ExceptT.mk (pure result)

/-! ## §2. Match files. -/

section MatchFiles

variable (libs : Libraries ε)

/-- `dunce::canonicalize`. -/
def canonicalize (path : PathBuf) : Startup (Option PathBuf) := do
  let found ← exists_ (libs.canonical path)
  pure (if found then some (libs.canonical path) else none)

/-- An import, in the body of the loop of `resolve_paths`. -/
def resolveImport (currentDir : PathBuf) (path : String) :
    Startup (Except (ErrorRecord (LoadError ε)) PathBuf) := do
  let fullPath := PathBuf.join currentDir path
  match ← canonicalize libs fullPath with
  | none => pure (.error ⟨.error, .unableToCanonicalize fullPath⟩)
  | some canonicalPath =>
      let regular ← existsAnd canonicalPath (isFile canonicalPath)
      pure (if regular then .ok canonicalPath
        else .error ⟨.error, .unableToResolve canonicalPath⟩)

/-- `resolve_paths`. -/
def resolvePaths (matchFilePath : PathBuf) (paths : List String) :
    FallibleStartup ε (List PathBuf × List (ErrorRecord (LoadError ε))) := do
  let regular ← isFile matchFilePath
  let currentDir ← lift ((if regular then PathBuf.parent matchFilePath
    else some matchFilePath).elim (.error (.resolveFailed matchFilePath)) .ok)
  let resolved ← (paths.mapM (resolveImport libs currentDir) : Startup _)
  pure (resolved.filterMap fun result => result.toOption,
    resolved.filterMap fun result =>
      match result with
      | .ok _ => none
      | .error record => some record)

/-- `YAMLImporter::load_file`. -/
def loadFile (path : PathBuf) :
    FallibleStartup ε (LoadedMatchFile × Option (NonFatalErrorSet (LoadError ε))) := do
  let text ← readToString path
  let content ← lift (text.elim (.error .io) .ok)
  let parsed ← lift (Except.fromLibrary (libs.parseMatchFile content))
  let (importPaths, importErrors) ← resolvePaths libs path parsed.imports
  let nonFatalErrors :=
    parsed.errors.map (fun record => ⟨record.level, .library record.error⟩) ++ importErrors
  pure (⟨importPaths, parsed.content, path⟩,
    if nonFatalErrors.isEmpty then none else some ⟨path, nonFatalErrors⟩)

/-- `load_match_file`. -/
def loadMatchFile (path : PathBuf) :
    FallibleStartup ε (LoadedMatchFile × Option (NonFatalErrorSet (LoadError ε))) :=
  match PathBuf.extension path with
  | none => lift (.error .missingExtension)
  | some extension =>
      if !isSupported extension then lift (.error .invalidFormat) else loadFile libs path

/-- The loop over the paths; `recurse` loads the imports of a file. -/
def loadEach
    (recurse : List PathBuf → LoadState (LoadError ε) → Startup (Option (LoadState (LoadError ε)))) :
    List PathBuf → LoadState (LoadError ε) → Startup (Option (LoadState (LoadError ε)))
  | [], st => pure (some st)
  | path :: paths, st =>
      if (st.matchFileMap.lookup path).isSome then loadEach recurse paths st
      else do
        match ← (loadMatchFile libs path).run with
        | .ok (group, errors) =>
            match ← recurse group.importPaths (st.add path group errors) with
            | none => pure none
            | some st' => loadEach recurse paths st'
        | .error err =>
            loadEach recurse paths { st with
              nonFatalErrorSets := st.nonFatalErrorSets ++ [.singleError path err] }

/-- `load_match_files_recursively`. -/
def loadMatchFilesRecursively :
    Nat → List PathBuf → LoadState (LoadError ε) → Startup (Option (LoadState (LoadError ε)))
  | 0, _, _ => pure none
  | fuel + 1, paths, st => loadEach libs (loadMatchFilesRecursively fuel) paths st

/-- `MatchStore::load`. -/
def loadMatchStore (fuel : Nat) (rootPaths : List PathBuf) :
    Startup (Option (MatchStore × HashMap PathBuf MatchFileRef
      × List (NonFatalErrorSet (LoadError ε)))) := do
  let result ← loadMatchFilesRecursively libs fuel rootPaths {}
  pure (result.map fun st =>
    (⟨st.loadedFiles.resolve st.matchFileMap⟩, st.matchFileMap, st.nonFatalErrorSets))

end MatchFiles

/-! ## §3. Profiles, and the whole load. -/

section Profiles

variable (libs : Libraries ε)

/-- `calculate_paths`. -/
def calculatePaths (baseDir : PathBuf) (globPatterns : List String) : Startup (List PathBuf) := do
  let found ← globPatterns.mapM fun globPattern => do
    let pattern := if isAbsolutePattern globPattern then globPattern
      else baseDir ++ "/" ++ globPattern
    let paths ← walk
    pure (paths.filter (libs.globMatches pattern))
  pure found.flatten.dedup

/-- `generate_match_paths`. -/
def generateMatchPaths (config : ParsedConfig) (sourcePath : PathBuf) :
    Startup (Option (List PathBuf)) :=
  match PathBuf.parent sourcePath with
  | none => pure none
  | some baseDir => do
      let excludePaths ← calculatePaths libs baseDir (aggregateExcludes config)
      let includePaths ← calculatePaths libs baseDir (aggregateIncludes config)
      pure (some (includePaths.filter (· ∉ excludePaths)))

/-- `LoadedProfileFile::load_from_path`. -/
def loadFromPath (order : PathOrder) (sourcePath : PathBuf)
    (parent : Option LoadedProfileFile) : FallibleStartup ε LoadedProfileFile := do
  let text ← readToString sourcePath
  let content ← lift (text.elim (.error .io) .ok)
  let config ← lift (Except.fromLibrary (libs.parseConfig content))
  let config := parent.elim config fun parent => inherit config parent.content
  let generated ← generateMatchPaths libs config sourcePath
  let matchPaths ← lift (generated.elim (.error .parentResolveFailed) .ok)
  let filter ← lift (Except.fromLibrary (compileFilters libs config))
  pure ⟨config, sourcePath, order.iter matchPaths, filter⟩

/-- The body of the loop over the config directory in `LoadedProfileStore::load`. -/
def loadCustom (order : PathOrder) (configDir : PathBuf) (defaultProfile : LoadedProfileFile)
    (configFile : PathBuf) :
    Startup (Option (Except (NonFatalErrorSet (LoadError ε)) LoadedProfileFile)) := do
  if (PathBuf.extension configFile).isNone then return none
  let regular ← isFile configFile
  if regular && configFile ≠ PathBuf.join configDir "default.yml"
      && PathBuf.isSupported configFile then
    let result ← (loadFromPath libs order configFile (some defaultProfile)).run
    return some (result.mapError (.singleError configFile))
  else return none

/-- `LoadedProfileStore::load`. -/
def loadProfileStore (order : PathOrder) (configDir : PathBuf) :
    FallibleStartup ε (LoadedProfileStore × List (NonFatalErrorSet (LoadError ε))) := do
  let defaultFile := PathBuf.join configDir "default.yml"
  let directory ← isDir configDir
  lift (if directory then .ok () else .error .invalidConfigDir)
  let regular ← existsAnd defaultFile (isFile defaultFile)
  lift (if regular then .ok () else .error .missingDefault)
  let defaultProfile ← loadFromPath libs order defaultFile none
  let entries ← readDir configDir
  let configFiles ← lift (entries.elim (.error .io) .ok)
  let results ← ((order.iter configFiles).mapM
    (loadCustom libs order configDir defaultProfile) : Startup _)
  pure (⟨defaultProfile, results.filterMap fun result => result.bind Except.toOption⟩,
    results.filterMap fun result =>
      match result with
      | some (.error errors) => some errors
      | _ => none)

/-- `load` of `shinran_config`. -/
def loadFromFiles (order : PathOrder) (fuel : Nat) (basePath : PathBuf) :
    Startup (Option (Except (LoadError ε)
      (ProfileStore × MatchStore × List (NonFatalErrorSet (LoadError ε))))) := do
  let configDir := PathBuf.join basePath "config"
  let directory ← existsAnd configDir (isDir configDir)
  if !directory then return some (.error .missingConfigDir)
  match ← (loadProfileStore libs order configDir).run with
  | .error err => return some (.error err)
  | .ok (profileStore, nonFatalConfigErrors) =>
      let result ← loadMatchStore libs fuel (profileStore.getAllMatchFilePaths order)
      return result.map fun (matchStore, fileMap, nonFatalMatchErrors) =>
        .ok (.resolvePaths profileStore fileMap, matchStore,
          nonFatalConfigErrors ++ nonFatalMatchErrors)

/-- `load_config`. -/
def loadConfig (order : PathOrder) (fuel : Nat) (basePath : PathBuf) :
    Startup (Option (Except (LoadError ε) Configuration)) := do
  let result ← loadFromFiles libs order fuel basePath
  pure (result.map fun result =>
    result.map fun (profileStore, matchStore, _) => ⟨profileStore, matchStore⟩)

end Profiles

/-! ## §4. A load at one moment. -/

section Eval

variable {libs : Libraries ε} {fs : FileSystem}

@[simp] theorem eval_exists (path : PathBuf) :
    (exists_ path).eval fs.answer = fs.exists_ path := rfl

@[simp] theorem eval_isDir (path : PathBuf) : (isDir path).eval fs.answer = fs.isDir path := rfl

@[simp] theorem eval_isFile (path : PathBuf) : (isFile path).eval fs.answer = fs.isFile path := rfl

@[simp] theorem eval_readToString (path : PathBuf) :
    (readToString path).eval fs.answer = fs.readToString path := rfl

@[simp] theorem eval_readDir (dir : PathBuf) : (readDir dir).eval fs.answer = fs.readDir dir := rfl

@[simp] theorem eval_walk : walk.eval fs.answer = fs.paths := rfl

@[simp] theorem eval_lift {α : Type} (result : Except (LoadError ε) α) :
    (lift result).run.eval fs.answer = result := rfl

@[simp] theorem eval_run_pure {α : Type} (a : α) :
    (pure a : FallibleStartup ε α).run.eval fs.answer = .ok a := rfl

@[simp] theorem eval_run_liftM {α : Type} (p : Startup α) :
    (liftM p : FallibleStartup ε α).run.eval fs.answer = .ok (p.eval fs.answer) := by
  show (Except.ok <$> p).eval fs.answer = _
  rw [Program.eval_map]

@[simp] theorem eval_existsAnd (path : PathBuf) (check : Startup Bool) :
    (existsAnd path check).eval fs.answer = (fs.exists_ path && check.eval fs.answer) := by
  unfold existsAnd
  rw [Program.eval_bind, eval_exists]
  cases fs.exists_ path <;> rfl

theorem eval_canonicalize (path : PathBuf) :
    (canonicalize libs path).eval fs.answer = Shinran.canonicalize libs fs path := rfl

theorem eval_resolveImport (currentDir : PathBuf) (path : String) :
    (resolveImport libs currentDir path).eval fs.answer
      = Shinran.resolveImport libs fs currentDir path := by
  unfold resolveImport Shinran.resolveImport
  dsimp only
  rw [Program.eval_bind, eval_canonicalize]
  cases Shinran.canonicalize libs fs (PathBuf.join currentDir path) with
  | none => rfl
  | some canonicalPath =>
      simp only [Program.eval_bind, eval_existsAnd, eval_isFile, Program.eval_pure]

theorem eval_resolvePaths (matchFilePath : PathBuf) (paths : List String) :
    (resolvePaths libs matchFilePath paths).run.eval fs.answer
      = Shinran.resolvePaths libs fs matchFilePath paths := by
  unfold resolvePaths Shinran.resolvePaths
  simp only [Program.eval_run_bind, eval_run_liftM, eval_isFile, eval_lift, Program.eval_mapM,
    eval_resolveImport, eval_run_pure, ok_bind]
  generalize (if fs.isFile matchFilePath = true then PathBuf.parent matchFilePath
    else some matchFilePath) = currentDir?
  cases currentDir? with
  | none => rfl
  | some currentDir =>
      simp only [Option.elim_some, ok_bind, List.filterMap_map]
      rfl

theorem eval_loadFile (path : PathBuf) :
    (loadFile libs path).run.eval fs.answer = Shinran.loadFile libs fs path := by
  unfold loadFile Shinran.loadFile
  simp only [Program.eval_run_bind, eval_run_liftM, eval_readToString, eval_lift,
    eval_resolvePaths, eval_run_pure, ok_bind]

theorem eval_loadMatchFile (path : PathBuf) :
    (loadMatchFile libs path).run.eval fs.answer = Shinran.loadMatchFile libs fs path := by
  unfold loadMatchFile Shinran.loadMatchFile
  cases PathBuf.extension path with
  | none => rfl
  | some extension =>
      dsimp only
      cases isSupported extension with
      | false => rfl
      | true => exact eval_loadFile path

theorem eval_loadEach
    {recurse : List PathBuf → LoadState (LoadError ε) → Startup (Option (LoadState (LoadError ε)))}
    {recurse' : List PathBuf → LoadState (LoadError ε) → Option (LoadState (LoadError ε))}
    (hrecurse : ∀ paths st, (recurse paths st).eval fs.answer = recurse' paths st)
    (paths : List PathBuf) (st : LoadState (LoadError ε)) :
    (loadEach libs recurse paths st).eval fs.answer
      = Shinran.loadEach (matchLoader libs fs) recurse' paths st := by
  induction paths generalizing st with
  | nil => rfl
  | cons path paths ih =>
      unfold loadEach Shinran.loadEach
      by_cases hloaded : (st.matchFileMap.lookup path).isSome
      · rw [if_pos hloaded, if_pos hloaded]
        exact ih st
      · rw [if_neg hloaded, if_neg hloaded, Program.eval_bind, eval_loadMatchFile]
        have hload : (matchLoader libs fs).loadMatchFile path
            = Shinran.loadMatchFile libs fs path := rfl
        rw [hload]
        cases Shinran.loadMatchFile libs fs path with
        | error err => exact ih _
        | ok result =>
            obtain ⟨group, errors⟩ := result
            dsimp only
            rw [Program.eval_bind, hrecurse]
            cases recurse' group.importPaths (st.add path group errors) with
            | none => rfl
            | some st' => exact ih st'

theorem eval_loadMatchFilesRecursively (fuel : Nat) (paths : List PathBuf)
    (st : LoadState (LoadError ε)) :
    (loadMatchFilesRecursively libs fuel paths st).eval fs.answer
      = Shinran.loadMatchFilesRecursively (matchLoader libs fs) fuel paths st := by
  induction fuel generalizing paths st with
  | zero => rfl
  | succ fuel ih => exact eval_loadEach ih paths st

theorem eval_loadMatchStore (fuel : Nat) (rootPaths : List PathBuf) :
    (loadMatchStore libs fuel rootPaths).eval fs.answer
      = MatchStore.load (matchLoader libs fs) fuel rootPaths := by
  unfold loadMatchStore MatchStore.load
  rw [Program.eval_bind, eval_loadMatchFilesRecursively, Program.eval_pure]

theorem eval_calculatePaths (baseDir : PathBuf) (globPatterns : List String) :
    (calculatePaths libs baseDir globPatterns).eval fs.answer
      = Shinran.calculatePaths libs fs baseDir globPatterns := by
  unfold calculatePaths Shinran.calculatePaths
  simp only [Program.eval_bind, Program.eval_mapM, eval_walk, Program.eval_pure, List.flatMap_def]

theorem eval_generateMatchPaths (config : ParsedConfig) (sourcePath : PathBuf) :
    (generateMatchPaths libs config sourcePath).eval fs.answer
      = Shinran.generateMatchPaths libs fs config sourcePath := by
  unfold generateMatchPaths Shinran.generateMatchPaths
  cases PathBuf.parent sourcePath with
  | none => rfl
  | some baseDir =>
      simp only [Program.eval_bind, eval_calculatePaths, Program.eval_pure, Option.map_some]

theorem eval_loadFromPath (order : PathOrder) (sourcePath : PathBuf)
    (parent : Option LoadedProfileFile) :
    (loadFromPath libs order sourcePath parent).run.eval fs.answer
      = LoadedProfileFile.loadFromPath libs fs order sourcePath parent := by
  unfold loadFromPath LoadedProfileFile.loadFromPath ParsedConfig.load
  simp only [Program.eval_run_bind, eval_run_liftM, eval_readToString, eval_lift,
    eval_generateMatchPaths, eval_run_pure, ok_bind]
  cases fs.readToString sourcePath with
  | none => rfl
  | some content => rfl

theorem eval_loadCustom (order : PathOrder) (configDir : PathBuf)
    (defaultProfile : LoadedProfileFile) (configFile : PathBuf) :
    (loadCustom libs order configDir defaultProfile configFile).eval fs.answer
      = if PathBuf.isSupported configFile && fs.isFile configFile
          && configFile ≠ PathBuf.join configDir "default.yml" then
          some ((LoadedProfileFile.loadFromPath libs fs order configFile
            (some defaultProfile)).mapError (.singleError configFile))
        else none := by
  unfold loadCustom
  cases hext : PathBuf.extension configFile with
  | none =>
      have hsupported : PathBuf.isSupported configFile = false := by
        simp [PathBuf.isSupported, hext]
      simp [hsupported]
  | some extension =>
      have hcond : (fs.isFile configFile && configFile ≠ PathBuf.join configDir "default.yml"
            && PathBuf.isSupported configFile)
          = (PathBuf.isSupported configFile && fs.isFile configFile
            && configFile ≠ PathBuf.join configDir "default.yml") := by
        rw [Bool.and_comm, ← Bool.and_assoc]
      rw [Option.isNone_some, if_neg Bool.false_ne_true, Program.eval_bind, eval_isFile, ← hcond]
      split_ifs
      · rw [Program.eval_bind, eval_loadFromPath, Program.eval_pure]
      · rfl

/-- The files that become profiles, and what becomes of them. -/
theorem filterMap_loadCustom {β : Type} {order : PathOrder} {configDir : PathBuf}
    {defaultProfile : LoadedProfileFile} {entries : List PathBuf}
    (hentries : fs.readDir configDir = some entries)
    (f : Option (Except (NonFatalErrorSet (LoadError ε)) LoadedProfileFile) → Option β)
    (hf : f none = none) :
    ((order.iter entries).map fun configFile =>
        (loadCustom libs order configDir defaultProfile configFile).eval fs.answer).filterMap f
      = (customFiles fs order configDir).filterMap fun configFile =>
        f (some ((LoadedProfileFile.loadFromPath libs fs order configFile
          (some defaultProfile)).mapError (.singleError configFile))) := by
  unfold customFiles
  rw [List.filterMap_map, List.filterMap_filter, hentries, Option.getD_some]
  refine List.filterMap_congr fun configFile _ => ?_
  rw [Function.comp_apply, eval_loadCustom]
  split_ifs
  · rfl
  · exact hf

theorem eval_loadProfileStore (order : PathOrder) (configDir : PathBuf) :
    (loadProfileStore libs order configDir).run.eval fs.answer
      = LoadedProfileStore.load libs fs order configDir := by
  unfold loadProfileStore LoadedProfileStore.load
  simp only [Program.eval_run_bind, eval_run_liftM, eval_isDir, eval_existsAnd, eval_isFile,
    eval_lift, eval_loadFromPath, eval_readDir, Program.eval_mapM, eval_run_pure, ok_bind]
  cases hdir : fs.isDir configDir with
  | false => rfl
  | true =>
      have hentries : fs.readDir configDir
          = some (fs.paths.filter fun path => PathBuf.parent path = some configDir) := by
        simp [FileSystem.readDir, hdir]
      cases hexists : fs.exists_ (PathBuf.join configDir "default.yml") with
      | false => rfl
      | true =>
          cases hfile : fs.isFile (PathBuf.join configDir "default.yml") with
          | false => rfl
          | true =>
              simp only [Bool.and_self, Bool.not_true, Bool.or_self, Bool.false_eq_true, if_true,
                if_false, hentries, Option.elim_some, ok_bind]
              cases LoadedProfileFile.loadFromPath libs fs order
                (PathBuf.join configDir "default.yml") none with
              | error err => rfl
              | ok defaultProfile =>
                  simp only [ok_bind]
                  rw [filterMap_loadCustom hentries _ rfl, filterMap_loadCustom hentries _ rfl]
                  refine congrArg Except.ok (congrArg₂ _ (congrArg _ ?_) ?_)
                  · refine List.filterMap_congr fun configFile _ => ?_
                    cases LoadedProfileFile.loadFromPath libs fs order configFile
                      (some defaultProfile) <;> rfl
                  · refine List.filterMap_congr fun configFile _ => ?_
                    cases LoadedProfileFile.loadFromPath libs fs order configFile
                      (some defaultProfile) <;> rfl

theorem eval_loadFromFiles (order : PathOrder) (basePath : PathBuf) :
    (loadFromFiles libs order (fs.files.keys.length + 1) basePath).eval fs.answer
      = Shinran.loadFromFiles libs fs order basePath := by
  unfold loadFromFiles Shinran.loadFromFiles
  rw [Program.eval_bind, eval_existsAnd, eval_isDir]
  dsimp only
  cases hexists : fs.exists_ (PathBuf.join basePath "config") with
  | false => simp only [Bool.false_and, Bool.not_false, Bool.true_or, if_true, Program.eval_pure]
  | true =>
      cases hdir : fs.isDir (PathBuf.join basePath "config") with
      | false =>
          simp only [Bool.and_false, Bool.not_false, Bool.or_true, if_true, Program.eval_pure]
      | true =>
          simp only [Bool.and_self, Bool.not_true, Bool.or_self, Bool.false_eq_true, if_false,
            Program.eval_bind, eval_loadProfileStore]
          cases LoadedProfileStore.load libs fs order (PathBuf.join basePath "config") with
          | error err => rfl
          | ok result =>
              obtain ⟨profileStore, errors⟩ := result
              dsimp only
              rw [Program.eval_bind, eval_loadMatchStore, load, Option.map_map]
              rfl

/-- **The load at one moment** is `load_config` with the files of that moment. -/
theorem eval_loadConfig (order : PathOrder) (basePath : PathBuf) :
    (loadConfig libs order (fs.files.keys.length + 1) basePath).eval fs.answer
      = Shinran.loadConfig libs fs order basePath := by
  unfold loadConfig Shinran.loadConfig
  rw [Program.eval_bind, eval_loadFromFiles, Program.eval_pure]

end Eval

end Startup

end Shinran
