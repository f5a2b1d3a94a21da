/-
  Shinran.Config.MatchStore
  ─────────────────────────
  **LOADING AND QUERYING MATCH FILES** (`shinran_config::matches`).

  Match files import each other.  They are loaded recursively from the root
  paths, each into the next slot of a store; then every import path is
  replaced by the slot of its file, and queries follow slots.

    • `MatchStore.load` — `load_match_files_recursively`, then
                          `FileStore::resolve`,
    • `MatchStore.collectMatchesAndGlobalVars` — `query_matches_for_paths`.

  Reading one file is a parameter (`MatchLoader`).  In both recursions `fuel`
  bounds the depth.
-/
import Shinran.Types

namespace Shinran

/-! ## §1. Match files. -/

/-- A path, compared as a string. -/
abbrev PathBuf := String

structure MatchFile where
  globalVars : List Variable := []
  triggerMatches : List TriggerMatch := []
  regexMatches : List RegexMatch := []
  deriving Repr

structure LoadedMatchFile where
  importPaths : List PathBuf := []
  content : MatchFile := {}
  sourcePath : PathBuf
  deriving Repr

/-- A list that only grows, whose elements are found by their position. -/
structure FileStore (α : Type*) where
  files : List α := []

/-- The position of a file in a `FileStore`. -/
structure MatchFileRef where
  idx : Nat
  deriving DecidableEq, Repr

structure ResolvedMatchFile where
  imports : List MatchFileRef := []
  content : MatchFile := {}
  sourcePath : PathBuf
  deriving Repr

inductive ErrorLevel where
  | error
  | warning
  deriving DecidableEq, Repr

structure ErrorRecord (ε : Type*) where
  level : ErrorLevel
  error : ε

structure NonFatalErrorSet (ε : Type*) where
  file : PathBuf
  errors : List (ErrorRecord ε)

/-- `NonFatalErrorSet::single_error`. -/
def NonFatalErrorSet.singleError {ε : Type*} (file : PathBuf) (error : ε) :
    NonFatalErrorSet ε := ⟨file, [⟨.error, error⟩]⟩

/-- `load_match_file`, with the context that its caller adds to an error: a path fails or
yields a file that remembers the path, and finitely many paths yield one. -/
structure MatchLoader (ε : Type*) where
  loadMatchFile : PathBuf → Except ε (LoadedMatchFile × Option (NonFatalErrorSet ε))
  sourcePath : ∀ path group errors, loadMatchFile path = .ok (group, errors) →
    group.sourcePath = path
  files : List PathBuf
  mem_files : ∀ path group errors, loadMatchFile path = .ok (group, errors) → path ∈ files

variable {ε : Type*}

/-! ## §2. Loading. -/

/-- `FileStore::add`. -/
def FileStore.add {α : Type*} (store : FileStore α) (file : α) : FileStore α × MatchFileRef :=
  (⟨store.files ++ [file]⟩, ⟨store.files.length⟩)

/-- The cells that `load_match_files_recursively` fills. -/
structure LoadState (ε : Type*) where
  loadedFiles : FileStore LoadedMatchFile := {}
  matchFileMap : HashMap PathBuf MatchFileRef := ∅
  nonFatalErrorSets : List (NonFatalErrorSet ε) := []

/-- The state after a file has been loaded. -/
def LoadState.add (st : LoadState ε) (path : PathBuf) (group : LoadedMatchFile)
    (errors : Option (NonFatalErrorSet ε)) : LoadState ε where
  loadedFiles := (st.loadedFiles.add group).1
  matchFileMap := st.matchFileMap.insert path (st.loadedFiles.add group).2
  nonFatalErrorSets := st.nonFatalErrorSets ++ errors.toList

/-- The loop over the paths; `recurse` loads the imports of a file. -/
def loadEach (loader : MatchLoader ε)
    (recurse : List PathBuf → LoadState ε → Option (LoadState ε)) :
    List PathBuf → LoadState ε → Option (LoadState ε)
  | [], st => some st
  | path :: paths, st =>
      -- a file is entered into the map before its imports, so a cycle ends here
      if (st.matchFileMap.lookup path).isSome then loadEach loader recurse paths st
      else
        match loader.loadMatchFile path with
        | .ok (group, errors) =>
            match recurse group.importPaths (st.add path group errors) with
            | none => none
            | some st' => loadEach loader recurse paths st'
        | .error err =>
            loadEach loader recurse paths { st with
              nonFatalErrorSets := st.nonFatalErrorSets ++ [.singleError path err] }

/-- `load_match_files_recursively`. -/
def loadMatchFilesRecursively (loader : MatchLoader ε) :
    Nat → List PathBuf → LoadState ε → Option (LoadState ε)
  -- every level of recursion is one import deeper
  | 0, _, _ => none
  | fuel + 1, paths, st => loadEach loader (loadMatchFilesRecursively loader fuel) paths st

/-- `FileStore::resolve`. -/
def FileStore.resolve (store : FileStore LoadedMatchFile)
    (matchFileMap : HashMap PathBuf MatchFileRef) : FileStore ResolvedMatchFile where
  files := store.files.map fun file =>
    -- imports that did not load are dropped
    { imports := file.importPaths.filterMap fun path => matchFileMap.lookup path
      content := file.content
      sourcePath := file.sourcePath }

structure MatchStore where
  indexedFiles : FileStore ResolvedMatchFile

/-- `MatchStore::load`. -/
def MatchStore.load (loader : MatchLoader ε) (fuel : Nat) (rootPaths : List PathBuf) :
    Option (MatchStore × HashMap PathBuf MatchFileRef × List (NonFatalErrorSet ε)) :=
  (loadMatchFilesRecursively loader fuel rootPaths {}).map fun st =>
    (⟨st.loadedFiles.resolve st.matchFileMap⟩, st.matchFileMap, st.nonFatalErrorSets)

/-! ## §3. Querying. -/

/-- `files[idx]` with an index that is out of bounds. -/
inductive Panic where
  | indexOutOfBounds (idx : Nat)
  deriving DecidableEq, Repr

/-- `FileStore::get`. -/
def FileStore.get {α : Type*} (store : FileStore α) (ref : MatchFileRef) : Except Panic α :=
  match store.files[ref.idx]? with
  | some file => .ok file
  | none => .error (.indexOutOfBounds ref.idx)

/-- The cells that `query_matches_for_paths` fills. -/
structure QueryState where
  visitedPaths : List MatchFileRef := []
  visitedTriggerMatches : List TriggerMatch := []
  visitedRegexMatches : List RegexMatch := []
  visitedGlobalVars : List Variable := []

/-- The state after the contents of a file have been taken over. -/
def QueryState.visit (st : QueryState) (path : MatchFileRef) (content : MatchFile) :
    QueryState where
  visitedPaths := path :: st.visitedPaths
  visitedTriggerMatches := st.visitedTriggerMatches ++ content.triggerMatches
  visitedRegexMatches := st.visitedRegexMatches ++ content.regexMatches
  visitedGlobalVars := st.visitedGlobalVars ++ content.globalVars

/-- The loop over the paths; `recurse` queries the imports of a file. -/
def queryEach (indexedFiles : FileStore ResolvedMatchFile)
    (recurse : List MatchFileRef → QueryState → Option (Except Panic QueryState)) :
    List MatchFileRef → QueryState → Option (Except Panic QueryState)
  | [], st => some (.ok st)
  | path :: paths, st =>
      if path ∈ st.visitedPaths then queryEach indexedFiles recurse paths st
      else
        match indexedFiles.get path with
        | .error panic => some (.error panic)
        | .ok file =>
            match recurse file.imports (st.visit path file.content) with
            | some (.ok st') => queryEach indexedFiles recurse paths st'
            -- out of fuel, or a panic, which ends the query
            | r => r

/-- `query_matches_for_paths`. -/
def queryMatchesForPaths (indexedFiles : FileStore ResolvedMatchFile) :
    Nat → List MatchFileRef → QueryState → Option (Except Panic QueryState)
  | 0, _, _ => none
  | fuel + 1, paths, st =>
      queryEach indexedFiles (queryMatchesForPaths indexedFiles fuel) paths st

structure MatchesAndGlobalVars where
  triggerMatches : List TriggerMatch
  regexMatches : List RegexMatch
  globalVars : List Variable
  deriving Repr

/-- `MatchStore::collect_matches_and_global_vars`. -/
def MatchStore.collectMatchesAndGlobalVars (store : MatchStore) (fuel : Nat)
    (paths : List MatchFileRef) : Option (Except Panic MatchesAndGlobalVars) :=
  (queryMatchesForPaths store.indexedFiles fuel paths {}).map fun result =>
    result.map fun st =>
      ⟨st.visitedTriggerMatches, st.visitedRegexMatches, st.visitedGlobalVars⟩

end Shinran
