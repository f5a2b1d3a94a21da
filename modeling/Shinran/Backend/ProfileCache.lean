/-
  Shinran.Backend.ProfileCache
  ────────────────────────────
  **THE CACHE OF THE ACTIVE PROFILE** (`shinran_backend::profile_cache`).

  The matches that a profile sees are filed under their triggers, the global
  variables under their names.  The order of the files decides only where
  files dispute a key:

    • `createProfileCache_eq`       — the maps, from the files in some order,
    • `agreeUndisputed_cacheOf`     — two orders of the same files,
    • `createProfileCache_perm`     — two orders of a profile's match files,
    • `load_createProfileCache`     — two loads of the same files,
    • `lookups_agree_undisputed`    — both of these.
-/
import Shinran.Config.MatchStoreCorrect

namespace Shinran

open DepthFirst

variable {ε : Type*}

/-! ## §1. The cache. -/

/-- `ProfileCache`; the regex matcher is given by the matches it is built from. -/
structure ProfileCache where
  triggerMap : HashMap String TriggerMatch
  globalVarMap : HashMap String Variable
  regexMatches : List RegexMatch

/-- The loop over the trigger matches. -/
def insertTriggerMatches (triggerMap : HashMap String TriggerMatch)
    (triggerMatches : List TriggerMatch) : HashMap String TriggerMatch :=
  triggerMatches.foldl (fun map m =>
    m.triggers.foldl (fun map trigger => map.insert trigger m) map) triggerMap

/-- The loop over the global variables. -/
def insertGlobalVars (globalVarMap : HashMap String Variable) (globalVars : List Variable) :
    HashMap String Variable :=
  globalVars.foldl (fun map var => map.insert var.name var) globalVarMap

/-- The maps of a collection. -/
def MatchesAndGlobalVars.toCache (collection : MatchesAndGlobalVars) : ProfileCache where
  triggerMap := insertTriggerMatches ∅ collection.triggerMatches
  globalVarMap := insertGlobalVars ∅ collection.globalVars
  regexMatches := collection.regexMatches

/-- `create_profile_cache`. -/
def createProfileCache (profile : ProfileFile) (matchStore : MatchStore) (fuel : Nat) :
    Option (Except Panic ProfileCache) :=
  (matchStore.collectMatchesAndGlobalVars fuel profile.matchFilePaths).map fun result =>
    result.map MatchesAndGlobalVars.toCache

inductive MatchRef where
  | trigger (m : TriggerMatch)
  | regex (m : RegexMatch)
  | builtIn (id : Int32)
  deriving Repr

structure DetectedMatch where
  id : MatchRef
  trigger : String
  leftSeparator : Option String := none
  rightSeparator : Option String := none
  args : HashMap String String := ∅

/-- `BuiltInMatch`, without what it shows and does. -/
structure BuiltInMatch where
  id : Int32
  triggers : List String := []
  deriving Repr

structure CombinedMatchCache where
  userMatchCache : ProfileCache
  builtinMatchCache : HashMap Int32 BuiltInMatch

/-- `CombinedMatchCache::load`. -/
def CombinedMatchCache.load (matchCache : ProfileCache) (builtinMatches : List BuiltInMatch) :
    CombinedMatchCache where
  userMatchCache := matchCache
  builtinMatchCache := HashMap.insertAll (·.id) ∅ builtinMatches

/-- `CombinedMatchCache::find_matches_from_trigger`. -/
def CombinedMatchCache.findMatchesFromTrigger (cache : CombinedMatchCache) (trigger : String) :
    List DetectedMatch :=
  let detected := fun m => { id := .trigger m, trigger := trigger : DetectedMatch }
  let userMatches := (cache.userMatchCache.triggerMap.lookup trigger).map detected
  let userMatches :=
    if userMatches.isNone then
      -- a match only if it propagates the case, which the rendering checks
      (cache.userMatchCache.triggerMap.lookup (toAsciiLowercase trigger)).map detected
    else userMatches
  let builtinMatches := cache.builtinMatchCache.values.filterMap fun m =>
    if m.triggers.any (· == trigger) then
      some { id := .builtIn m.id, trigger := trigger : DetectedMatch }
    else none
  userMatches.toList ++ builtinMatches

/-! ## §2. The cache of several files. -/

/-- What a file files under its triggers. -/
def MatchFile.triggerEntries (file : MatchFile) : List (String × TriggerMatch) :=
  file.triggerMatches.flatMap fun m => m.triggers.map fun trigger => (trigger, m)

/-- What a file files under the names of global variables. -/
def MatchFile.globalVarEntries (file : MatchFile) : List (String × Variable) :=
  file.globalVars.map fun var => (var.name, var)

theorem insertTriggerMatches_eq (triggerMap : HashMap String TriggerMatch)
    (triggerMatches : List TriggerMatch) :
    insertTriggerMatches triggerMap triggerMatches
      = triggerMap.insertEntries
        (triggerMatches.flatMap fun m => m.triggers.map fun trigger => (trigger, m)) := by
  unfold insertTriggerMatches HashMap.insertEntries
  rw [List.foldl_flatMap]
  simp only [List.foldl_map]

theorem insertGlobalVars_eq (globalVarMap : HashMap String Variable)
    (globalVars : List Variable) :
    insertGlobalVars globalVarMap globalVars
      = globalVarMap.insertEntries (globalVars.map fun var => (var.name, var)) := by
  unfold insertGlobalVars HashMap.insertEntries
  rw [List.foldl_map]

/-- The cache that files build, one after another. -/
def cacheOf (files : List MatchFile) : ProfileCache := (collectContents files).toCache

/-- **The last file wins**: a trigger is looked up among the entries of the files. -/
theorem lookup_triggerMap_cacheOf (files : List MatchFile) (trigger : String) :
    (cacheOf files).triggerMap.lookup trigger
      = lastEntry (files.flatMap MatchFile.triggerEntries) trigger := by
  show (insertTriggerMatches ∅ (files.flatMap (·.triggerMatches))).lookup trigger = _
  rw [insertTriggerMatches_eq, HashMap.lookup_insertEntries, List.flatMap_assoc,
    AList.lookup_empty, Option.or_none]
  rfl

theorem lookup_globalVarMap_cacheOf (files : List MatchFile) (name : String) :
    (cacheOf files).globalVarMap.lookup name
      = lastEntry (files.flatMap MatchFile.globalVarEntries) name := by
  show (insertGlobalVars ∅ (files.flatMap (·.globalVars))).lookup name = _
  rw [insertGlobalVars_eq, HashMap.lookup_insertEntries, List.map_flatMap,
    AList.lookup_empty, Option.or_none]
  rfl

/-! ## §3. The order of the files. -/

/-- The two caches define the same triggers and variables, and they may differ in a trigger
or a variable only where two of the files dispute it. -/
structure AgreeUndisputed (files : MatchFile → Prop) (cache cache' : ProfileCache) : Prop where
  triggers_isSome : ∀ trigger, (cache.triggerMap.lookup trigger).isSome
    = (cache'.triggerMap.lookup trigger).isSome
  triggers : ∀ trigger, ¬ Disputed MatchFile.triggerEntries files trigger →
    cache.triggerMap.lookup trigger = cache'.triggerMap.lookup trigger
  globalVars_isSome : ∀ name, (cache.globalVarMap.lookup name).isSome
    = (cache'.globalVarMap.lookup name).isSome
  globalVars : ∀ name, ¬ Disputed MatchFile.globalVarEntries files name →
    cache.globalVarMap.lookup name = cache'.globalVarMap.lookup name

/-- **Two orders of the same files.** -/
theorem agreeUndisputed_cacheOf {contents contents' : List MatchFile} {files : MatchFile → Prop}
    (h : ∀ file, file ∈ contents ↔ files file) (h' : ∀ file, file ∈ contents' ↔ files file) :
    AgreeUndisputed files (cacheOf contents) (cacheOf contents') := by
  -- only which files there are matters, by the lemmas on the last entry
  obtain rfl : (· ∈ contents) = files := funext fun file => propext (h file)
  have hmem : ∀ file, file ∈ contents ↔ file ∈ contents' := fun file => (h' file).symm
  constructor
  · intro trigger
    rw [lookup_triggerMap_cacheOf, lookup_triggerMap_cacheOf]
    exact lastEntry_flatMap_isSome_eq hmem
  · intro trigger hagree
    rw [lookup_triggerMap_cacheOf, lookup_triggerMap_cacheOf]
    exact lastEntry_flatMap_eq hmem hagree
  · intro name
    rw [lookup_globalVarMap_cacheOf, lookup_globalVarMap_cacheOf]
    exact lastEntry_flatMap_isSome_eq hmem
  · intro name hagree
    rw [lookup_globalVarMap_cacheOf, lookup_globalVarMap_cacheOf]
    exact lastEntry_flatMap_eq hmem hagree

/-- A trigger is found alike, if neither it nor its lowercase form is disputed. -/
theorem AgreeUndisputed.findMatchesFromTrigger {files : MatchFile → Prop}
    {cache cache' : ProfileCache} (h : AgreeUndisputed files cache cache')
    (builtinMatches : List BuiltInMatch) {trigger : String}
    (htrigger : ¬ Disputed MatchFile.triggerEntries files trigger)
    (hlowercase : ¬ Disputed MatchFile.triggerEntries files (toAsciiLowercase trigger)) :
    (CombinedMatchCache.load cache builtinMatches).findMatchesFromTrigger trigger
      = (CombinedMatchCache.load cache' builtinMatches).findMatchesFromTrigger trigger := by
  unfold CombinedMatchCache.findMatchesFromTrigger CombinedMatchCache.load
  dsimp only
  rw [h.triggers trigger htrigger, h.triggers _ hlowercase]

/-- The files that a profile reaches in the store. -/
def ReachableFile (store : MatchStore) (profile : ProfileFile) (file : MatchFile) : Prop :=
  ∃ root ∈ profile.matchFilePaths, ∃ ref, Reaches store.indexedFiles.importGraph root ref
    ∧ store.indexedFiles.contentAt ref = file

/-- Every file that a walk from the slots of the profile visits is one that it reaches. -/
theorem mem_contents_iff {store : MatchStore} {profile : ProfileFile}
    (h : store.indexedFiles.InBounds profile.matchFilePaths) {refs : List MatchFileRef}
    (hrefs : Preorder store.indexedFiles.importGraph profile.matchFilePaths [] refs)
    (file : MatchFile) :
    file ∈ refs.map store.indexedFiles.contentAt ↔ ReachableFile store profile file := by
  rw [List.mem_map]
  constructor
  · intro hfile
    obtain ⟨ref, href, rfl⟩ := hfile
    obtain ⟨_, root, hroot, hreach⟩ := ((preorder_spec hrefs).2 ref).mp href
    exact ⟨root, hroot, ref, hreach, rfl⟩
  · intro hfile
    obtain ⟨root, hroot, ref, hreach, rfl⟩ := hfile
    have hslot := h root hroot ref hreach
    exact ⟨ref, ((preorder_spec hrefs).2 ref).mpr ⟨hslot, root, hroot, hreach⟩, rfl⟩

/-- **The cache of a profile** is built from the files that it reaches, in some order. -/
theorem createProfileCache_eq {store : MatchStore} {profile : ProfileFile}
    (h : store.indexedFiles.InBounds profile.matchFilePaths) {fuel : Nat}
    (hfuel : store.indexedFiles.files.length < fuel) :
    ∃ contents, createProfileCache profile store fuel = some (.ok (cacheOf contents))
      ∧ ∀ file, file ∈ contents ↔ ReachableFile store profile file := by
  -- the query visits the files in pre-order
  obtain ⟨refs, hrefs, hcollect⟩ := MatchStore.collect_preorder hfuel h
  refine ⟨_, ?_, mem_contents_iff h hrefs⟩
  simp [createProfileCache, hcollect, Except.map, cacheOf]

/-- There is no cache where the profile leads out of bounds. -/
theorem createProfileCache_panics {store : MatchStore} {profile : ProfileFile}
    (h : ¬ store.indexedFiles.InBounds profile.matchFilePaths) {fuel : Nat}
    (hfuel : store.indexedFiles.files.length < fuel) :
    ∃ panic, createProfileCache profile store fuel = some (.error panic) := by
  obtain ⟨panic, hcollect⟩ := MatchStore.collect_panics hfuel h
  exact ⟨panic, by simp [createProfileCache, hcollect, Except.map]⟩

theorem FileStore.InBounds.perm {store : FileStore ResolvedMatchFile}
    {refs refs' : List MatchFileRef} (hperm : refs'.Perm refs) :
    store.InBounds refs' ↔ store.InBounds refs := by
  unfold FileStore.InBounds
  simp only [hperm.mem_iff]

/-- The same profile, with its match files in another order. -/
theorem ReachableFile.perm {store : MatchStore} {profile : ProfileFile}
    {paths : List MatchFileRef} (hperm : paths.Perm profile.matchFilePaths) (file : MatchFile) :
    ReachableFile store { profile with matchFilePaths := paths } file
      ↔ ReachableFile store profile file := by
  unfold ReachableFile
  simp only [hperm.mem_iff]

/-- Two profiles, each in its store, build caches that agree on what the files of the first
one do not dispute, and find the same matches for every undisputed trigger that is typed. -/
def SameLookups (fuel : Nat) (store : MatchStore) (profile : ProfileFile)
    (store' : MatchStore) (profile' : ProfileFile) : Prop :=
  ∃ cache cache', createProfileCache profile store fuel = some (.ok cache)
    ∧ createProfileCache profile' store' fuel = some (.ok cache')
    ∧ AgreeUndisputed (ReachableFile store profile) cache cache'
    ∧ ∀ builtinMatches trigger,
      ¬ Disputed MatchFile.triggerEntries (ReachableFile store profile) trigger →
      ¬ Disputed MatchFile.triggerEntries (ReachableFile store profile)
          (toAsciiLowercase trigger) →
        (CombinedMatchCache.load cache builtinMatches).findMatchesFromTrigger trigger
          = (CombinedMatchCache.load cache' builtinMatches).findMatchesFromTrigger trigger

/-- Profiles that reach the same files. -/
theorem sameLookups_of_reachable {store store' : MatchStore} {profile profile' : ProfileFile}
    (h : store.indexedFiles.InBounds profile.matchFilePaths)
    (h' : store'.indexedFiles.InBounds profile'.matchFilePaths) {fuel : Nat}
    (hfuel : store.indexedFiles.files.length < fuel)
    (hfuel' : store'.indexedFiles.files.length < fuel)
    (hfiles : ∀ file, ReachableFile store' profile' file ↔ ReachableFile store profile file) :
    SameLookups fuel store profile store' profile' := by
  obtain ⟨contents, hcache, hcontents⟩ := createProfileCache_eq h hfuel
  obtain ⟨contents', hcache', hcontents'⟩ := createProfileCache_eq h' hfuel'
  have hagree : AgreeUndisputed (ReachableFile store profile) (cacheOf contents)
      (cacheOf contents') :=
    agreeUndisputed_cacheOf hcontents fun file => (hcontents' file).trans (hfiles file)
  exact ⟨_, _, hcache, hcache', hagree, fun builtinMatches _ htrigger hlowercase =>
    hagree.findMatchesFromTrigger builtinMatches htrigger hlowercase⟩

/-- **Two orders of a profile's match files.** -/
theorem createProfileCache_perm {store : MatchStore} {profile : ProfileFile}
    (h : store.indexedFiles.InBounds profile.matchFilePaths) {fuel : Nat}
    (hfuel : store.indexedFiles.files.length < fuel) {paths : List MatchFileRef}
    (hperm : paths.Perm profile.matchFilePaths) :
    SameLookups fuel store profile store { profile with matchFilePaths := paths } :=
  sameLookups_of_reachable h ((FileStore.InBounds.perm hperm).mpr h) hfuel hfuel
    (ReachableFile.perm hperm)

/-! ## §4. The order throughout a load. -/

/-- The same profile, its match files enumerated in another order. -/
structure Reordered (loaded loaded' : LoadedProfileFile) : Prop where
  content : loaded'.content = loaded.content
  sourcePath : loaded'.sourcePath = loaded.sourcePath
  filter : loaded'.filter = loaded.filter
  matchFilePaths : loaded'.matchFilePaths.Perm loaded.matchFilePaths

variable {loader : MatchLoader ε}

/-- The files that a profile reaches in the store are those that its paths reach. -/
theorem MatchStore.Indexes.reachableFile_iff {store : MatchStore}
    {fileMap : HashMap PathBuf MatchFileRef} {paths : List PathBuf}
    (h : store.Indexes loader fileMap paths) {loaded : LoadedProfileFile}
    (hloaded : ∀ path, (loader.importGraph path).isSome ∧
      (∃ root ∈ loaded.matchFilePaths, Reaches loader.importGraph root path) → path ∈ paths)
    (file : MatchFile) :
    ReachableFile store (.fromLoadedProfile loaded fileMap) file
      ↔ ∃ path, (loader.importGraph path).isSome
          ∧ (∃ root ∈ loaded.matchFilePaths, Reaches loader.importGraph root path)
          ∧ loader.contentOf path = file := by
  obtain ⟨visited, hvisited⟩ := loader.exists_preorder loaded.matchFilePaths
  obtain ⟨_, hmem⟩ := preorder_spec hvisited
  have hpaths : ∀ path ∈ visited, path ∈ paths := fun path hpath =>
    hloaded path ((hmem path).mp hpath)
  rw [← mem_contents_iff (h.inBounds _) (h.preorder hvisited hpaths), h.map_contentAt visited hpaths,
    List.mem_map]
  simp only [hmem, and_assoc]

/-- **Two loads of the same files**, however the hash sets of paths are iterated. -/
theorem load_createProfileCache {fuel : Nat} (hfuel : loader.files.length < fuel)
    (order order' : PathOrder) {profileStore profileStore' : LoadedProfileStore}
    (hsame : List.Forall₂ Reordered profileStore.profiles profileStore'.profiles)
    (nonFatalConfigErrors : List (NonFatalErrorSet ε)) :
    ∃ profiles store errors profiles' store' errors',
      load loader order fuel profileStore nonFatalConfigErrors
          = some (profiles, store, errors)
        ∧ load loader order' fuel profileStore' nonFatalConfigErrors
          = some (profiles', store', errors')
        ∧ List.Forall₂ (fun profile profile' =>
            SameLookups fuel store profile store' profile')
          profiles.profiles profiles'.profiles := by
  obtain ⟨store, fileMap, errors, paths, hload, hindexes, hpaths⟩ :=
    load_indexes hfuel order profileStore nonFatalConfigErrors
  obtain ⟨store', fileMap', errors', paths', hload', hindexes', hpaths'⟩ :=
    load_indexes hfuel order' profileStore' nonFatalConfigErrors
  refine ⟨_, store, errors, _, store', errors', hload, hload', ?_⟩
  rw [ProfileStore.resolvePaths_profiles, ProfileStore.resolvePaths_profiles,
    List.forall₂_map_left_iff, List.forall₂_map_right_iff]
  refine List.forall₂_iff_zip.mpr ⟨hsame.length_eq, ?_⟩
  intro loaded loaded' hzip
  obtain ⟨hmem, hmem'⟩ := List.of_mem_zip hzip
  have hreordered := List.forall₂_zip hsame hzip
  refine sameLookups_of_reachable (hindexes.inBounds _) (hindexes'.inBounds _)
    (Nat.lt_of_le_of_lt hindexes.length_le hfuel)
    (Nat.lt_of_le_of_lt hindexes'.length_le hfuel) fun file => ?_
  -- the stores number their files differently, the paths are the same
  rw [hindexes'.reachableFile_iff fun path h => (hpaths' path).mpr ⟨h.1, loaded', hmem', h.2⟩,
    hindexes.reachableFile_iff fun path h => (hpaths path).mpr ⟨h.1, loaded, hmem, h.2⟩]
  simp only [hreordered.matchFilePaths.mem_iff]

/-- **Order decides only what files dispute.**  In any store, two orders of a profile's match
files build maps in which the same match is found for a trigger and the same variable for a name,
except where two files that the profile reaches define it differently, or both lead out of
bounds; and so do two loads of the same files.  Regex matches are no part of it: they stay in the
order of the files. -/
theorem lookups_agree_undisputed :
    (∀ (store : MatchStore) (profile : ProfileFile) (paths : List MatchFileRef) (fuel : Nat),
      store.indexedFiles.files.length < fuel → paths.Perm profile.matchFilePaths →
        (store.indexedFiles.InBounds profile.matchFilePaths →
          SameLookups fuel store profile store { profile with matchFilePaths := paths })
        ∧ (¬ store.indexedFiles.InBounds profile.matchFilePaths → ∃ panic panic',
          createProfileCache profile store fuel = some (.error panic)
            ∧ createProfileCache { profile with matchFilePaths := paths } store fuel
              = some (.error panic')))
    ∧ ∀ (loader : MatchLoader ε) (order order' : PathOrder) (fuel : Nat)
        (profileStore profileStore' : LoadedProfileStore)
        (nonFatalConfigErrors : List (NonFatalErrorSet ε)),
      loader.files.length < fuel →
      List.Forall₂ Reordered profileStore.profiles profileStore'.profiles →
        ∃ profiles store errors profiles' store' errors',
          load loader order fuel profileStore nonFatalConfigErrors
              = some (profiles, store, errors)
            ∧ load loader order' fuel profileStore' nonFatalConfigErrors
              = some (profiles', store', errors')
            ∧ List.Forall₂ (fun profile profile' =>
                SameLookups fuel store profile store' profile')
              profiles.profiles profiles'.profiles := by
  constructor
  · intro store profile paths fuel hfuel hperm
    refine ⟨fun hbounds => createProfileCache_perm hbounds hfuel hperm, ?_⟩
    intro hbounds
    obtain ⟨panic, hpanic⟩ := createProfileCache_panics hbounds hfuel
    have hbounds' : ¬ store.indexedFiles.InBounds paths :=
      fun h => hbounds ((FileStore.InBounds.perm hperm).mp h)
    obtain ⟨panic', hpanic'⟩ := @createProfileCache_panics _
      { profile with matchFilePaths := paths } hbounds' _ hfuel
    exact ⟨panic, panic', hpanic, hpanic'⟩
  · intro loader order order' fuel profileStore profileStore' errors hfuel hsame
    exact load_createProfileCache hfuel order order' hsame errors

/-- Two files that define the same trigger and the same global variable. -/
def disputedStore : MatchStore where
  indexedFiles := ⟨[
    { content :=
        { globalVars := [{ name := "greeting", varType := .echo }]
          triggerMatches :=
            [{ baseMatch := { effect := .text { body := "hello" } }, triggers := [":hi"] }] }
      sourcePath := "a.yml" },
    { content :=
        { globalVars := [{ name := "greeting", varType := .shell }]
          triggerMatches :=
            [{ baseMatch := { effect := .text { body := "goodbye" } }, triggers := [":hi"] }] }
      sourcePath := "b.yml" }]⟩

theorem disputedStore_inBounds : disputedStore.indexedFiles.InBounds [⟨0⟩, ⟨1⟩] := by
  intro root hroot ref hreach
  refine hreach.mem_of_closed
    (p := fun ref => (disputedStore.indexedFiles.importGraph ref).isSome) ?_ ?_
  · simp only [List.mem_cons, List.not_mem_nil, or_false] at hroot
    obtain rfl | rfl := hroot <;> rfl
  · -- neither file imports anything
    intro x y _ hedge
    obtain ⟨imports, hnode, hy⟩ := hedge
    obtain ⟨file, hfile, rfl⟩ := Option.map_eq_some_iff.mp hnode
    have hmem : file ∈ disputedStore.indexedFiles.files := List.mem_of_getElem? hfile
    have himports : ∀ file ∈ disputedStore.indexedFiles.files, file.imports = [] := by
      simp [disputedStore]
    simp [himports file hmem] at hy

/-- The trigger and the variable that both files define are looked up in the last file. -/
theorem order_decides_disputed :
    disputedStore.indexedFiles.InBounds [⟨0⟩, ⟨1⟩]
      ∧ [⟨1⟩, ⟨0⟩].Perm [(⟨0⟩ : MatchFileRef), ⟨1⟩]
      ∧ ∃ cache cache',
        createProfileCache { sourcePath := "default.yml", matchFilePaths := [⟨0⟩, ⟨1⟩] }
            disputedStore 3 = some (.ok cache)
          ∧ createProfileCache { sourcePath := "default.yml", matchFilePaths := [⟨1⟩, ⟨0⟩] }
            disputedStore 3 = some (.ok cache')
          ∧ cache.triggerMap.lookup ":hi" ≠ cache'.triggerMap.lookup ":hi"
          ∧ cache.globalVarMap.lookup "greeting" ≠ cache'.globalVarMap.lookup "greeting" := by
  refine ⟨disputedStore_inBounds, .swap _ _ _, _, _, rfl, rfl, ?_, ?_⟩
  · intro h
    have hbase : some (MatchEffect.text { body := "goodbye" })
        = some (MatchEffect.text { body := "hello" }) :=
      congrArg (Option.map fun m : TriggerMatch => m.baseMatch.effect) h
    simp at hbase
  · intro h
    have htype : some VarType.shell = some VarType.echo :=
      congrArg (Option.map Variable.varType) h
    simp at htype

theorem lookups_agree_disputedStore :
    SameLookups 3 disputedStore
        { sourcePath := "default.yml", matchFilePaths := [⟨0⟩, ⟨1⟩] } disputedStore
        { sourcePath := "default.yml", matchFilePaths := [⟨1⟩, ⟨0⟩] }
      ∧ ∃ profiles store errors profiles' store' errors',
        load mutualImports .canonical 3
            ⟨{ sourcePath := "default.yml", matchFilePaths := ["a.yml", "b.yml"] }, []⟩ []
          = some (profiles, store, errors)
        ∧ load mutualImports .canonical 3
            ⟨{ sourcePath := "default.yml", matchFilePaths := ["b.yml", "a.yml"] }, []⟩ []
          = some (profiles', store', errors')
        ∧ List.Forall₂ (fun profile profile' => SameLookups 3 store profile store' profile')
          profiles.profiles profiles'.profiles :=
  ⟨((@lookups_agree_undisputed String).1 disputedStore
      { sourcePath := "default.yml", matchFilePaths := [⟨0⟩, ⟨1⟩] } _ 3 (by decide)
      (.swap _ _ _)).1 disputedStore_inBounds,
    lookups_agree_undisputed.2 mutualImports .canonical .canonical 3 _ _ [] (by decide)
      (.cons ⟨rfl, rfl, rfl, .swap _ _ _⟩ .nil)⟩

end Shinran
