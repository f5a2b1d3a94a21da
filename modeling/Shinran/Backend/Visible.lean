/-
  Shinran.Backend.Visible
  ───────────────────────
  **WHAT THE BACKEND KNOWS.**

  The backend is set up for the active profile.  Nothing is known of the app
  that has the focus, so that is the default profile, whatever the custom
  profiles say.  Its match files are those that its globs select, and those
  that are imported from there.

    • `ProfileStore.activeConfig_empty` — the default profile is active,
    • `LoadResult.reachableFile_iff`    — the match files of a profile,
    • `knows_visible`                   — the triggers, the variables and the
                                          regular expressions of the backend
                                          are those of these files.
-/
import Shinran.Backend.Adapter
import Shinran.Backend.CacheHit
import Shinran.Config.ActiveProfile

namespace Shinran

open DepthFirst

variable {ε : Type} {libs : Libraries ε} {fs : FileSystem}

/-! ## §1. The active profile. -/

/-- `Configuration::active_profile`: the properties of the app are all unknown. -/
def Configuration.activeProfile (config : Configuration) (regexIsMatch : String → String → Bool) :
    ProfileFile :=
  config.profileStore.activeConfig regexIsMatch {}

theorem ProfileStore.activeConfig_empty (store : ProfileStore)
    (regexIsMatch : String → String → Bool) :
    store.activeConfig regexIsMatch {} = store.defaultProfile := by
  have hnone : store.customProfiles.find? (fun custom => custom.filter.isMatch regexIsMatch {})
      = none := List.find?_eq_none.mpr fun _ _ => Filters.not_isMatch_empty
  unfold ProfileStore.activeConfig
  rw [hnone]
  rfl

/-! ## §2. The match files of a profile. -/

/-- A match file to which the profile leads, by its globs first and then by imports. -/
def VisibleFile (libs : Libraries ε) (fs : FileSystem) (profile : ProfileFile)
    (file : MatchFile) : Prop :=
  ∃ root path group, profile.Selects libs fs root
    ∧ Reaches (matchLoader libs fs).importGraph root path
    ∧ (matchLoader libs fs).Loads path group ∧ group.content = file

section Reachable

variable {order : PathOrder} {configDir : PathBuf} {config : Configuration}
  {loaded : LoadedProfileStore} {fileMap : HashMap PathBuf MatchFileRef} {paths : List PathBuf}
  (hresult : LoadResult libs fs order configDir config.profileStore config.matchStore loaded
    fileMap paths)
include hresult

/-- **The match files of a profile** are those to which it leads. -/
theorem LoadResult.reachableFile_iff {profile : LoadedProfileFile}
    (hprofile : profile ∈ loaded.profiles) (file : MatchFile) :
    ReachableFile config.matchStore (.fromLoadedProfile profile fileMap) file
      ↔ VisibleFile libs fs (.fromLoadedProfile profile fileMap) file := by
  rw [hresult.indexes.reachableFile_iff fun path h =>
    (hresult.mem_paths path).mpr ⟨h.1, profile, hprofile, h.2⟩]
  unfold VisibleFile
  constructor
  · rintro ⟨path, hnode, ⟨root, hroot, hreach⟩, hcontent⟩
    obtain ⟨group, hloads⟩ := MatchLoader.importGraph_isSome.mp hnode
    exact ⟨root, path, group, (hresult.mem_matchFilePaths hprofile root).mp hroot, hreach, hloads,
      hloads.contentOf_eq.symm.trans hcontent⟩
  · rintro ⟨root, path, group, hselects, hreach, hloads, hcontent⟩
    exact ⟨path, MatchLoader.importGraph_isSome.mpr ⟨group, hloads⟩,
      ⟨root, (hresult.mem_matchFilePaths hprofile root).mpr hselects, hreach⟩,
      hloads.contentOf_eq.trans hcontent⟩

end Reachable

/-! ## §3. What the backend knows. -/

/-- The backend knows what the files define, and nothing else. -/
structure RendererAdapter.Knows (adapter : RendererAdapter) (files : MatchFile → Prop) : Prop where
  trigger_isSome : ∀ trigger, (adapter.triggerMap.lookup trigger).isSome
    ↔ ∃ file m, files file ∧ (trigger, m) ∈ file.triggerEntries
  trigger : ∀ trigger m, adapter.triggerMap.lookup trigger = some m →
    ∃ file, files file ∧ (trigger, m) ∈ file.triggerEntries
  globalVar_isSome : ∀ name, (adapter.context.globalVarsMap.lookup name).isSome
    ↔ ∃ file var, files file ∧ (name, var) ∈ file.globalVarEntries
  globalVar : ∀ name var, adapter.context.globalVarsMap.lookup name = some var →
    ∃ file, files file ∧ (name, var) ∈ file.globalVarEntries
  regexes : ∀ m, m ∈ adapter.combinedCache.userMatchCache.regexMatches
    ↔ ∃ file, files file ∧ m ∈ file.regexMatches

/-- An entry of several sources. -/
theorem lastEntry_flatMap_isSome_iff_mem {β γ : Type} {entries : γ → List (String × β)}
    {sources : List γ} {key : String} :
    (lastEntry (sources.flatMap entries) key).isSome
      ↔ ∃ source b, source ∈ sources ∧ (key, b) ∈ entries source := by
  constructor
  · intro h
    obtain ⟨b, hb⟩ := Option.isSome_iff_exists.mp h
    obtain ⟨source, hsource, hmem⟩ := List.mem_flatMap.mp (mem_of_lastEntry hb)
    exact ⟨source, b, hsource, hmem⟩
  · rintro ⟨source, b, hsource, hmem⟩
    exact lastEntry_isSome_of_mem (List.mem_flatMap.mpr ⟨source, hsource, hmem⟩)

/-- The backend for the contents of some files knows these files. -/
theorem RendererAdapter.knows_ofCollection (runtime : Runtime) (nextId : Int32)
    {contents : List MatchFile} {files : MatchFile → Prop}
    (hcontents : ∀ file, file ∈ contents ↔ files file) :
    (RendererAdapter.ofCollection runtime nextId (collectContents contents)).Knows files := by
  have htriggers : ∀ trigger,
      (ofCollection runtime nextId (collectContents contents)).triggerMap.lookup trigger
        = lastEntry (contents.flatMap MatchFile.triggerEntries) trigger :=
    lookup_triggerMap_cacheOf contents
  have hglobals : ∀ name,
      (ofCollection runtime nextId (collectContents contents)).context.globalVarsMap.lookup name
        = lastEntry (contents.flatMap MatchFile.globalVarEntries) name :=
    lookup_globalVarMap_cacheOf contents
  constructor
  · intro trigger
    rw [htriggers, lastEntry_flatMap_isSome_iff_mem]
    simp only [hcontents]
  · intro trigger m h
    rw [htriggers] at h
    obtain ⟨file, hfile, hmem⟩ := List.mem_flatMap.mp (mem_of_lastEntry h)
    exact ⟨file, (hcontents file).mp hfile, hmem⟩
  · intro name
    rw [hglobals, lastEntry_flatMap_isSome_iff_mem]
    simp only [hcontents]
  · intro name var h
    rw [hglobals] at h
    obtain ⟨file, hfile, hmem⟩ := List.mem_flatMap.mp (mem_of_lastEntry h)
    exact ⟨file, (hcontents file).mp hfile, hmem⟩
  · intro m
    show m ∈ contents.flatMap (·.regexMatches) ↔ _
    simp only [List.mem_flatMap, hcontents]

/-- The backend of a profile whose slots lead to files. -/
theorem RendererAdapter.exists_new {store : MatchStore} {profile : ProfileFile}
    (hbounds : store.indexedFiles.InBounds profile.matchFilePaths) {fuel : Nat}
    (hfuel : store.indexedFiles.files.length < fuel) (runtime : Runtime) (nextId : Int32) :
    ∃ adapter, RendererAdapter.new runtime nextId profile store fuel = some (.ok adapter)
      ∧ adapter.runtime = runtime ∧ adapter.Knows (ReachableFile store profile) := by
  obtain ⟨refs, hrefs, hcollect⟩ := MatchStore.collect_preorder hfuel hbounds
  refine ⟨_, ?_, rfl, knows_ofCollection runtime nextId (mem_contents_iff hbounds hrefs)⟩
  unfold RendererAdapter.new
  rw [hcollect]
  rfl

/-- No more match files are loaded than there are files. -/
theorem length_le_of_loadConfig {order : PathOrder} {basePath : PathBuf} {config : Configuration}
    (hload : loadConfig libs fs order basePath = some (.ok config)) :
    config.matchStore.indexedFiles.files.length ≤ fs.files.keys.length := by
  obtain ⟨errors, hload⟩ := loadConfig_ok_iff.mp hload
  obtain ⟨loaded, fileMap, paths, hresult⟩ := exists_of_loadFromFiles hload
  exact hresult.indexes.length_le

/-- The backend of a configuration that has been loaded. -/
theorem exists_backend {order : PathOrder} {basePath : PathBuf} {config : Configuration}
    (hload : loadConfig libs fs order basePath = some (.ok config)) {fuel : Nat}
    (hfuel : config.matchStore.indexedFiles.files.length < fuel)
    (regexIsMatch : String → String → Bool) (runtime : Runtime) (nextId : Int32) :
    ∃ adapter, RendererAdapter.new runtime nextId (config.activeProfile regexIsMatch)
        config.matchStore fuel = some (.ok adapter)
      ∧ adapter.runtime = runtime
      ∧ adapter.Knows (VisibleFile libs fs config.profileStore.defaultProfile) := by
  obtain ⟨errors, hload⟩ := loadConfig_ok_iff.mp hload
  obtain ⟨loaded, fileMap, paths, hresult⟩ := exists_of_loadFromFiles hload
  have hdefault : config.profileStore.defaultProfile
      = .fromLoadedProfile loaded.defaultProfile fileMap := by
    rw [hresult.resolved]
    rfl
  have hvisible := fun file => hresult.reachableFile_iff List.mem_cons_self file
  rw [← hdefault] at hvisible
  have hinBounds : config.matchStore.indexedFiles.InBounds
      config.profileStore.defaultProfile.matchFilePaths := by
    rw [hdefault]
    exact hresult.indexes.inBounds _
  unfold Configuration.activeProfile
  rw [ProfileStore.activeConfig_empty]
  obtain ⟨adapter, hnew, hruntime, hknows⟩ :=
    RendererAdapter.exists_new hinBounds hfuel runtime nextId
  have hsame : ReachableFile config.matchStore config.profileStore.defaultProfile
      = VisibleFile libs fs config.profileStore.defaultProfile :=
    funext fun file => propext (hvisible file)
  rw [hsame] at hknows
  exact ⟨adapter, hnew, hruntime, hknows⟩

/-- A default profile that loads is all that a configuration needs; what leads to its files is in
the profile. -/
theorem exists_loadConfig {order : PathOrder} {basePath : PathBuf}
    (hdir : fs.isDir (PathBuf.join basePath "config")) {profile : LoadedProfileFile}
    (hdefault : LoadedProfileFile.loadFromPath libs fs order
      (PathBuf.join (PathBuf.join basePath "config") "default.yml") none = .ok profile) :
    ∃ config, loadConfig libs fs order basePath = some (.ok config)
      ∧ VisibleFile libs fs config.profileStore.defaultProfile
        = VisibleFile libs fs { content := profile.content, sourcePath := profile.sourcePath } := by
  have hfrom : LoadedProfileStore.LoadedFrom libs fs order (PathBuf.join basePath "config")
      ⟨profile, (customFiles fs order (PathBuf.join basePath "config")).filterMap fun configFile =>
        (LoadedProfileFile.loadFromPath libs fs order configFile (some profile)).toOption⟩ :=
    ⟨hdir, hdefault, rfl⟩
  obtain ⟨profileStore, matchStore, errors, fileMap, paths, hload, hresult⟩ :=
    loadFromFiles_eq hfrom
  refine ⟨⟨profileStore, matchStore⟩, loadConfig_ok_iff.mpr ⟨errors, hload⟩, ?_⟩
  rw [hresult.resolved]
  rfl

/-- **What the backend knows.**  If the default profile loads, the configuration loads whatever
the other files are, the backend is set up, and it knows the triggers, the global variables and
the regular expressions of those match files to which the default profile leads by its globs and
then by imports.  No custom profile has a say in it, and no order in which sets are iterated. -/
theorem knows_of_default {order : PathOrder} {basePath : PathBuf}
    (hdir : fs.isDir (PathBuf.join basePath "config")) {profile : LoadedProfileFile}
    (hdefault : LoadedProfileFile.loadFromPath libs fs order
      (PathBuf.join (PathBuf.join basePath "config") "default.yml") none = .ok profile)
    {fuel : Nat} (hfuel : fs.files.keys.length < fuel) (regexIsMatch : String → String → Bool)
    (runtime : Runtime) (nextId : Int32) :
    ∃ config adapter, loadConfig libs fs order basePath = some (.ok config)
      ∧ RendererAdapter.new runtime nextId (config.activeProfile regexIsMatch) config.matchStore
        fuel = some (.ok adapter)
      ∧ adapter.Knows (VisibleFile libs fs
        { content := profile.content, sourcePath := profile.sourcePath }) := by
  obtain ⟨config, hload, hvisible⟩ := exists_loadConfig hdir hdefault
  have hlength := Nat.lt_of_le_of_lt (length_le_of_loadConfig hload) hfuel
  obtain ⟨adapter, hnew, _, hknows⟩ := exists_backend hload hlength regexIsMatch runtime nextId
  rw [hvisible] at hknows
  exact ⟨config, adapter, hload, hnew, hknows⟩

/-- A backend without regular expressions. -/
def Runtime.plain : Runtime where
  regex := ⟨fun _ => false, fun _ _ => false, fun _ => [], fun _ _ => none⟩
  graphemes := String.length
  overflowChecks := false
  renderer := .answering ""

theorem filesNow_isDir : filesNow.isDir (PathBuf.join "/shinran" "config") := by decide

theorem filesNow_default :
    LoadedProfileFile.loadFromPath textLibraries filesNow .canonical
      (PathBuf.join (PathBuf.join "/shinran" "config") "default.yml") none = .ok {
        sourcePath := "/shinran/config/default.yml"
        matchFilePaths := ["/shinran/match/base.yml"] } := rfl

theorem filesNow_selects : ({ sourcePath := "/shinran/config/default.yml" } : ProfileFile).Selects
    textLibraries filesNow "/shinran/match/base.yml" :=
  ⟨by decide, "/shinran/config", by decide,
    ⟨"../match/**/[!_]*.yml", by decide, by decide⟩, by rintro ⟨_, hglob, _⟩; cases hglob⟩

/-- One of the files, which is only imported, has a trigger. -/
theorem filesNow_mail : ∃ file m, VisibleFile textLibraries filesNow
      { sourcePath := "/shinran/config/default.yml" } file
    ∧ ("mail", m) ∈ file.triggerEntries := by
  obtain ⟨group, hloads, m, hentry⟩ : ∃ group,
      (matchLoader textLibraries filesNow).Loads "/shinran/match/_emails.yml" group
        ∧ ∃ m, ("mail", m) ∈ group.content.triggerEntries :=
    ⟨_, ⟨none, rfl⟩, _, List.mem_singleton_self _⟩
  have hreaches : Reaches (matchLoader textLibraries filesNow).importGraph
      "/shinran/match/base.yml" "/shinran/match/_emails.yml" :=
    .single ⟨_, rfl, List.mem_singleton_self _⟩
  exact ⟨group.content, m, ⟨_, _, group, filesNow_selects, hreaches, hloads, rfl⟩, hentry⟩

/-- A trigger that is defined in a file that is only imported. -/
theorem knows_of_default_imported :
    ∃ config adapter, loadConfig textLibraries filesNow .canonical "/shinran" = some (.ok config)
      ∧ RendererAdapter.new .plain 0 (config.activeProfile fun _ _ => false) config.matchStore 4
        = some (.ok adapter)
      ∧ (adapter.triggerMap.lookup "mail").isSome := by
  obtain ⟨config, adapter, hload, hnew, hknows⟩ := @knows_of_default _ textLibraries filesNow
    .canonical "/shinran" filesNow_isDir _ filesNow_default 4 (by decide) (fun _ _ => false)
    .plain 0
  obtain ⟨file, m, hfile, hentry⟩ := filesNow_mail
  exact ⟨config, adapter, hload, hnew,
    (hknows.trigger_isSome "mail").mpr ⟨file, m, hfile, hentry⟩⟩

end Shinran
