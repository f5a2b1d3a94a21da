/-
  Shinran.Backend.CacheHit
  ────────────────────────
  **WHEN A CACHE IS USED AT ALL.**

  A configuration is loaded best-effort: a file that does not load is reported
  and left out.  The cache of such a configuration does not record the file,
  and what is not recorded counts as new at the next start.  So a broken file
  that the config directory or a glob leads to keeps the cache from ever being
  used, while one that is only imported does not.

    • `mostRecentModification_of_recorded` — the recorded files are no obstacle,
    • `checkMatchPaths_eq`                 — what the loop over the profiles says,
    • `loadCache_hit_iff`                  — when the cache is used, and why not.
-/
import Shinran.Backend.CacheCorrect

namespace Shinran

variable {ε : Type} {libs : Libraries ε} {fs : FileSystem}

/-! ## §1. Recorded files. -/

/-- The fold goes through if every file is there, and the latest time is no later than theirs. -/
theorem foldlM_latestOf_ok {paths : List PathBuf} {start : Option Nat} {T : Nat}
    (hstart : ∀ t, start = some t → t ≤ T)
    (hpaths : ∀ path ∈ paths, ∃ entry, fs.files.lookup path = some entry ∧ entry.modified ≤ T) :
    ∃ time, paths.foldlM (latestOf fs) start = .ok time ∧ (∀ t, time = some t → t ≤ T)
      ∧ (start.isSome ∨ paths ≠ [] → time.isSome) := by
  induction paths generalizing start with
  | nil => exact ⟨start, rfl, hstart, by simp⟩
  | cons path paths ih =>
      obtain ⟨⟨entry, hentry, hle⟩, hrest⟩ := List.forall_mem_cons.mp hpaths
      rw [List.foldlM_cons]
      simp only [latestOf, hentry, bind, Except.bind]
      have hnext : ∀ t, some (start.elim entry.modified fun t => max t entry.modified) = some t →
          t ≤ T := by
        intro t ht
        cases start with
        | none =>
            cases ht
            exact hle
        | some t' =>
            cases ht
            exact Nat.max_le.mpr ⟨hstart t' rfl, hle⟩
      obtain ⟨time, htime, hlatest, hsome⟩ := ih hnext hrest
      exact ⟨time, htime, hlatest, fun _ => hsome (Or.inl rfl)⟩

theorem mostRecentModification_of_recorded {paths : List PathBuf} {T : Nat} (hne : paths ≠ [])
    (hpaths : ∀ path ∈ paths, ∃ entry, fs.files.lookup path = some entry ∧ entry.modified ≤ T) :
    ∃ time, mostRecentModification fs paths = .ok time ∧ time ≤ T := by
  have hnone : ∀ t, (none : Option Nat) = some t → t ≤ T := fun _ h => by cases h
  obtain ⟨time, hfold, hlatest, hsome⟩ := foldlM_latestOf_ok hnone hpaths
  obtain ⟨t, rfl⟩ := Option.isSome_iff_exists.mp (hsome (Or.inr hne))
  refine ⟨t, ?_, hlatest t rfl⟩
  unfold mostRecentModification
  rw [hfold]

theorem Configuration.mem_sourcePaths {config : Configuration} {path : PathBuf} :
    path ∈ config.sourcePaths
      ↔ path ∈ config.profileStore.sourcePaths ∨ path ∈ config.matchStore.sourcePaths :=
  List.mem_append

/-- The default profile is always recorded. -/
theorem Configuration.sourcePaths_ne_nil (config : Configuration) : config.sourcePaths ≠ [] := by
  have hdefault : config.profileStore.defaultProfile.sourcePath ∈ config.sourcePaths :=
    List.mem_append_left _ List.mem_cons_self
  exact List.ne_nil_of_mem hdefault

section Recorded

variable {order : PathOrder} {configDir : PathBuf} {config : Configuration}
  {loaded : LoadedProfileStore} {fileMap : HashMap PathBuf MatchFileRef} {paths : List PathBuf}
  (hresult : LoadResult libs fs order configDir config.profileStore config.matchStore loaded
    fileMap paths)
include hresult

/-- A profile that has been loaded was loaded from a file. -/
theorem LoadResult.loadedFromPath {profile : LoadedProfileFile} (h : profile ∈ loaded.profiles) :
    profile = loaded.defaultProfile ∧ profile.sourcePath = PathBuf.join configDir "default.yml"
        ∧ LoadedProfileFile.loadFromPath libs fs order profile.sourcePath none = .ok profile
      ∨ profile.sourcePath ∈ customFiles fs order configDir
        ∧ LoadedProfileFile.loadFromPath libs fs order profile.sourcePath
          (some loaded.defaultProfile) = .ok profile := by
  have hfrom := hresult.loadedFrom
  cases List.mem_cons.mp h with
  | inl heq =>
      subst heq
      obtain ⟨_, _, _, _, hsource, _⟩ := loadFromPath_ok_iff.mp hfrom.defaultProfile
      exact Or.inl ⟨rfl, hsource, hsource ▸ hfrom.defaultProfile⟩
  | inr hmem =>
      rw [hfrom.customProfiles] at hmem
      obtain ⟨configFile, hfile, hload⟩ := List.mem_filterMap.mp hmem
      have hload := toOption_eq_some_iff.mp hload
      obtain ⟨_, _, _, _, hsource, _⟩ := loadFromPath_ok_iff.mp hload
      exact Or.inr ⟨hsource ▸ hfile, hsource ▸ hload⟩

/-- **Every recorded file is there.** -/
theorem LoadResult.recorded {path : PathBuf} (h : path ∈ config.sourcePaths) :
    ∃ entry, fs.files.lookup path = some entry := by
  rcases hresult.mem_sourcePaths.mp h with ⟨profile, hprofile, rfl⟩ | hpath
  · rcases hresult.loadedFromPath hprofile with ⟨_, _, hload⟩ | ⟨_, hload⟩
    · obtain ⟨entry, _, hentry, _⟩ := loadFromPath_ok_iff.mp hload
      exact ⟨entry, hentry⟩
    · obtain ⟨entry, _, hentry, _⟩ := loadFromPath_ok_iff.mp hload
      exact ⟨entry, hentry⟩
  · obtain ⟨group, errors, hload⟩ :=
      MatchLoader.importGraph_isSome.mp ((hresult.mem_paths path).mp hpath).1
    obtain ⟨_, entry, _, _, hentry, _⟩ := loadMatchFile_ok_iff.mp ⟨errors, hload⟩
    exact ⟨entry, hentry⟩

end Recorded

/-! ## §2. What is found. -/

/-- A file of the config directory that can be a profile. -/
def IsConfigFile (fs : FileSystem) (configDir path : PathBuf) : Prop :=
  PathBuf.parent path = some configDir ∧ PathBuf.isSupported path ∧ fs.isFile path

/-- The globs of the profile select the path. -/
def ProfileFile.Selects (libs : Libraries ε) (fs : FileSystem) (profile : ProfileFile)
    (path : PathBuf) : Prop :=
  fs.exists_ path ∧ ∃ baseDir, PathBuf.parent profile.sourcePath = some baseDir
    ∧ SelectedBy libs baseDir (aggregateIncludes profile.content) path
    ∧ ¬ SelectedBy libs baseDir (aggregateExcludes profile.content) path

theorem mem_allConfigFiles {configDir path : PathBuf} (hdir : fs.isDir configDir) :
    (∃ foundPaths, allConfigFiles fs configDir = some foundPaths ∧ path ∈ foundPaths)
      ↔ IsConfigFile fs configDir path := by
  rw [allConfigFiles_eq hdir]
  unfold IsConfigFile
  simp only [Option.some.injEq, exists_eq_left', List.mem_filter, FileSystem.mem_paths,
    FileSystem.exists_, Bool.or_eq_true, Bool.and_eq_true, decide_eq_true_eq]
  tauto

/-- **The loop over the profiles** goes through if everything that they select is recorded, and
ends with one error otherwise. -/
theorem checkMatchPaths_eq {configPaths : List PathBuf} {profileFiles : List ProfileFile}
    (hsome : ∀ profile ∈ profileFiles, (PathBuf.parent profile.sourcePath).isSome) :
    (checkMatchPaths libs fs configPaths profileFiles = .ok ()
        ∧ ∀ profile ∈ profileFiles, ∀ path, profile.Selects libs fs path → path ∈ configPaths)
      ∨ checkMatchPaths libs fs configPaths profileFiles = .error .newMatchFiles
        ∧ ∃ profile ∈ profileFiles, ∃ path, profile.Selects libs fs path ∧ path ∉ configPaths := by
  induction profileFiles with
  | nil => exact Or.inl ⟨rfl, by simp⟩
  | cons profile profileFiles ih =>
      obtain ⟨hparent, hrest⟩ := List.forall_mem_cons.mp hsome
      rw [← @generateMatchPaths_isSome _ libs fs profile.content] at hparent
      obtain ⟨matchPaths, hpaths⟩ := Option.isSome_iff_exists.mp hparent
      have hselects : ∀ path, path ∈ matchPaths ↔ profile.Selects libs fs path :=
        mem_generateMatchPaths hpaths
      unfold checkMatchPaths
      rw [hpaths]
      simp only
      by_cases hall : matchPaths.all (· ∈ configPaths) = true
      · rw [if_pos hall]
        have hrecorded : ∀ path, profile.Selects libs fs path → path ∈ configPaths :=
          fun path hpath => by
            simpa using List.all_eq_true.mp hall path ((hselects path).mpr hpath)
        rcases ih hrest with ⟨hok, hthose⟩ | ⟨herror, other, hother, hnew⟩
        · exact Or.inl ⟨hok, List.forall_mem_cons.mpr ⟨hrecorded, hthose⟩⟩
        · exact Or.inr ⟨herror, other, List.mem_cons_of_mem _ hother, hnew⟩
      · rw [if_neg hall]
        obtain ⟨path, hpath, hnew⟩ : ∃ path ∈ matchPaths, path ∉ configPaths := by
          simpa using hall
        exact Or.inr ⟨rfl, profile, List.mem_cons_self, path, (hselects path).mp hpath, hnew⟩

/-! ## §3. When the cache is used. -/

/-- The file is a profile, once it has taken over what it leaves open. -/
def DescribesProfile (libs : Libraries ε) (fs : FileSystem) (parent : ParsedConfig)
    (path : PathBuf) : Prop :=
  ∃ entry profile, fs.files.lookup path = some entry ∧ Describes libs entry (some parent) profile

/-- **Every config file loads**, if only as a match file. -/
def ConfigFilesLoad (libs : Libraries ε) (fs : FileSystem) (configDir : PathBuf)
    (config : Configuration) : Prop :=
  ∀ path, IsConfigFile fs configDir path → path ≠ PathBuf.join configDir "default.yml" →
    DescribesProfile libs fs config.profileStore.defaultProfile.content path
      ∨ path ∈ config.matchStore.sourcePaths

/-- **Everything that a profile selects loads**, if only as a profile. -/
def SelectedFilesLoad (libs : Libraries ε) (fs : FileSystem) (config : Configuration) : Prop :=
  ∀ profile ∈ config.profileStore.profiles, ∀ path, profile.Selects libs fs path →
    (∃ group, (matchLoader libs fs).Loads path group)
      ∨ path ∈ config.profileStore.sourcePaths

section Hit

variable {order : PathOrder} {configDir : PathBuf} {config : Configuration}
  {loaded : LoadedProfileStore} {fileMap : HashMap PathBuf MatchFileRef} {paths : List PathBuf}
  (hresult : LoadResult libs fs order configDir config.profileStore config.matchStore loaded
    fileMap paths)
include hresult

/-- The globs of a loaded profile have been expanded. -/
theorem LoadResult.exists_matchPaths {profile : LoadedProfileFile}
    (h : profile ∈ loaded.profiles) :
    ∃ matchPaths, generateMatchPaths libs fs profile.content profile.sourcePath = some matchPaths
      ∧ profile.matchFilePaths = order.iter matchPaths := by
  rcases hresult.loadedFromPath h with ⟨_, _, hload⟩ | ⟨_, hload⟩
  · obtain ⟨_, matchPaths, _, _, _, hpaths, hroots⟩ := loadFromPath_ok_iff.mp hload
    exact ⟨matchPaths, hpaths, hroots⟩
  · obtain ⟨_, matchPaths, _, _, _, hpaths, hroots⟩ := loadFromPath_ok_iff.mp hload
    exact ⟨matchPaths, hpaths, hroots⟩

/-- The roots of a loaded profile are the paths that it selects. -/
theorem LoadResult.mem_matchFilePaths {profile : LoadedProfileFile}
    (h : profile ∈ loaded.profiles) (root : PathBuf) :
    root ∈ profile.matchFilePaths
      ↔ (ProfileFile.fromLoadedProfile profile fileMap).Selects libs fs root := by
  obtain ⟨matchPaths, hpaths, hroots⟩ := hresult.exists_matchPaths h
  rw [hroots, (order.perm matchPaths).mem_iff]
  exact mem_generateMatchPaths hpaths root

/-- A config file that is no match file is recorded if it is a profile. -/
theorem LoadResult.mem_of_describes {path : PathBuf} (hfile : IsConfigFile fs configDir path)
    (hcustom : path ≠ PathBuf.join configDir "default.yml") :
    path ∈ config.profileStore.sourcePaths
      ↔ DescribesProfile libs fs config.profileStore.defaultProfile.content path := by
  have hdefault : config.profileStore.defaultProfile.content = loaded.defaultProfile.content := by
    rw [hresult.resolved]
    rfl
  have hsources : path ∈ config.profileStore.sourcePaths
      ↔ ∃ profile ∈ loaded.profiles, profile.sourcePath = path := by
    unfold ProfileStore.sourcePaths
    rw [hresult.profiles_eq, List.map_map, List.mem_map]
    rfl
  rw [hsources, hdefault]
  constructor
  · rintro ⟨profile, hprofile, rfl⟩
    rcases hresult.loadedFromPath hprofile with ⟨_, hsource, _⟩ | ⟨_, hload⟩
    · exact absurd hsource hcustom
    · obtain ⟨entry, _, hentry, hdescribes, _⟩ := loadFromPath_ok_iff.mp hload
      exact ⟨entry, profile, hentry, hdescribes⟩
  · rintro ⟨entry, profile, hentry, hdescribes⟩
    obtain ⟨hparent, hsupported, hisFile⟩ := hfile
    have hsome : (generateMatchPaths libs fs profile.content path).isSome := by
      rw [generateMatchPaths_isSome, hparent]
      rfl
    obtain ⟨matchPaths, hpaths⟩ := Option.isSome_iff_exists.mp hsome
    have hload : LoadedProfileFile.loadFromPath libs fs order path (some loaded.defaultProfile)
        = .ok { profile with sourcePath := path, matchFilePaths := order.iter matchPaths } :=
      loadFromPath_ok_iff.mpr ⟨entry, matchPaths, hentry, hdescribes, rfl, hpaths, rfl⟩
    refine ⟨{ profile with sourcePath := path, matchFilePaths := order.iter matchPaths },
      List.mem_cons_of_mem _ ?_, rfl⟩
    rw [hresult.loadedFrom.customProfiles]
    exact List.mem_filterMap.mpr ⟨path, mem_customFiles.mpr
      ⟨⟨hresult.loadedFrom.isDir, hparent⟩, hsupported, hisFile, hcustom⟩,
      toOption_eq_some_iff.mpr hload⟩

/-- **What the config directory holds is recorded** if it loads. -/
theorem LoadResult.configFilesLoad_iff :
    (∀ path, IsConfigFile fs configDir path → path ∈ config.sourcePaths)
      ↔ ConfigFilesLoad libs fs configDir config := by
  unfold ConfigFilesLoad
  refine forall₂_congr fun path hfile => ?_
  rw [Configuration.mem_sourcePaths]
  by_cases hcustom : path = PathBuf.join configDir "default.yml"
  · obtain ⟨_, _, _, _, hsource, _⟩ := loadFromPath_ok_iff.mp hresult.loadedFrom.defaultProfile
    have hmem : path ∈ config.profileStore.sourcePaths := by
      rw [hresult.resolved, hcustom, ← hsource]
      exact List.mem_cons_self
    exact iff_of_true (Or.inl hmem) fun hne => absurd hcustom hne
  · rw [hresult.mem_of_describes hfile hcustom, forall_prop_of_true hcustom]

/-- **What a profile selects is recorded** if it loads. -/
theorem LoadResult.selectedFilesLoad_iff :
    (∀ profile ∈ config.profileStore.profiles, ∀ path, profile.Selects libs fs path →
        path ∈ config.sourcePaths)
      ↔ SelectedFilesLoad libs fs config := by
  unfold SelectedFilesLoad
  refine forall₂_congr fun profile hprofile => forall₂_congr fun path hselects => ?_
  rw [Configuration.mem_sourcePaths, or_comm]
  refine or_congr_left ?_
  rw [hresult.indexes.sourcePaths_eq, hresult.mem_paths, MatchLoader.importGraph_isSome]
  refine and_iff_left_of_imp fun _ => ?_
  -- what a profile selects is a root of the walk
  rw [hresult.profiles_eq, List.mem_map] at hprofile
  obtain ⟨loadedProfile, hloaded, rfl⟩ := hprofile
  exact ⟨loadedProfile, hloaded, path, (hresult.mem_matchFilePaths hloaded path).mpr hselects,
    .refl⟩

/-- Every profile has a directory for its globs to start from. -/
theorem LoadResult.parent_isSome {profile : ProfileFile}
    (h : profile ∈ config.profileStore.profiles) : (PathBuf.parent profile.sourcePath).isSome := by
  rw [hresult.profiles_eq, List.mem_map] at h
  obtain ⟨loadedProfile, hloaded, rfl⟩ := h
  rw [← @generateMatchPaths_isSome _ libs fs loadedProfile.content]
  obtain ⟨matchPaths, hpaths, _⟩ := hresult.exists_matchPaths hloaded
  exact Option.isSome_iff_exists.mpr ⟨matchPaths, hpaths⟩

end Hit

/-- **When the cache is used.**  The cache of a configuration is tried on the very files that the
configuration was loaded from, none of which is newer than the cache.  It is used if and only if
every config file and everything that a profile selects loads, and is taken for outdated by new
files otherwise. -/
theorem loadCache_hit_iff {order : PathOrder} {basePath : PathBuf} {T : Nat}
    {config : Configuration} (hload : loadConfig libs fs order basePath = some (.ok config))
    (hnotNewer : fs.NotNewer T) :
    (loadCache libs fs config T (PathBuf.join basePath "config") = .ok config
        ↔ ConfigFilesLoad libs fs (PathBuf.join basePath "config") config
          ∧ SelectedFilesLoad libs fs config)
      ∧ (loadCache libs fs config T (PathBuf.join basePath "config")
          = .error .newConfigurationFiles
        ↔ ¬ ConfigFilesLoad libs fs (PathBuf.join basePath "config") config)
      ∧ (loadCache libs fs config T (PathBuf.join basePath "config") = .error .newMatchFiles
        ↔ ConfigFilesLoad libs fs (PathBuf.join basePath "config") config
          ∧ ¬ SelectedFilesLoad libs fs config) := by
  obtain ⟨errors, hload⟩ := loadConfig_ok_iff.mp hload
  obtain ⟨loaded, fileMap, paths, hresult⟩ := exists_of_loadFromFiles hload
  have hrecorded : ∀ path ∈ config.sourcePaths, ∃ entry, fs.files.lookup path = some entry
      ∧ entry.modified ≤ T := by
    intro path hpath
    obtain ⟨entry, hentry⟩ := hresult.recorded hpath
    exact ⟨entry, hentry, hnotNewer path entry hentry⟩
  obtain ⟨time, htime, hle⟩ :=
    mostRecentModification_of_recorded config.sourcePaths_ne_nil hrecorded
  have hdir := hresult.loadedFrom.isDir
  have hfound := fun path => @mem_allConfigFiles fs _ path hdir
  obtain ⟨foundPaths, hfoundPaths⟩ : ∃ foundPaths,
      allConfigFiles fs (PathBuf.join basePath "config") = some foundPaths :=
    ⟨_, allConfigFiles_eq hdir⟩
  simp only [hfoundPaths, Option.some.injEq, exists_eq_left'] at hfound
  unfold loadCache
  dsimp only
  rw [htime]
  simp only [Nat.not_lt.mpr hle, if_false, hfoundPaths]
  rw [← hresult.configFilesLoad_iff, ← hresult.selectedFilesLoad_iff]
  by_cases hnew : foundPaths.any (· ∉ config.sourcePaths) = true
  · rw [if_pos hnew]
    obtain ⟨path, hpath, hnot⟩ := List.any_eq_true.mp hnew
    have hfails : ¬ ∀ path, IsConfigFile fs (PathBuf.join basePath "config") path →
        path ∈ config.sourcePaths := fun hall =>
      (by simpa using hnot : path ∉ config.sourcePaths) (hall path ((hfound path).mp hpath))
    exact ⟨iff_of_false (by simp) fun h => hfails h.1, iff_of_true rfl hfails,
      iff_of_false (by simp) fun h => hfails h.1⟩
  · rw [if_neg hnew]
    have hall : ∀ path, IsConfigFile fs (PathBuf.join basePath "config") path →
        path ∈ config.sourcePaths := by
      intro path hpath
      by_contra hnot
      exact hnew (List.any_eq_true.mpr ⟨path, (hfound path).mpr hpath, by simpa using hnot⟩)
    rcases @checkMatchPaths_eq _ libs fs config.sourcePaths config.profileStore.profiles
      (fun _ hprofile => hresult.parent_isSome hprofile) with
      ⟨hok, hselected⟩ | ⟨herror, profile, hprofile, path, hselects, hnot⟩
    · rw [hok]
      exact ⟨iff_of_true rfl ⟨hall, hselected⟩, iff_of_false (by simp) (not_not_intro hall),
        iff_of_false (by simp) fun h => h.2 hselected⟩
    · have hfails : ¬ ∀ profile ∈ config.profileStore.profiles, ∀ path,
          profile.Selects libs fs path → path ∈ config.sourcePaths :=
        fun hselected => hnot (hselected profile hprofile path hselects)
      rw [herror]
      exact ⟨iff_of_false (by simp) fun h => hfails h.2,
        iff_of_false (by simp) (not_not_intro hall), iff_of_true rfl ⟨hall, hfails⟩⟩

/-- Beside the default profile there is a file that is no configuration. -/
def filesBroken : FileSystem where
  files := HashMap.insertEntries ∅ [("/shinran/config/default.yml", ⟨"", 1⟩),
    ("/shinran/config/mail.yml", ⟨"filter_title: [", 2⟩)]
  directories := ["/shinran", "/shinran/config", "/shinran/match"]

theorem filesBroken_notNewer : filesBroken.NotNewer 2 := by
  intro path entry h
  unfold filesBroken at h
  dsimp only at h
  rw [HashMap.lookup_insertEntries, AList.lookup_empty, Option.or_none] at h
  have hmem := mem_of_lastEntry h
  simp only [List.mem_cons, Prod.mk.injEq, List.not_mem_nil, or_false] at hmem
  obtain ⟨_, rfl⟩ | ⟨_, rfl⟩ := hmem <;> decide

/-- The cache of what loads beside the broken file is of no use. -/
theorem loadCache_hit_iff_broken :
    ∃ config, loadConfig textLibraries filesBroken .canonical "/shinran" = some (.ok config)
      ∧ loadCache textLibraries filesBroken config 2 "/shinran/config"
        = .error .newConfigurationFiles
      ∧ ¬ ConfigFilesLoad textLibraries filesBroken "/shinran/config" config := by
  obtain ⟨config, hload, herror⟩ : ∃ config,
      loadConfig textLibraries filesBroken .canonical "/shinran" = some (.ok config)
        ∧ loadCache textLibraries filesBroken config 2 "/shinran/config"
          = .error .newConfigurationFiles := ⟨_, rfl, rfl⟩
  exact ⟨config, hload, herror, (loadCache_hit_iff hload filesBroken_notNewer).2.1.mp herror⟩

end Shinran
