/-
  Shinran.Backend.CachedBackend
  ─────────────────────────────
  **WHAT A CACHED BACKEND KNOWS.**

  A configuration serves one profile only, so a cache need not be fresh as a
  whole.  What a profile leads to now is what it led to when the cache was
  written, unless one of its files newly imports a file.  The other profiles,
  and the files that only they lead to, have no say.

    • `VisiblePath`           — the paths to which a profile leads,
    • `visiblePath_of_then`   — a path that was visible still is,
    • `recorded_iff`          — the cache has all of them, and when it has,
    • `visiblePath_iff`       — they are the same as then,
    • `cached_knows`          — so the backend of the cache is as good as that
                                of a fresh load.
-/
import Shinran.Backend.Visible

namespace Shinran

open DepthFirst

variable {ε : Type} {libs : Libraries ε} {fs fs' : FileSystem}

/-! ## §1. Visible paths. -/

/-- A match file that loads, and to which the profile leads. -/
def VisiblePath (libs : Libraries ε) (fs : FileSystem) (profile : ProfileFile) (path : PathBuf) :
    Prop :=
  ((matchLoader libs fs).importGraph path).isSome
    ∧ ∃ root, profile.Selects libs fs root
      ∧ Reaches (matchLoader libs fs).importGraph root path

theorem visibleFile_iff {profile : ProfileFile} {file : MatchFile} :
    VisibleFile libs fs profile file
      ↔ ∃ path, VisiblePath libs fs profile path
        ∧ (matchLoader libs fs).contentOf path = file := by
  unfold VisibleFile VisiblePath
  constructor
  · rintro ⟨root, path, group, hselects, hreach, hloads, hcontent⟩
    exact ⟨path, ⟨MatchLoader.importGraph_isSome.mpr ⟨group, hloads⟩, root, hselects, hreach⟩,
      hloads.contentOf_eq.trans hcontent⟩
  · rintro ⟨path, ⟨hnode, root, hselects, hreach⟩, hcontent⟩
    obtain ⟨group, hloads⟩ := MatchLoader.importGraph_isSome.mp hnode
    exact ⟨root, path, group, hselects, hreach, hloads, hloads.contentOf_eq.symm.trans hcontent⟩

/-- What is visible is a file. -/
theorem VisiblePath.mem_keys {profile : ProfileFile} {path : PathBuf}
    (h : VisiblePath libs fs profile path) : path ∈ fs.files.keys := by
  obtain ⟨group, errors, hloads⟩ := MatchLoader.importGraph_isSome.mp h.1
  obtain ⟨_, _, _, _, hentry, _⟩ := loadMatchFile_ok_iff.mp ⟨errors, hloads⟩
  exact AList.mem_keys.mp (AList.lookup_isSome.mp (by rw [hentry]; rfl))

/-- What leads to a visible path is visible itself. -/
theorem VisiblePath.of_edge {profile : ProfileFile} {root path import_ : PathBuf}
    (hselects : profile.Selects libs fs root)
    (hreach : Reaches (matchLoader libs fs).importGraph root path)
    (hedge : Edge (matchLoader libs fs).importGraph path import_) :
    VisiblePath libs fs profile path :=
  ⟨hedge.isSome, root, hselects, hreach⟩

/-- Whether the globs select an existing path depends on the profile alone. -/
theorem ProfileFile.Selects.of_exists {profile : ProfileFile} {path : PathBuf}
    (h : profile.Selects libs fs path) (hexists : fs'.exists_ path) :
    profile.Selects libs fs' path :=
  ⟨hexists, h.2⟩

/-- No visible file that is recorded imports a file that is not recorded and that loads now. -/
def NothingNewVisible (libs : Libraries ε) (fs' : FileSystem) (config : Configuration)
    (profile : ProfileFile) : Prop :=
  ∀ path import_, VisiblePath libs fs' profile path → path ∈ config.matchStore.sourcePaths →
    Edge (matchLoader libs fs').importGraph path import_ →
    ((matchLoader libs fs').importGraph import_).isSome →
    import_ ∈ config.matchStore.sourcePaths

/-! ## §2. An accepted cache. -/

section Accepted

variable {order : PathOrder} {configDir : PathBuf} {T : Nat} {config : Configuration}
  {loaded : LoadedProfileStore} {fileMap : HashMap PathBuf MatchFileRef} {paths : List PathBuf}
  (hresult : LoadResult libs fs order configDir config.profileStore config.matchStore loaded
    fileMap paths)
  (hedits : fs.Edits T fs') (haccepted : Accepted libs fs' config T configDir)
  {profile : ProfileFile} (hprofile : profile ∈ config.profileStore.profiles)
include hresult hedits haccepted hprofile

omit hedits haccepted in
/-- What was visible has been recorded. -/
theorem LoadResult.mem_of_visiblePath {path : PathBuf} (h : VisiblePath libs fs profile path) :
    path ∈ config.matchStore.sourcePaths := by
  obtain ⟨hnode, root, hselects, hreach⟩ := h
  rw [hresult.profiles_eq, List.mem_map] at hprofile
  obtain ⟨loadedProfile, hloaded, rfl⟩ := hprofile
  rw [hresult.indexes.sourcePaths_eq]
  exact hresult.mem_of_reaches hloaded ((hresult.mem_matchFilePaths hloaded root).mpr hselects)
    hreach hnode

omit hprofile in
theorem LoadResult.unchanged_of_recorded {path : PathBuf}
    (h : path ∈ config.matchStore.sourcePaths) : Unchanged fs fs' path := by
  rw [hresult.indexes.sourcePaths_eq] at h
  exact hresult.unchanged hedits haccepted h

/-- **What was visible still is**: the files on the way have not changed. -/
theorem visiblePath_of_then {path : PathBuf} (h : VisiblePath libs fs profile path) :
    VisiblePath libs fs' profile path := by
  obtain ⟨hnode, root, hselects, hreach⟩ := h
  have hunchanged : ∀ q, Reaches (matchLoader libs fs).importGraph root q →
      ((matchLoader libs fs).importGraph q).isSome → Unchanged fs fs' q := fun q hq hsome =>
    hresult.unchanged_of_recorded hedits haccepted
      (hresult.mem_of_visiblePath hprofile ⟨hsome, root, hselects, hq⟩)
  have hwalk : Reaches (matchLoader libs fs').importGraph root path := by
    refine hreach.transfer hnode fun b q hb hbq hq => ?_
    have hqfile := (hunchanged q (hb.tail hbq) hq).symm.isFile
    exact (hunchanged b hb hbq.isSome).edge hqfile hbq
  have hroot := hunchanged root .refl (hreach.isSome hnode)
  exact ⟨(hunchanged path hreach hnode).isSome hnode, root,
    hselects.of_exists hroot.symm.exists_, hwalk⟩

/-- What a profile selects now and loads now is recorded as a match file. -/
theorem LoadResult.mem_of_selects {root : PathBuf} (hselects : profile.Selects libs fs' root)
    (hnode : ((matchLoader libs fs').importGraph root).isSome) :
    root ∈ config.matchStore.sourcePaths := by
  have hsome : (generateMatchPaths libs fs' profile.content profile.sourcePath).isSome := by
    rw [generateMatchPaths_isSome]
    exact hresult.parent_isSome hprofile
  obtain ⟨matchPaths, hpaths⟩ := Option.isSome_iff_exists.mp hsome
  have hrecorded : root ∈ config.sourcePaths := haccepted.selected profile hprofile matchPaths
    hpaths root ((mem_generateMatchPaths hpaths root).mpr hselects)
  have hunchanged := haccepted.unchanged hedits hrecorded
  exact hresult.mem_of_visiblePath hprofile ⟨hunchanged.symm.isSome hnode, root,
    hselects.of_exists hunchanged.exists_, .refl⟩

/-- **The cache has everything that is visible now** exactly if none of it is newly imported. -/
theorem recorded_iff :
    (∀ path, VisiblePath libs fs' profile path → path ∈ config.matchStore.sourcePaths)
      ↔ NothingNewVisible libs fs' config profile := by
  constructor
  · intro hall path import_ hpath _ hedge hnode
    obtain ⟨_, root, hselects, hreach⟩ := hpath
    exact hall import_ ⟨hnode, root, hselects, hreach.tail hedge⟩
  · rintro hnothing path ⟨hnode, root, hselects, hreach⟩
    -- along the imports of now, from one recorded file to the next
    induction hreach with
    | refl => exact hresult.mem_of_selects hedits haccepted hprofile hselects hnode
    | tail hrb hbq ih =>
        exact hnothing _ _ (.of_edge hselects hrb hbq) (ih hbq.isSome) hbq hnode

/-- **What is visible now is what was visible then**, if none of it is newly imported. -/
theorem visiblePath_iff (hnothing : NothingNewVisible libs fs' config profile) {path : PathBuf} :
    VisiblePath libs fs' profile path ↔ VisiblePath libs fs profile path := by
  have hrecorded := (recorded_iff hresult hedits haccepted hprofile).mpr hnothing
  have hunchanged : ∀ q, VisiblePath libs fs' profile q → Unchanged fs fs' q := fun q hq =>
    hresult.unchanged_of_recorded hedits haccepted (hrecorded q hq)
  refine ⟨?_, visiblePath_of_then hresult hedits haccepted hprofile⟩
  rintro ⟨hnode, root, hselects, hreach⟩
  have hwalk : Reaches (matchLoader libs fs).importGraph root path := by
    refine hreach.transfer hnode fun b q hb hbq hq => ?_
    have hqfile := (hunchanged q ⟨hq, root, hselects, hb.tail hbq⟩).isFile
    exact (hunchanged b (.of_edge hselects hb hbq)).symm.edge hqfile hbq
  have hroot := hunchanged root ⟨hreach.isSome hnode, root, hselects, .refl⟩
  exact ⟨(hunchanged path ⟨hnode, root, hselects, hreach⟩).symm.isSome hnode, root,
    hselects.of_exists hroot.exists_, hwalk⟩

theorem visibleFile_eq (hnothing : NothingNewVisible libs fs' config profile) :
    VisibleFile libs fs profile = VisibleFile libs fs' profile := by
  funext file
  rw [eq_iff_iff, visibleFile_iff, visibleFile_iff]
  refine exists_congr fun path => ?_
  rw [visiblePath_iff hresult hedits haccepted hprofile hnothing]
  refine and_congr_right fun hpath => ?_
  have hunchanged := hresult.unchanged_of_recorded hedits haccepted
    (hresult.mem_of_visiblePath hprofile hpath)
  rw [hunchanged.contentOf_eq hpath.1]

end Accepted

/-! ## §3. The backend of an accepted cache. -/

/-- Both configurations make a backend, and both backends know the files. -/
def BothKnow (files : MatchFile → Prop) (config config' : Configuration) : Prop :=
  ∀ (regexIsMatch : String → String → Bool) (runtime : Runtime) (nextId : Int32) (fuel : Nat),
    config.matchStore.indexedFiles.files.length < fuel →
    config'.matchStore.indexedFiles.files.length < fuel →
    ∃ adapter adapter',
      RendererAdapter.new runtime nextId (config.activeProfile regexIsMatch) config.matchStore fuel
          = some (.ok adapter)
        ∧ RendererAdapter.new runtime nextId (config'.activeProfile regexIsMatch)
          config'.matchStore fuel = some (.ok adapter')
        ∧ adapter.Knows files ∧ adapter'.Knows files

section Fresh

variable {order : PathOrder} (order' : PathOrder) {basePath : PathBuf} {T : Nat}
  {config : Configuration} (hload : loadConfig libs fs order basePath = some (.ok config))
  (hedits : fs.Edits T fs')
  (haccepted : Accepted libs fs' config T (PathBuf.join basePath "config"))
include hload hedits haccepted

/-- Where a cache is accepted, a fresh load goes through as well, with the same default profile. -/
theorem exists_fresh : ∃ config', loadConfig libs fs' order' basePath = some (.ok config')
    ∧ VisibleFile libs fs' config'.profileStore.defaultProfile
      = VisibleFile libs fs' config.profileStore.defaultProfile := by
  obtain ⟨errors, hfiles⟩ := loadConfig_ok_iff.mp hload
  obtain ⟨loaded, fileMap, paths, hresult⟩ := exists_of_loadFromFiles hfiles
  obtain ⟨loaded', hfrom', hreloaded⟩ := hresult.reload order' hedits haccepted
  obtain ⟨config', hload', hvisible'⟩ :=
    @exists_loadConfig _ libs fs' order' basePath hfrom'.isDir _ hfrom'.defaultProfile
  refine ⟨config', hload', ?_⟩
  rw [hvisible', hresult.resolved, hreloaded.defaultProfile.content,
    hreloaded.defaultProfile.sourcePath]
  rfl

omit order' in
/-- The backend of an accepted cache knows what is visible now, if nothing that the default
profile leads to is newly imported. -/
theorem exists_backend_of_accepted
    (hnothing : NothingNewVisible libs fs' config config.profileStore.defaultProfile) {fuel : Nat}
    (hfuel : config.matchStore.indexedFiles.files.length < fuel)
    (regexIsMatch : String → String → Bool) (runtime : Runtime) (nextId : Int32) :
    ∃ adapter, RendererAdapter.new runtime nextId (config.activeProfile regexIsMatch)
        config.matchStore fuel = some (.ok adapter)
      ∧ adapter.runtime = runtime
      ∧ adapter.Knows (VisibleFile libs fs' config.profileStore.defaultProfile) := by
  obtain ⟨errors, hfiles⟩ := loadConfig_ok_iff.mp hload
  obtain ⟨loaded, fileMap, paths, hresult⟩ := exists_of_loadFromFiles hfiles
  rw [← visibleFile_eq hresult hedits haccepted List.mem_cons_self hnothing]
  exact exists_backend hload hfuel regexIsMatch runtime nextId

/-- **The backend of the cache is as good as that of a fresh load**. -/
theorem bothKnow_of_accepted
    (hnothing : NothingNewVisible libs fs' config config.profileStore.defaultProfile) :
    ∃ config', loadConfig libs fs' order' basePath = some (.ok config')
      ∧ BothKnow (VisibleFile libs fs' config'.profileStore.defaultProfile) config config' := by
  obtain ⟨config', hload', hsame⟩ := exists_fresh order' hload hedits haccepted
  refine ⟨config', hload', fun regexIsMatch runtime nextId fuel hfuel hfuel' => ?_⟩
  obtain ⟨adapter, hnew, _, hknows⟩ := exists_backend_of_accepted hload hedits haccepted hnothing
    hfuel regexIsMatch runtime nextId
  obtain ⟨adapter', hnew', _, hknows'⟩ := exists_backend hload' hfuel' regexIsMatch runtime nextId
  rw [← hsame] at hknows
  exact ⟨adapter, adapter', hnew, hnew', hknows, hknows'⟩

end Fresh

/-- **What a cached backend knows.**  A cache that is accepted, after any edits each of which has a
later modification time than the cache, or deletes a file, holds all match files to which the
default profile leads now, exactly if none of these newly imports a file that is not recorded.
Then the backend of the cache knows what is in these files and nothing else, and so does the
backend of a fresh load. -/
theorem cached_knows {order : PathOrder} (order' : PathOrder) {basePath : PathBuf} {T : Nat}
    {config accepted : Configuration}
    (hload : loadConfig libs fs order basePath = some (.ok config)) (hedits : fs.Edits T fs')
    (haccept : loadCache libs fs' config T (PathBuf.join basePath "config") = .ok accepted) :
    ((∀ path, VisiblePath libs fs' accepted.profileStore.defaultProfile path →
          path ∈ accepted.matchStore.sourcePaths)
        ↔ NothingNewVisible libs fs' accepted accepted.profileStore.defaultProfile)
      ∧ (NothingNewVisible libs fs' accepted accepted.profileStore.defaultProfile →
        ∃ config', loadConfig libs fs' order' basePath = some (.ok config')
          ∧ BothKnow (VisibleFile libs fs' config'.profileStore.defaultProfile) accepted
            config') := by
  obtain ⟨rfl, haccepted⟩ := loadCache_ok haccept
  obtain ⟨errors, hfiles⟩ := loadConfig_ok_iff.mp hload
  obtain ⟨loaded, fileMap, paths, hresult⟩ := exists_of_loadFromFiles hfiles
  exact ⟨recorded_iff hresult hedits haccepted List.mem_cons_self,
    bothKnow_of_accepted order' hload hedits haccepted⟩

/-- A file is noted down that no profile leads to. -/
theorem cached_knows_noted :
    ∃ config config', loadConfig textLibraries filesThen .canonical "/shinran" = some (.ok config)
      ∧ loadCache textLibraries filesNoted config 2 "/shinran/config" = .ok config
      ∧ loadConfig textLibraries filesNoted .canonical "/shinran" = some (.ok config')
      ∧ BothKnow (VisibleFile textLibraries filesNoted config'.profileStore.defaultProfile) config
        config' := by
  have hedits : filesThen.Edits 2 filesNoted := .single (.write _ _ _ (by decide))
  obtain ⟨config, hload, haccept, hall⟩ : ∃ config,
      loadConfig textLibraries filesThen .canonical "/shinran" = some (.ok config)
        ∧ loadCache textLibraries filesNoted config 2 "/shinran/config" = .ok config
        ∧ ∀ path ∈ filesNoted.files.keys,
          ((matchLoader textLibraries filesNoted).importGraph path).isSome →
            path ∈ config.matchStore.sourcePaths := ⟨_, rfl, rfl, by decide⟩
  obtain ⟨hiff, hsame⟩ := cached_knows .canonical hload hedits haccept
  have hnothing := hiff.mp fun path hpath => hall path hpath.mem_keys hpath.1
  obtain ⟨config', hload', hknow⟩ := hsame hnothing
  exact ⟨config, config', hload, haccept, hload', hknow⟩

end Shinran
