/-
  Shinran.Backend.CacheCorrect
  ────────────────────────────
  **WHEN AN ACCEPTED CACHE IS FRESH.**

  The files of a cache that has been accepted are what they were when they
  were loaded.  What a load would find now is therefore what the cache holds,
  except for one thing that the three grounds do not look at: a recorded match
  file may import a file that did not load then, and that does now.

    • `LoadResult.unchanged`  — recorded files have not changed,
    • `LoadResult.reload`     — the profiles of now are those of then,
    • `subset_of_reload`      — every recorded match file is found again,
    • `loadCache_fresh_iff`   — and nothing else, unless it is newly imported.
-/
import Shinran.Backend.Cache
import Shinran.Fallible

namespace Shinran

open DepthFirst

variable {ε : Type} {libs : Libraries ε} {fs fs' : FileSystem}

/-! ## §1. The same configuration. -/

/-- The path of the file in a slot. -/
def MatchStore.sourceAt (store : MatchStore) (ref : MatchFileRef) : Option PathBuf :=
  store.indexedFiles.files[ref.idx]?.map (·.sourcePath)

/-- The profiles agree, and select the same files, in whatever order. -/
structure SameProfile (store store' : MatchStore) (profile profile' : ProfileFile) : Prop where
  content : profile'.content = profile.content
  sourcePath : profile'.sourcePath = profile.sourcePath
  filter : profile'.filter = profile.filter
  matchFiles : (profile.matchFilePaths.map store.sourceAt).Perm
    (profile'.matchFilePaths.map store'.sourceAt)

/-- The same profiles and the same match files, in whatever order. -/
structure SameConfiguration (config config' : Configuration) : Prop where
  defaultProfile : SameProfile config.matchStore config'.matchStore
    config.profileStore.defaultProfile config'.profileStore.defaultProfile
  customProfiles : ∃ profiles, profiles.Perm config'.profileStore.customProfiles
    ∧ List.Forall₂ (SameProfile config.matchStore config'.matchStore)
      config.profileStore.customProfiles profiles
  matchFiles : (config.matchStore.indexedFiles.files.map fun file =>
      (file.sourcePath, file.content)).Perm
    (config'.matchStore.indexedFiles.files.map fun file => (file.sourcePath, file.content))

section Indexes

variable {loader : MatchLoader (LoadError ε)} {store : MatchStore}
  {fileMap : HashMap PathBuf MatchFileRef} {paths : List PathBuf}

/-- The files of the store are those at its paths. -/
theorem MatchStore.Indexes.files_eq (h : store.Indexes loader fileMap paths) :
    store.indexedFiles.files.map (fun file => (file.sourcePath, file.content))
      = paths.map fun path => (path, loader.contentOf path) := by
  have hfiles := h.files
  generalize store.indexedFiles.files = files at hfiles
  clear h
  induction hfiles with
  | nil => rfl
  | cons hfile _ ih =>
      obtain ⟨group, hloads, _, hcontent, hsource⟩ := hfile
      rw [List.map_cons, List.map_cons, ih, hsource, hcontent, hloads.contentOf_eq]

theorem MatchStore.Indexes.sourcePaths_eq (h : store.Indexes loader fileMap paths) :
    store.sourcePaths = paths := by
  have hfiles := congrArg (List.map Prod.fst) h.files_eq
  simpa [MatchStore.sourcePaths, Function.comp_def] using hfiles

/-- The slots of paths are the slots of those that have been loaded. -/
theorem MatchStore.Indexes.map_sourceAt (h : store.Indexes loader fileMap paths)
    (sources : List PathBuf) :
    (sources.filterMap fun path => fileMap.lookup path).map store.sourceAt
      = (sources.filter (· ∈ paths)).map some := by
  induction sources with
  | nil => rfl
  | cons path sources ih =>
      -- a path has a slot if it has been loaded; otherwise neither side sees it
      have hlookup := h.lookup path
      by_cases hmem : path ∈ paths
      · rw [if_pos hmem] at hlookup
        have hidx : paths.idxOf path < store.sourcePaths.length := by
          rw [h.sourcePaths_eq]
          exact List.idxOf_lt_length_iff.mpr hmem
        have hsource : store.sourceAt ⟨paths.idxOf path⟩ = some path := by
          have hget : store.sourcePaths[paths.idxOf path]? = some path := by
            rw [h.sourcePaths_eq, List.getElem?_eq_getElem (List.idxOf_lt_length_iff.mpr hmem),
              List.getElem_idxOf]
          rw [MatchStore.sourcePaths, List.getElem?_map] at hget
          exact hget
        rw [List.filterMap_cons_some (f := fun path => fileMap.lookup path) hlookup,
          List.map_cons, hsource, ih, List.filter_cons_of_pos (by simpa using hmem),
          List.map_cons]
      · rw [if_neg hmem] at hlookup
        rw [List.filterMap_cons_none (f := fun path => fileMap.lookup path) hlookup, ih,
          List.filter_cons_of_neg (by simpa using hmem)]

end Indexes

/-! ## §2. Unchanged files. -/

/-- The file is there in both file systems, and it is the same. -/
def Unchanged (fs fs' : FileSystem) (path : PathBuf) : Prop :=
  ∃ entry, fs.files.lookup path = some entry ∧ fs'.files.lookup path = some entry

theorem Unchanged.exists_ {path : PathBuf} (h : Unchanged fs fs' path) : fs.exists_ path := by
  obtain ⟨entry, hentry, _⟩ := h
  simp [FileSystem.exists_, FileSystem.isFile, hentry]

theorem Unchanged.symm {path : PathBuf} (h : Unchanged fs fs' path) : Unchanged fs' fs path := by
  obtain ⟨entry, hentry, hentry'⟩ := h
  exact ⟨entry, hentry', hentry⟩

theorem Unchanged.isFile {path : PathBuf} (h : Unchanged fs fs' path) : fs.isFile path := by
  obtain ⟨entry, hentry, _⟩ := h
  exact FileSystem.isFile_iff.mpr ⟨entry, hentry⟩

/-- An unchanged match file that loads still does, with the same content. -/
theorem Unchanged.loads {path : PathBuf} (h : Unchanged fs fs' path) {group : LoadedMatchFile}
    (hloads : (matchLoader libs fs).Loads path group) :
    ∃ group', (matchLoader libs fs').Loads path group' ∧ group'.content = group.content
      ∧ ∀ import_ ∈ group.importPaths, fs'.isFile import_ → import_ ∈ group'.importPaths := by
  obtain ⟨entry, hentry, hentry'⟩ := h
  obtain ⟨hsupported, entry', parsed, dir, hlookup, hparse, hdir, rfl⟩ :=
    loadMatchFile_ok_iff.mp hloads
  obtain rfl := Option.some.inj (hentry.symm.trans hlookup)
  -- the file parses to the same imports; an import is kept if it is a file now
  refine ⟨_, loadMatchFile_ok_iff.mpr ⟨hsupported, entry, parsed, dir, hentry', hparse, hdir,
    rfl⟩, rfl, ?_⟩
  intro import_ himport hfile
  obtain ⟨text, htext, hresolve⟩ := List.mem_filterMap.mp himport
  obtain ⟨hcanonical, _⟩ := resolveImport_toOption_eq_some.mp hresolve
  exact List.mem_filterMap.mpr ⟨text, htext,
    resolveImport_toOption_eq_some.mpr ⟨hcanonical, hfile⟩⟩

theorem Unchanged.isSome {path : PathBuf} (h : Unchanged fs fs' path)
    (hnode : ((matchLoader libs fs).importGraph path).isSome) :
    ((matchLoader libs fs').importGraph path).isSome := by
  obtain ⟨group, hloads⟩ := MatchLoader.importGraph_isSome.mp hnode
  obtain ⟨group', hloads', _⟩ := h.loads hloads
  exact MatchLoader.importGraph_isSome.mpr ⟨group', hloads'⟩

/-- An unchanged match file still imports what is there. -/
theorem Unchanged.edge {path import_ : PathBuf} (h : Unchanged fs fs' path)
    (himport : fs'.isFile import_)
    (hedge : Edge (matchLoader libs fs).importGraph path import_) :
    Edge (matchLoader libs fs').importGraph path import_ := by
  obtain ⟨group, hloads⟩ := MatchLoader.importGraph_isSome.mp hedge.isSome
  obtain ⟨group', hloads', _, himports⟩ := h.loads hloads
  obtain ⟨imports, hnode, hmem⟩ := hedge
  obtain rfl := Option.some.inj (hloads.importGraph_eq.symm.trans hnode)
  exact .of_mem hloads'.importGraph_eq (himports import_ hmem himport)

theorem Unchanged.contentOf_eq {path : PathBuf} (h : Unchanged fs fs' path)
    (hnode : ((matchLoader libs fs).importGraph path).isSome) :
    (matchLoader libs fs').contentOf path = (matchLoader libs fs).contentOf path := by
  obtain ⟨group, hloads⟩ := MatchLoader.importGraph_isSome.mp hnode
  obtain ⟨group', hloads', hcontent, _⟩ := h.loads hloads
  rw [hloads'.contentOf_eq, hloads.contentOf_eq, hcontent]

/-! ## §3. Profiles, loaded again. -/

/-- The same profile file, loaded from each of the file systems. -/
structure Reloaded (libs : Libraries ε) (fs fs' : FileSystem)
    (profile profile' : LoadedProfileFile) : Prop where
  content : profile'.content = profile.content
  sourcePath : profile'.sourcePath = profile.sourcePath
  filter : profile'.filter = profile.filter
  generated : ∃ matchPaths, generateMatchPaths libs fs profile.content profile.sourcePath
    = some matchPaths ∧ profile.matchFilePaths.Perm matchPaths
  generated' : ∃ matchPaths, generateMatchPaths libs fs' profile.content profile.sourcePath
    = some matchPaths ∧ profile'.matchFilePaths.Perm matchPaths

/-- **The globs select the same**, among the paths that exist. -/
theorem Reloaded.mem_iff {profile profile' : LoadedProfileFile}
    (h : Reloaded libs fs fs' profile profile') {path : PathBuf} (hexists : fs.exists_ path)
    (hexists' : fs'.exists_ path) :
    path ∈ profile.matchFilePaths ↔ path ∈ profile'.matchFilePaths := by
  obtain ⟨matchPaths, hpaths, hperm⟩ := h.generated
  obtain ⟨matchPaths', hpaths', hperm'⟩ := h.generated'
  rw [hperm.mem_iff, hperm'.mem_iff, mem_generateMatchPaths hpaths,
    mem_generateMatchPaths hpaths']
  simp only [hexists, hexists']

theorem Reloaded.nodup {profile profile' : LoadedProfileFile}
    (h : Reloaded libs fs fs' profile profile') : profile.matchFilePaths.Nodup := by
  obtain ⟨matchPaths, hpaths, hperm⟩ := h.generated
  exact hperm.nodup_iff.mpr (nodup_of_generateMatchPaths hpaths)

theorem Reloaded.nodup' {profile profile' : LoadedProfileFile}
    (h : Reloaded libs fs fs' profile profile') : profile'.matchFilePaths.Nodup := by
  obtain ⟨matchPaths, hpaths, hperm⟩ := h.generated'
  exact hperm.nodup_iff.mpr (nodup_of_generateMatchPaths hpaths)

/-- An unchanged profile file loads again. -/
theorem Unchanged.reload {order : PathOrder} {sourcePath : PathBuf}
    (h : Unchanged fs fs' sourcePath) (order' : PathOrder) {parent parent' : Option LoadedProfileFile}
    (hparent : parent'.map (·.content) = parent.map (·.content)) {profile : LoadedProfileFile}
    (hload : LoadedProfileFile.loadFromPath libs fs order sourcePath parent = .ok profile) :
    ∃ profile', LoadedProfileFile.loadFromPath libs fs' order' sourcePath parent' = .ok profile'
      ∧ Reloaded libs fs fs' profile profile' := by
  obtain ⟨entry, hentry, hentry'⟩ := h
  obtain ⟨_, matchPaths, _, _, hsource, hpaths, hmatchFilePaths⟩ :=
    loadFromPath_ok_iff.mp hload
  obtain ⟨matchPaths', hpaths', hload'⟩ := loadFromPath_of_unchanged order'
    (hentry'.trans hentry.symm) hparent hload
  refine ⟨_, hload', rfl, rfl, rfl, ⟨matchPaths, hsource ▸ hpaths, ?_⟩,
    ⟨matchPaths', hsource ▸ hpaths', order'.perm matchPaths'⟩⟩
  rw [hmatchFilePaths]
  exact order.perm matchPaths

/-- Two selections of the same elements, of which the one is related to the other. -/
theorem exists_perm_filterMap {α β γ : Type} {R : β → γ → Prop} {f : α → Option β}
    {f' : α → Option γ} {l l' : List α} (hnodup : l.Nodup) (hnodup' : l'.Nodup)
    (h : ∀ a ∈ l, ∀ b, f a = some b → a ∈ l' ∧ ∃ c, f' a = some c ∧ R b c)
    (h' : ∀ a ∈ l', (f' a).isSome → a ∈ l ∧ (f a).isSome) :
    ∃ m, m.Perm (l'.filterMap f') ∧ List.Forall₂ R (l.filterMap f) m := by
  -- pair each selected element with what the second selection makes of it
  refine ⟨(l.filter fun a => (f a).isSome).filterMap f', ?_, ?_⟩
  · have hperm : (l.filter fun a => (f a).isSome).Perm (l'.filter fun a => (f' a).isSome) := by
      rw [List.perm_ext_iff_of_nodup (hnodup.filter _) (hnodup'.filter _)]
      intro a
      rw [List.mem_filter, List.mem_filter]
      constructor
      · intro ha
        obtain ⟨b, hb⟩ := Option.isSome_iff_exists.mp ha.2
        obtain ⟨hmem, c, hc, _⟩ := h a ha.1 b hb
        exact ⟨hmem, by simp [hc]⟩
      · exact fun ha => h' a ha.1 ha.2
    have hall : (l'.filter fun a => (f' a).isSome).filterMap f' = l'.filterMap f' := by
      rw [List.filterMap_filter]
      refine List.filterMap_congr fun a _ => ?_
      cases f' a <;> rfl
    rw [← hall]
    exact hperm.filterMap f'
  · clear h' hnodup
    induction l with
    | nil => exact .nil
    | cons a l ih =>
        obtain ⟨ha, hl⟩ := List.forall_mem_cons.mp h
        cases hb : f a with
        | none => simpa [hb] using ih hl
        | some b =>
            obtain ⟨_, c, hc, hbc⟩ := ha b hb
            simpa [hb, hc] using ⟨hbc, ih hl⟩

/-- The profiles of two stores, file by file. -/
structure StoreReloaded (libs : Libraries ε) (fs fs' : FileSystem)
    (loaded loaded' : LoadedProfileStore) : Prop where
  defaultProfile : Reloaded libs fs fs' loaded.defaultProfile loaded'.defaultProfile
  customProfiles : ∃ profiles, profiles.Perm loaded'.customProfiles
    ∧ List.Forall₂ (Reloaded libs fs fs') loaded.customProfiles profiles

/-- Every profile has a counterpart, in both directions. -/
theorem StoreReloaded.exists_left {loaded loaded' : LoadedProfileStore}
    (h : StoreReloaded libs fs fs' loaded loaded') {profile' : LoadedProfileFile}
    (hprofile' : profile' ∈ loaded'.profiles) :
    ∃ profile ∈ loaded.profiles, Reloaded libs fs fs' profile profile' := by
  obtain ⟨profiles, hperm, hforall⟩ := h.customProfiles
  cases List.mem_cons.mp hprofile' with
  | inl heq => exact ⟨_, List.mem_cons_self, heq ▸ h.defaultProfile⟩
  | inr hmem =>
      obtain ⟨i, hi, rfl⟩ := List.mem_iff_getElem.mp (hperm.mem_iff.mpr hmem)
      have hi' : i < loaded.customProfiles.length := by rw [hforall.length_eq]; exact hi
      exact ⟨_, List.mem_cons_of_mem _ (List.getElem_mem hi'), hforall.get hi' hi⟩

theorem StoreReloaded.exists_right {loaded loaded' : LoadedProfileStore}
    (h : StoreReloaded libs fs fs' loaded loaded') {profile : LoadedProfileFile}
    (hprofile : profile ∈ loaded.profiles) :
    ∃ profile' ∈ loaded'.profiles, Reloaded libs fs fs' profile profile' := by
  obtain ⟨profiles, hperm, hforall⟩ := h.customProfiles
  cases List.mem_cons.mp hprofile with
  | inl heq => exact ⟨_, List.mem_cons_self, heq ▸ h.defaultProfile⟩
  | inr hmem =>
      obtain ⟨i, hi, rfl⟩ := List.mem_iff_getElem.mp hmem
      have hi' : i < profiles.length := by rw [← hforall.length_eq]; exact hi
      exact ⟨_, List.mem_cons_of_mem _ (hperm.mem_iff.mp (List.getElem_mem hi')),
        hforall.get hi hi'⟩

theorem mem_customFiles {order : PathOrder} {configDir configFile : PathBuf} :
    configFile ∈ customFiles fs order configDir
      ↔ (fs.isDir configDir ∧ PathBuf.parent configFile = some configDir)
        ∧ PathBuf.isSupported configFile ∧ fs.isFile configFile
        ∧ configFile ≠ PathBuf.join configDir "default.yml" := by
  unfold customFiles FileSystem.readDir
  rw [List.mem_filter, (order.perm _).mem_iff]
  by_cases hdir : fs.isDir configDir
  · simp only [hdir, if_true, Option.getD_some, List.mem_filter, FileSystem.mem_paths,
      FileSystem.exists_, Bool.or_eq_true, decide_eq_true_eq, Bool.and_eq_true]
    tauto
  · simp [hdir]

theorem allConfigFiles_eq {configDir : PathBuf} (h : fs.isDir configDir) :
    allConfigFiles fs configDir = some ((fs.paths.filter fun path =>
      PathBuf.parent path = some configDir).filter fun path =>
        PathBuf.isSupported path && fs.isFile path) := by
  simp [allConfigFiles, FileSystem.readDir, h]

/-! ## §4. The recorded files. -/

section Recorded

variable {order : PathOrder} {configDir : PathBuf} {T : Nat} {config : Configuration}
  {loaded loaded' : LoadedProfileStore} {fileMap fileMap' : HashMap PathBuf MatchFileRef}
  {paths paths' : List PathBuf}

/-- **Recorded files have not changed.** -/
theorem Accepted.unchanged (haccepted : Accepted libs fs' config T configDir)
    (hedits : fs.Edits T fs') {path : PathBuf} (hpath : path ∈ config.sourcePaths) :
    Unchanged fs fs' path := by
  obtain ⟨entry, hentry, hle⟩ := haccepted.recorded path hpath
  exact ⟨entry, hedits.unchanged hentry hle, hentry⟩

variable (hresult : LoadResult libs fs order configDir config.profileStore config.matchStore
  loaded fileMap paths)
include hresult

theorem LoadResult.profiles_eq : config.profileStore.profiles
    = loaded.profiles.map (ProfileFile.fromLoadedProfile · fileMap) := by
  rw [hresult.resolved]
  exact ProfileStore.resolvePaths_profiles loaded fileMap

/-- The recorded files: those of the profiles, and the match files. -/
theorem LoadResult.mem_sourcePaths {path : PathBuf} : path ∈ config.sourcePaths
    ↔ (∃ profile ∈ loaded.profiles, profile.sourcePath = path) ∨ path ∈ paths := by
  unfold Configuration.sourcePaths ProfileStore.sourcePaths
  rw [List.mem_append, hresult.profiles_eq, hresult.indexes.sourcePaths_eq, List.map_map,
    List.mem_map]
  rfl

/-- **The profiles are those of then**: the default profile loads again, and the custom
profiles are found again and no others. -/
theorem LoadResult.reload (order' : PathOrder) (hedits : fs.Edits T fs')
    (haccepted : Accepted libs fs' config T configDir) :
    ∃ loaded', LoadedProfileStore.LoadedFrom libs fs' order' configDir loaded'
      ∧ StoreReloaded libs fs fs' loaded loaded' := by
  have hfrom := hresult.loadedFrom
  have hdir : fs'.isDir configDir = fs.isDir configDir := by
    unfold FileSystem.isDir
    rw [hedits.directories]
  have hrecorded : ∀ profile ∈ loaded.profiles, Unchanged fs fs' profile.sourcePath :=
    fun profile hprofile => haccepted.unchanged hedits
      (hresult.mem_sourcePaths.mpr (.inl ⟨profile, hprofile, rfl⟩))
  obtain ⟨_, _, _, _, hsource, _⟩ := loadFromPath_ok_iff.mp hfrom.defaultProfile
  obtain ⟨default', hload', hreloaded⟩ :=
    (hsource ▸ hrecorded _ List.mem_cons_self).reload order' (Eq.refl (Option.map _ none))
      hfrom.defaultProfile
  have hparent : (some default').map (·.content)
      = (some loaded.defaultProfile).map (·.content) := congrArg some hreloaded.content
  refine ⟨⟨default', (customFiles fs' order' configDir).filterMap fun configFile =>
    (LoadedProfileFile.loadFromPath libs fs' order' configFile (some default')).toOption⟩,
    ⟨hdir ▸ hfrom.isDir, hload', rfl⟩, hreloaded, ?_⟩
  rw [hfrom.customProfiles]
  -- a profile recorded then loads now, and one that loads now was recorded
  refine exists_perm_filterMap nodup_customFiles nodup_customFiles ?_ ?_
  · intro configFile hfile profile hprofile
    have hmem : profile ∈ loaded.profiles := by
      refine List.mem_cons_of_mem _ ?_
      rw [hfrom.customProfiles]
      exact List.mem_filterMap.mpr ⟨configFile, hfile, hprofile⟩
    have hload := toOption_eq_some_iff.mp hprofile
    obtain ⟨_, _, _, _, hsource, _⟩ := loadFromPath_ok_iff.mp hload
    have hunchanged : Unchanged fs fs' configFile := hsource ▸ hrecorded profile hmem
    obtain ⟨hlisted, hsupported, _, hcustom⟩ := mem_customFiles.mp hfile
    refine ⟨mem_customFiles.mpr ⟨hdir ▸ hlisted, hsupported, hunchanged.symm.isFile, hcustom⟩,
      ?_⟩
    obtain ⟨profile', hload', hreloaded⟩ := hunchanged.reload order' hparent hload
    exact ⟨profile', toOption_eq_some_iff.mpr hload', hreloaded⟩
  · intro configFile hfile hprofile
    obtain ⟨profile', hprofile'⟩ := Option.isSome_iff_exists.mp hprofile
    obtain ⟨hlisted, hsupported, hisFile, hcustom⟩ := mem_customFiles.mp hfile
    -- a config file that is there now is recorded
    have hrecord : configFile ∈ config.sourcePaths := by
      refine haccepted.listed _ (allConfigFiles_eq hlisted.1) configFile ?_
      rw [List.mem_filter, List.mem_filter, FileSystem.mem_paths]
      simp [hlisted.2, hsupported, hisFile, FileSystem.exists_]
    have hunchanged := haccepted.unchanged hedits hrecord
    obtain ⟨profile, hload, _⟩ := hunchanged.symm.reload order hparent.symm
      (toOption_eq_some_iff.mp hprofile')
    exact ⟨mem_customFiles.mpr ⟨hdir ▸ hlisted, hsupported, hunchanged.isFile, hcustom⟩, by
      rw [hload]
      rfl⟩

theorem LoadResult.unchanged (hedits : fs.Edits T fs')
    (haccepted : Accepted libs fs' config T configDir) {path : PathBuf} (hpath : path ∈ paths) :
    Unchanged fs fs' path :=
  haccepted.unchanged hedits (hresult.mem_sourcePaths.mpr (.inr hpath))

/-- What a file from which the cached profiles are reached leads to has been recorded. -/
theorem LoadResult.mem_of_reaches {profile : LoadedProfileFile}
    (hprofile : profile ∈ loaded.profiles) {root path : PathBuf}
    (hroot : root ∈ profile.matchFilePaths)
    (hreach : Reaches (matchLoader libs fs).importGraph root path)
    (hnode : ((matchLoader libs fs).importGraph path).isSome) : path ∈ paths :=
  (hresult.mem_paths path).mpr ⟨hnode, profile, hprofile, root, hroot, hreach⟩

/-- **Every recorded match file is found again**: the imports that led to it then are still
there. -/
theorem subset_of_reload (hedits : fs.Edits T fs')
    (haccepted : Accepted libs fs' config T configDir)
    (hreloaded : StoreReloaded libs fs fs' loaded loaded')
    (hpaths' : ∀ path, path ∈ paths' ↔ ((matchLoader libs fs').importGraph path).isSome
      ∧ ∃ profile ∈ loaded'.profiles, ∃ root ∈ profile.matchFilePaths,
        Reaches (matchLoader libs fs').importGraph root path) :
    ∀ path ∈ paths, path ∈ paths' := by
  intro path hpath
  obtain ⟨hnode, profile, hprofile, root, hroot, hreach⟩ := (hresult.mem_paths path).mp hpath
  have hunchanged : ∀ q, Reaches (matchLoader libs fs).importGraph root q →
      ((matchLoader libs fs).importGraph q).isSome → Unchanged fs fs' q := fun q hq hsome =>
    hresult.unchanged hedits haccepted (hresult.mem_of_reaches hprofile hroot hq hsome)
  -- the same walk, from file to file, among files that are still there
  have hwalk : ∀ q, Reaches (matchLoader libs fs).importGraph root q →
      ((matchLoader libs fs).importGraph q).isSome →
        Reaches (matchLoader libs fs').importGraph root q := by
    intro q hq
    induction hq with
    | refl => exact fun _ => .refl
    | tail hrb hbq ih =>
        intro hsome
        have hb := hunchanged _ hrb hbq.isSome
        have hq := hunchanged _ (hrb.tail hbq) hsome
        exact (ih hbq.isSome).tail (hb.edge hq.symm.isFile hbq)
  have hrootnode : ((matchLoader libs fs).importGraph root).isSome := by
    cases hreach.cases_head with
    | inl heq => exact heq ▸ hnode
    | inr hstep =>
        obtain ⟨_, hedge, _⟩ := hstep
        exact hedge.isSome
  obtain ⟨profile', hprofile', hprofiles⟩ := hreloaded.exists_right hprofile
  have hroot' := hunchanged root .refl hrootnode
  exact (hpaths' path).mpr ⟨(hunchanged path hreach hnode).isSome hnode, profile', hprofile',
    root, (hprofiles.mem_iff hroot'.exists_ hroot'.symm.exists_).mp hroot,
    hwalk path hreach hnode⟩

/-- No recorded match file imports a file that is not recorded and that loads now. -/
def NothingNewImported (libs : Libraries ε) (fs' : FileSystem) (config : Configuration) : Prop :=
  ∀ path ∈ config.matchStore.sourcePaths, ∀ import_,
    Edge (matchLoader libs fs').importGraph path import_ →
    ((matchLoader libs fs').importGraph import_).isSome →
      import_ ∈ config.matchStore.sourcePaths

/-- **Nothing else is found**, unless a recorded match file newly imports it. -/
theorem superset_of_reload (hedits : fs.Edits T fs')
    (haccepted : Accepted libs fs' config T configDir)
    (hreloaded : StoreReloaded libs fs fs' loaded loaded')
    (hpaths' : ∀ path, path ∈ paths' ↔ ((matchLoader libs fs').importGraph path).isSome
      ∧ ∃ profile ∈ loaded'.profiles, ∃ root ∈ profile.matchFilePaths,
        Reaches (matchLoader libs fs').importGraph root path)
    (hnothing : NothingNewImported libs fs' config) : ∀ path ∈ paths', path ∈ paths := by
  intro path hpath
  obtain ⟨hnode, profile', hprofile', root, hroot, hreach⟩ := (hpaths' path).mp hpath
  obtain ⟨profile, hprofile, hprofiles⟩ := hreloaded.exists_left hprofile'
  -- the globs of the cached profile select the root now, so it is recorded
  have hrecorded : root ∈ config.sourcePaths := by
    obtain ⟨matchPaths, hgenerated, hperm⟩ := hprofiles.generated'
    refine haccepted.selected (.fromLoadedProfile profile fileMap) ?_ matchPaths hgenerated root
      (hperm.mem_iff.mp hroot)
    rw [hresult.profiles_eq]
    exact List.mem_map_of_mem hprofile
  have hunchanged := haccepted.unchanged hedits hrecorded
  have hroot' := (hprofiles.mem_iff hunchanged.exists_ hunchanged.symm.exists_).mpr hroot
  -- along the imports of now, from one recorded file to the next
  have hwalk : ∀ q, Reaches (matchLoader libs fs').importGraph root q →
      ((matchLoader libs fs').importGraph q).isSome → q ∈ paths := by
    intro q hq
    induction hq with
    | refl =>
        intro hsome
        exact hresult.mem_of_reaches hprofile hroot' .refl (hunchanged.symm.isSome hsome)
    | tail _ hbq ih =>
        intro hsome
        have hb := ih hbq.isSome
        rw [← hresult.indexes.sourcePaths_eq] at hb ⊢
        exact hnothing _ hb _ hbq hsome
  exact hwalk path hreach hnode

/-- A profile that selects the same recorded files. -/
theorem sameProfile_of_reloaded {loader' : MatchLoader (LoadError ε)} {matchStore' : MatchStore}
    (hindexes' : matchStore'.Indexes loader' fileMap' paths')
    (hunchanged : ∀ path ∈ paths, Unchanged fs fs' path)
    (hpaths : ∀ path, path ∈ paths ↔ path ∈ paths') {profile profile' : LoadedProfileFile}
    (hreloaded : Reloaded libs fs fs' profile profile') :
    SameProfile config.matchStore matchStore' (.fromLoadedProfile profile fileMap)
      (.fromLoadedProfile profile' fileMap') where
  content := hreloaded.content
  sourcePath := hreloaded.sourcePath
  filter := hreloaded.filter
  matchFiles := by
    show ((profile.matchFilePaths.filterMap _).map _).Perm
      ((profile'.matchFilePaths.filterMap _).map _)
    rw [hresult.indexes.map_sourceAt, hindexes'.map_sourceAt]
    refine List.Perm.map some ?_
    rw [List.perm_ext_iff_of_nodup (hreloaded.nodup.filter _) (hreloaded.nodup'.filter _)]
    intro path
    simp only [List.mem_filter, decide_eq_true_eq, ← hpaths]
    refine and_congr_left fun hpath => ?_
    exact hreloaded.mem_iff (hunchanged path hpath).exists_ (hunchanged path hpath).symm.exists_

end Recorded

/-! ## §5. Freshness. -/

theorem loadConfig_ok_iff {order : PathOrder} {basePath : PathBuf} {config : Configuration} :
    loadConfig libs fs order basePath = some (.ok config)
      ↔ ∃ errors, loadFromFiles libs fs order basePath
        = some (.ok (config.profileStore, config.matchStore, errors)) := by
  unfold loadConfig
  constructor
  · intro h
    obtain ⟨result, hload, hresult⟩ := Option.map_eq_some_iff.mp h
    cases result with
    | error err => cases hresult
    | ok result =>
        obtain ⟨profileStore, matchStore, errors⟩ := result
        cases hresult
        exact ⟨errors, hload⟩
  · intro h
    obtain ⟨errors, hload⟩ := h
    rw [hload]
    rfl

section Fresh

variable {order order' : PathOrder} {configDir : PathBuf} {config config' : Configuration}
  {loaded loaded' : LoadedProfileStore} {fileMap fileMap' : HashMap PathBuf MatchFileRef}
  {paths paths' : List PathBuf}

/-- Two loads that find the same files, unchanged, return the same configuration. -/
theorem sameConfiguration_of_paths
    (hresult : LoadResult libs fs order configDir config.profileStore config.matchStore
      loaded fileMap paths)
    (hresult' : LoadResult libs fs' order' configDir config'.profileStore config'.matchStore
      loaded' fileMap' paths')
    (hreloaded : StoreReloaded libs fs fs' loaded loaded')
    (hunchanged : ∀ path ∈ paths, Unchanged fs fs' path)
    (hpaths : ∀ path, path ∈ paths ↔ path ∈ paths') : SameConfiguration config config' where
  defaultProfile := by
    rw [hresult.resolved, hresult'.resolved]
    exact sameProfile_of_reloaded hresult hresult'.indexes hunchanged hpaths
      hreloaded.defaultProfile
  customProfiles := by
    obtain ⟨profiles, hperm, hforall⟩ := hreloaded.customProfiles
    refine ⟨profiles.map (ProfileFile.fromLoadedProfile · fileMap'), ?_, ?_⟩
    · rw [hresult'.resolved]
      exact hperm.map _
    · rw [hresult.resolved]
      show List.Forall₂ _ (loaded.customProfiles.map _) _
      rw [List.forall₂_map_left_iff, List.forall₂_map_right_iff]
      exact hforall.imp fun _ _ h =>
        sameProfile_of_reloaded hresult hresult'.indexes hunchanged hpaths h
  matchFiles := by
    rw [hresult.indexes.files_eq, hresult'.indexes.files_eq]
    -- an unchanged file has the same content
    have hcontents : paths.map (fun path => (path, (matchLoader libs fs).contentOf path))
        = paths.map fun path => (path, (matchLoader libs fs').contentOf path) := by
      refine List.map_congr_left fun path hpath => ?_
      rw [(hunchanged path hpath).contentOf_eq ((hresult.mem_paths path).mp hpath).1]
    rw [hcontents]
    exact ((List.perm_ext_iff_of_nodup hresult.indexes.nodup hresult'.indexes.nodup).mpr
      hpaths).map _

end Fresh

/-- **When an accepted cache is fresh.**  The cache holds what a load returned on `fs`, and
`fs'` is what later edits made of `fs`.  If the cache is accepted on `fs'`, a load on `fs'`
returns the same profiles and the same match files if and only if no recorded match file
newly imports a file. -/
theorem loadCache_fresh_iff {order order' : PathOrder} {basePath : PathBuf} {T : Nat}
    {config accepted : Configuration}
    (hload : loadConfig libs fs order basePath = some (.ok config))
    (hedits : fs.Edits T fs')
    (haccept : loadCache libs fs' config T (PathBuf.join basePath "config") = .ok accepted) :
    (∃ config', loadConfig libs fs' order' basePath = some (.ok config')
        ∧ SameConfiguration accepted config')
      ↔ NothingNewImported libs fs' config := by
  obtain ⟨errors, hload⟩ := loadConfig_ok_iff.mp hload
  obtain ⟨loaded, fileMap, paths, hresult⟩ := exists_of_loadFromFiles hload
  obtain ⟨rfl, haccepted⟩ := loadCache_ok haccept
  obtain ⟨loaded', hfrom', hreloaded⟩ :=
    hresult.reload order' hedits haccepted
  obtain ⟨profileStore', matchStore', errors', fileMap', paths', hload', hresult'⟩ :=
    loadFromFiles_eq hfrom'
  have hconfig' : loadConfig libs fs' order' basePath
      = some (.ok ⟨profileStore', matchStore'⟩) := loadConfig_ok_iff.mpr ⟨errors', hload'⟩
  have hsub := subset_of_reload hresult hedits haccepted hreloaded hresult'.mem_paths
  constructor
  · intro h path hpath import_ hedge hnode
    obtain ⟨config', hconfig, hsame⟩ := h
    obtain rfl : config' = ⟨profileStore', matchStore'⟩ := by
      simpa using hconfig.symm.trans hconfig'
    rw [hresult.indexes.sourcePaths_eq] at hpath
    -- the import is loaded now, so its path is among the paths of the same match files
    obtain ⟨_, profile, hprofile, root, hroot, hreach⟩ :=
      (hresult'.mem_paths path).mp (hsub path hpath)
    have himport : import_ ∈ paths' := (hresult'.mem_paths import_).mpr
      ⟨hnode, profile, hprofile, root, hroot, hreach.tail hedge⟩
    have hsources : accepted.matchStore.sourcePaths.Perm matchStore'.sourcePaths := by
      simpa [MatchStore.sourcePaths, Function.comp_def] using hsame.matchFiles.map Prod.fst
    rw [← hresult'.indexes.sourcePaths_eq] at himport
    exact hsources.mem_iff.mpr himport
  · intro hnothing
    refine ⟨_, hconfig', sameConfiguration_of_paths hresult hresult' hreloaded
      (fun path hpath => hresult.unchanged hedits haccepted hpath) fun path => ⟨hsub path, ?_⟩⟩
    exact superset_of_reload hresult hedits haccepted hreloaded hresult'.mem_paths hnothing path

/-! ## §6. An accepted cache that is not fresh. -/

/-- The libraries, on the few texts and paths below. -/
def textLibraries : Libraries String where
  parseConfig text := if text = "" then .ok {} else .error "invalid configuration"
  parseMatchFile text :=
    if text = "imports: [_emails.yml]" then .ok { imports := ["_emails.yml"] }
    else if text = "matches: [\x7btrigger: mail, replace: me\x7d]" then .ok
      { content := { triggerMatches :=
          [{ baseMatch := { effect := .text { body := "me" } }, triggers := ["mail"] }] } }
    else .error "invalid match file"
  compileRegex _ := .ok ()
  -- the standard include, which leaves out names that start with an underscore
  globMatches pattern path :=
    pattern = "/shinran/config/../match/**/[!_]*.yml"
      && PathBuf.parent path = some "/shinran/match"
      && PathBuf.extension path = some "yml"
      && (PathBuf.splitName path).2.getLast? ≠ some '_'
  canonical path := path

/-- A match file that imports a file that does not exist. -/
def filesThen : FileSystem where
  files := HashMap.insertEntries ∅ [("/shinran/config/default.yml", ⟨"", 1⟩),
    ("/shinran/match/base.yml", ⟨"imports: [_emails.yml]", 1⟩)]
  directories := ["/shinran", "/shinran/config", "/shinran/match"]

/-- Then the file is written, under a name that no glob selects. -/
def filesNow : FileSystem :=
  { filesThen with
    files := filesThen.files.insert "/shinran/match/_emails.yml"
      ⟨"matches: [\x7btrigger: mail, replace: me\x7d]", 3⟩ }

/-- Only a file that is neither selected nor imported is written. -/
def filesNoted : FileSystem :=
  { filesThen with
    files := filesThen.files.insert "/shinran/match/notes.txt" ⟨"to do", 3⟩ }

theorem filesThen_notNewer : filesThen.NotNewer 2 := by
  intro path entry h
  unfold filesThen at h
  dsimp only at h
  rw [HashMap.lookup_insertEntries, AList.lookup_empty, Option.or_none] at h
  have hmem := mem_of_lastEntry h
  simp only [List.mem_cons, Prod.mk.injEq, List.not_mem_nil, or_false] at hmem
  obtain ⟨_, rfl⟩ | ⟨_, rfl⟩ := hmem <;> decide

/-- **A stale cache is accepted**: the cache lacks the match file that is imported now. -/
theorem staleCache_accepted :
    ∃ config config',
      loadConfig textLibraries filesThen .canonical "/shinran" = some (.ok config)
        ∧ filesThen.NotNewer 2 ∧ filesThen.Edits 2 filesNow
        ∧ loadCache textLibraries filesNow config 2 "/shinran/config" = .ok config
        ∧ loadConfig textLibraries filesNow .canonical "/shinran" = some (.ok config')
        ∧ ¬ SameConfiguration config config' := by
  refine ⟨_, _, rfl, filesThen_notNewer, .single (.write _ _ _ (by decide)), rfl, rfl, ?_⟩
  intro h
  have hlength := h.matchFiles.length_eq
  revert hlength
  decide

theorem loadCache_fresh_iff_noted :
    ∃ config, loadConfig textLibraries filesThen .canonical "/shinran" = some (.ok config)
      ∧ filesThen.Edits 2 filesNoted
      ∧ loadCache textLibraries filesNoted config 2 "/shinran/config" = .ok config
      ∧ ((∃ config', loadConfig textLibraries filesNoted .canonical "/shinran"
              = some (.ok config')
            ∧ SameConfiguration config config')
          ↔ NothingNewImported textLibraries filesNoted config) := by
  have hedits : filesThen.Edits 2 filesNoted := .single (.write _ _ _ (by decide))
  obtain ⟨config, hload, haccept⟩ : ∃ config,
      loadConfig textLibraries filesThen .canonical "/shinran" = some (.ok config)
        ∧ loadCache textLibraries filesNoted config 2 "/shinran/config" = .ok config :=
    ⟨_, rfl, rfl⟩
  exact ⟨config, hload, hedits, haccept, loadCache_fresh_iff hload hedits haccept⟩

end Shinran
