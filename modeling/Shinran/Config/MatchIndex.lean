/-
  Shinran.Config.MatchIndex
  ─────────────────────────
  **THE INDEX OF THE MATCH FILES.**

  Loading appends every file to a list and enters its position into a map, on
  the way down into the files that it imports.

    • `LoadState.Faithful`    — the list, the map, and the list with its imports
                                replaced by positions,
    • `loadMatchFilesRecursively_faithful` — loading ends in such a state,
                                whatever the imports.
-/
import Shinran.Config.MatchStoreCorrect

namespace Shinran

open DepthFirst

variable {ε : Type*} {loader : MatchLoader ε}

/-! ## §1. More fuel. -/

theorem loadEach_mono {recurse recurse' : List PathBuf → LoadState ε → Option (LoadState ε)}
    (hrec : ∀ {imports st st'}, recurse imports st = some st' → recurse' imports st = some st') :
    ∀ (paths : List PathBuf) (st : LoadState ε) {st' : LoadState ε},
      loadEach loader recurse paths st = some st' → loadEach loader recurse' paths st = some st'
  | [], _, _, h => h
  | path :: paths, st, st', h => by
      unfold loadEach at h ⊢
      by_cases hseen : (st.matchFileMap.lookup path).isSome
      · rw [if_pos hseen] at h ⊢
        exact loadEach_mono hrec paths st h
      · rw [if_neg hseen] at h ⊢
        cases hload : loader.loadMatchFile path with
        | error err =>
            simp only [hload] at h ⊢
            exact loadEach_mono hrec paths _ h
        | ok result =>
            obtain ⟨group, errors⟩ := result
            simp only [hload] at h ⊢
            cases hbelow : recurse group.importPaths (st.add path group errors) with
            | none =>
                rw [hbelow] at h
                cases h
            | some below =>
                rw [hbelow] at h
                rw [hrec hbelow]
                exact loadEach_mono hrec paths below h

/-- What loading returns does not change with more fuel. -/
theorem loadMatchFilesRecursively_mono :
    ∀ {fuel fuel' : Nat}, fuel ≤ fuel' → ∀ {paths : List PathBuf} {st st' : LoadState ε},
      loadMatchFilesRecursively loader fuel paths st = some st' →
        loadMatchFilesRecursively loader fuel' paths st = some st'
  | 0, _, _, _, _, _, h => by cases h
  | fuel + 1, 0, hle, _, _, _, _ => absurd hle (Nat.not_succ_le_zero fuel)
  | _ + 1, _ + 1, hle, paths, st, _, h =>
      loadEach_mono (loadMatchFilesRecursively_mono (Nat.le_of_succ_le_succ hle)) paths st h

/-! ## §2. The index. -/

/-- The store that `MatchStore::load` returns. -/
def LoadState.store (st : LoadState ε) : MatchStore := ⟨st.loadedFiles.resolve st.matchFileMap⟩

/-- **A faithful index** of what the root paths reach. -/
structure LoadState.Faithful (loader : MatchLoader ε) (rootPaths : List PathBuf)
    (st : LoadState ε) : Prop where
  /-- The map has the paths that load and are reached by way of files that load. -/
  reached : ∀ path, (st.matchFileMap.lookup path).isSome ↔
    (loader.importGraph path).isSome ∧ ∃ root ∈ rootPaths, Reaches loader.importGraph root path
  /-- It is one-to-one, -/
  injective : ∀ path path' ref, st.matchFileMap.lookup path = some ref →
    st.matchFileMap.lookup path' = some ref → path = path'
  /-- and onto the positions of the list. -/
  surjective : ∀ idx, idx < st.loadedFiles.files.length ↔
    ∃ path, st.matchFileMap.lookup path = some ⟨idx⟩
  /-- A path has the position of the file that was loaded from it, and the file keeps the position
  when its imports are replaced. -/
  placed : ∀ path ref, st.matchFileMap.lookup path = some ref →
    ∃ group, loader.Loads path group ∧ st.loadedFiles.files[ref.idx]? = some group ∧
      st.store.indexedFiles.files[ref.idx]? = some {
        imports := group.importPaths.filterMap fun path => st.matchFileMap.lookup path
        content := group.content
        sourcePath := path }
  length_eq : st.store.indexedFiles.files.length = st.loadedFiles.files.length
  /-- Whoever has a position, a file or a profile, has it in range. -/
  importInRange : ∀ file ∈ st.store.indexedFiles.files, ∀ ref ∈ file.imports,
    ref.idx < st.store.indexedFiles.files.length
  profileInRange : ∀ loaded : LoadedProfileFile,
    ∀ ref ∈ (ProfileFile.fromLoadedProfile loaded st.matchFileMap).matchFilePaths,
      ref.idx < st.store.indexedFiles.files.length

section Holds

variable {st : LoadState ε} {paths : List PathBuf}

theorem LoadState.Holds.lookup_lt (h : st.Holds loader paths) {path : PathBuf} {ref : MatchFileRef}
    (href : st.matchFileMap.lookup path = some ref) :
    ref.idx < st.loadedFiles.files.length ∧ paths[ref.idx]? = some path := by
  rw [h.lookup] at href
  by_cases hmem : path ∈ paths
  · rw [if_pos hmem] at href
    cases href
    have hlt : paths.idxOf path < paths.length := List.idxOf_lt_length_iff.mpr hmem
    refine ⟨by rwa [← h.files.length_eq], ?_⟩
    rw [List.getElem?_eq_getElem hlt, List.getElem_idxOf hlt]
  · rw [if_neg hmem] at href
    cases href

theorem LoadState.Holds.length_store (h : st.Holds loader paths) :
    st.store.indexedFiles.files.length = st.loadedFiles.files.length :=
  h.indexes.files.length_eq.symm.trans h.files.length_eq

/-- What the search has visited is indexed faithfully. -/
theorem LoadState.Holds.faithful {rootPaths : List PathBuf} (h : st.Holds loader paths)
    (hpre : Preorder loader.importGraph rootPaths [] paths) : st.Faithful loader rootPaths where
  reached path := by
    rw [h.isSome_iff]
    exact (preorder_spec hpre).2 path
  injective path path' ref href href' := h.indexes.injective path path' ref href href'
  surjective idx := by
    constructor
    · intro hlt
      rw [← h.files.length_eq] at hlt
      refine ⟨paths[idx], ?_⟩
      rw [h.lookup, if_pos (List.getElem_mem hlt), h.nodup.idxOf_getElem]
    · rintro ⟨path, hlookup⟩
      exact (h.lookup_lt hlookup).1
  placed path ref href := by
    obtain ⟨hlt, hpath⟩ := h.lookup_lt href
    have hlt' : ref.idx < paths.length := by rwa [h.files.length_eq]
    have hloads := h.files.get hlt' hlt
    have heq : paths.get ⟨ref.idx, hlt'⟩ = path := by
      rw [List.getElem?_eq_getElem hlt'] at hpath
      exact Option.some.inj hpath
    rw [heq] at hloads
    refine ⟨_, hloads, List.getElem?_eq_getElem hlt, ?_⟩
    obtain ⟨errors, hload⟩ := hloads
    rw [← loader.sourcePath path _ errors hload]
    simp [LoadState.store, FileStore.resolve, List.getElem?_eq_getElem hlt]
  length_eq := h.length_store
  importInRange file hfile ref href := by
    obtain ⟨loaded, _, rfl⟩ := List.mem_map.mp hfile
    obtain ⟨path, _, hlookup⟩ := List.mem_filterMap.mp href
    rw [h.length_store]
    exact (h.lookup_lt hlookup).1
  profileInRange loaded ref href := by
    obtain ⟨path, _, hlookup⟩ := List.mem_filterMap.mp href
    rw [h.length_store]
    exact (h.lookup_lt hlookup).1

end Holds

/-- **Loading ends in a faithful index**, whatever the root paths and the imports, and with any
fuel that covers the files that load. -/
theorem loadMatchFilesRecursively_faithful (loader : MatchLoader ε) (rootPaths : List PathBuf) :
    ∃ st : LoadState ε,
      (∀ fuel, loader.files.length < fuel →
        loadMatchFilesRecursively loader fuel rootPaths {} = some st ∧
        MatchStore.load loader fuel rootPaths
          = some (st.store, st.matchFileMap, st.nonFatalErrorSets)) ∧
      st.Faithful loader rootPaths := by
  obtain ⟨paths, hpre, hwalk⟩ :=
    walk_eq MatchLoader.importGraph_mem_files (loader.files.length + 1) rootPaths []
      (Nat.lt_succ_of_le (unseen_le_length _ _))
  have hempty : LoadState.Holds loader {} [] := LoadState.holds_empty
  have hsim := loadMatchFilesRecursively_walk (loader.files.length + 1) rootPaths {} [] hempty
  rw [hwalk] at hsim
  cases hst : loadMatchFilesRecursively loader (loader.files.length + 1) rootPaths {} with
  | none => rw [hst] at hsim; cases hsim
  | some st =>
      rw [hst] at hsim
      cases hsim with
      | some h =>
          refine ⟨st, ?_, h.faithful hpre⟩
          intro fuel hfuel
          have hload := loadMatchFilesRecursively_mono hfuel hst
          exact ⟨hload, by rw [MatchStore.load, hload]; rfl⟩

end Shinran
