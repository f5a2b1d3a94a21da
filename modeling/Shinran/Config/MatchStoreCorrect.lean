/-
  Shinran.Config.MatchStoreCorrect
  ────────────────────────────────
  **A PROFILE SEES EXACTLY ITS REACHABLE MATCH FILES.**

  Loading walks the import graph on paths, querying walks the store graph on
  slots.  Both are runs of one depth-first search, and the map from paths to
  slots is a renaming of the one graph into the other.

    • `loadMatchFilesRecursively_walk` — loading simulates the search on paths,
    • `queryMatchesForPaths_walk`      — querying simulates the search on slots,
    • `MatchStore.load_eq`             — what the loaded store holds,
    • `MatchStore.collect_panics`      — a query panics only if it leads out of
                                         bounds, and then it does,
    • `Indexes.collect_eq`             — a query returns the files that the
                                         paths reach, in pre-order,
    • `load_collects`                  — the same of every profile after `load`.
-/
import Mathlib.Data.List.Dedup
import Shinran.Config.Profile
import Shinran.DepthFirst.Preorder

namespace Shinran

open DepthFirst

variable {ε : Type*}

/-! ## §1. The import graph. -/

/-- The files that load, with the paths that they import. -/
def MatchLoader.importGraph (loader : MatchLoader ε) : Graph PathBuf := fun path =>
  match loader.loadMatchFile path with
  | .ok (group, _) => some group.importPaths
  | .error _ => none

/-- The content of the file at a path; nothing, if it does not load. -/
def MatchLoader.contentOf (loader : MatchLoader ε) (path : PathBuf) : MatchFile :=
  match loader.loadMatchFile path with
  | .ok (group, _) => group.content
  | .error _ => {}

/-- The contents of several files, one after another. -/
def collectContents (contents : List MatchFile) : MatchesAndGlobalVars where
  triggerMatches := contents.flatMap (·.triggerMatches)
  regexMatches := contents.flatMap (·.regexMatches)
  globalVars := contents.flatMap (·.globalVars)

/-- `group` is the file at `path`. -/
def MatchLoader.Loads (loader : MatchLoader ε) (path : PathBuf) (group : LoadedMatchFile) :
    Prop :=
  ∃ errors, loader.loadMatchFile path = .ok (group, errors)

variable {loader : MatchLoader ε}

theorem MatchLoader.importGraph_isSome {path : PathBuf} :
    (loader.importGraph path).isSome ↔ ∃ group, loader.Loads path group := by
  unfold MatchLoader.importGraph MatchLoader.Loads
  cases loader.loadMatchFile path with
  | ok result => exact ⟨fun _ => ⟨result.1, result.2, rfl⟩, fun _ => rfl⟩
  | error err => simp

theorem MatchLoader.Loads.importGraph_eq {path : PathBuf} {group : LoadedMatchFile}
    (h : loader.Loads path group) : loader.importGraph path = some group.importPaths := by
  obtain ⟨errors, h⟩ := h
  simp [MatchLoader.importGraph, h]

theorem MatchLoader.Loads.contentOf_eq {path : PathBuf} {group : LoadedMatchFile}
    (h : loader.Loads path group) : loader.contentOf path = group.content := by
  obtain ⟨errors, h⟩ := h
  simp [MatchLoader.contentOf, h]

theorem MatchLoader.importGraph_mem_files (path : PathBuf)
    (h : (loader.importGraph path).isSome) : path ∈ loader.files := by
  obtain ⟨group, errors, hload⟩ := MatchLoader.importGraph_isSome.mp h
  exact loader.mem_files path group errors hload

/-! ## §2. Loading walks the import graph. -/

/-- The state holds the files of `paths`, in that order, each under its position. -/
structure LoadState.Holds (loader : MatchLoader ε) (st : LoadState ε) (paths : List PathBuf) :
    Prop where
  nodup : paths.Nodup
  files : List.Forall₂ loader.Loads paths st.loadedFiles.files
  lookup : ∀ path, st.matchFileMap.lookup path
    = if path ∈ paths then some ⟨paths.idxOf path⟩ else none

theorem LoadState.holds_empty : LoadState.Holds loader {} [] where
  nodup := .nil
  files := .nil
  lookup := fun path => by simp

theorem LoadState.Holds.isSome_iff {st : LoadState ε} {paths : List PathBuf}
    (h : st.Holds loader paths) (path : PathBuf) :
    (st.matchFileMap.lookup path).isSome ↔ path ∈ paths := by
  rw [h.lookup]
  split <;> simp [*]

/-- A file that loads takes the next slot. -/
theorem LoadState.Holds.add {st : LoadState ε} {paths : List PathBuf}
    (h : st.Holds loader paths) {path : PathBuf} (hnew : path ∉ paths)
    {group : LoadedMatchFile} {errors : Option (NonFatalErrorSet ε)}
    (hload : loader.loadMatchFile path = .ok (group, errors)) :
    (st.add path group errors).Holds loader (paths ++ [path]) where
  nodup := by
    rw [List.nodup_append]
    exact ⟨h.nodup, List.nodup_singleton _, fun a ha b hb hab => hnew (by simp_all)⟩
  files := List.rel_append h.files (.cons ⟨errors, hload⟩ .nil)
  lookup := by
    intro p
    show (st.matchFileMap.insert path _).lookup p = _
    -- the new path is found behind all others, which keep their positions
    by_cases hp : p = path
    · subst hp
      have hlen : st.loadedFiles.files.length = paths.length := h.files.length_eq.symm
      simp [AList.lookup_insert, FileStore.add, List.idxOf_append_of_notMem hnew, hlen]
    · rw [AList.lookup_insert_ne hp, h.lookup]
      by_cases hmem : p ∈ paths
      · simp [hmem, List.idxOf_append_of_mem hmem]
      · simp [hmem, hp]

/-- A file that does not load is only reported. -/
theorem LoadState.Holds.report {st : LoadState ε} {paths : List PathBuf}
    (h : st.Holds loader paths) (errorSets : List (NonFatalErrorSet ε)) :
    LoadState.Holds loader { st with nonFatalErrorSets := errorSets } paths :=
  ⟨h.nodup, h.files, h.lookup⟩

/-- The loop simulates that of the search, given that the recursions do. -/
theorem loadEach_walkEach {recurse : List PathBuf → LoadState ε → Option (LoadState ε)}
    {walk : List PathBuf → List PathBuf → Option (List PathBuf)}
    (hrec : ∀ imports st visited, st.Holds loader visited →
      Option.Rel (LoadState.Holds loader) (recurse imports st) (walk imports visited)) :
    ∀ (paths : List PathBuf) (st : LoadState ε) (visited : List PathBuf),
      st.Holds loader visited →
        Option.Rel (LoadState.Holds loader) (loadEach loader recurse paths st)
          (walkEach loader.importGraph walk paths visited)
  | [], st, visited, h => .some h
  | path :: paths, st, visited, h => by
      -- branch by branch: seen, not loading, loading
      unfold loadEach walkEach
      by_cases hseen : path ∈ visited
      · rw [if_pos ((h.isSome_iff path).mpr hseen), if_pos hseen]
        exact loadEach_walkEach hrec paths st visited h
      rw [if_neg (fun hsome => hseen ((h.isSome_iff path).mp hsome)), if_neg hseen]
      cases hload : loader.loadMatchFile path with
      | error err =>
          have hnode : loader.importGraph path = none := by
            simp [MatchLoader.importGraph, hload]
          simp only [hnode]
          exact loadEach_walkEach hrec paths _ visited (h.report _)
      | ok result =>
          obtain ⟨group, errors⟩ := result
          have hnode : loader.importGraph path = some group.importPaths := by
            simp [MatchLoader.importGraph, hload]
          have hbelow := hrec group.importPaths _ _ (h.add hseen hload)
          simp only [hnode]
          generalize recurse group.importPaths (st.add path group errors) = result at hbelow ⊢
          generalize walk group.importPaths (visited ++ [path]) = visited' at hbelow ⊢
          cases hbelow with
          | none => exact .none
          | some h' => exact loadEach_walkEach hrec paths _ _ h'

/-- **Loading is the search**, on every graph and with whatever fuel. -/
theorem loadMatchFilesRecursively_walk :
    ∀ (fuel : Nat) (paths : List PathBuf) (st : LoadState ε) (visited : List PathBuf),
      st.Holds loader visited →
        Option.Rel (LoadState.Holds loader) (loadMatchFilesRecursively loader fuel paths st)
          (walk loader.importGraph fuel paths visited)
  | 0, _, _, _, _ => .none
  | fuel + 1, paths, st, visited, h =>
      loadEach_walkEach (loadMatchFilesRecursively_walk fuel) paths st visited h

/-! ## §3. The loaded store. -/

/-- The slots of a store, with the slots that their files import. -/
def FileStore.importGraph (store : FileStore ResolvedMatchFile) : Graph MatchFileRef :=
  fun ref => store.files[ref.idx]?.map (·.imports)

/-- The content of the file in a slot. -/
def FileStore.contentAt (store : FileStore ResolvedMatchFile) (ref : MatchFileRef) :
    MatchFile :=
  (store.files[ref.idx]?.map (·.content)).getD {}

/-- The store holds the files of `paths`, in that order, and `fileMap` is the position of
each path; imports that are not among `paths` have been dropped. -/
structure MatchStore.Indexes (store : MatchStore) (loader : MatchLoader ε)
    (fileMap : HashMap PathBuf MatchFileRef) (paths : List PathBuf) : Prop where
  nodup : paths.Nodup
  files : List.Forall₂ (fun path file => ∃ group, loader.Loads path group
      ∧ file.imports = group.importPaths.filterMap (fun path => fileMap.lookup path)
      ∧ file.content = group.content ∧ file.sourcePath = path)
    paths store.indexedFiles.files
  lookup : ∀ path, fileMap.lookup path
    = if path ∈ paths then some ⟨paths.idxOf path⟩ else none

/-- Replacing paths by slots keeps every file in its place. -/
theorem LoadState.Holds.indexes {st : LoadState ε} {paths : List PathBuf}
    (h : st.Holds loader paths) :
    MatchStore.Indexes ⟨st.loadedFiles.resolve st.matchFileMap⟩ loader st.matchFileMap
      paths where
  nodup := h.nodup
  files := by
    show List.Forall₂ _ paths (st.loadedFiles.files.map _)
    rw [List.forall₂_map_right_iff]
    refine h.files.imp ?_
    intro path group hloads
    refine ⟨group, hloads, rfl, rfl, ?_⟩
    obtain ⟨errors, hload⟩ := hloads
    exact loader.sourcePath path group errors hload
  lookup := h.lookup

/-- **The loaded store**: with fuel for every file, loading returns a store of exactly the
files that the root paths reach, in depth-first pre-order. -/
theorem MatchStore.load_eq {fuel : Nat} (hfuel : loader.files.length < fuel)
    (rootPaths : List PathBuf) :
    ∃ store fileMap errors paths,
      MatchStore.load loader fuel rootPaths = some (store, fileMap, errors)
        ∧ Preorder loader.importGraph rootPaths [] paths
        ∧ store.Indexes loader fileMap paths := by
  obtain ⟨paths, hpre, hwalk⟩ := walk_eq MatchLoader.importGraph_mem_files fuel rootPaths []
    (Nat.lt_of_le_of_lt (unseen_le_length _ _) hfuel)
  -- the search returns with this fuel, so loading does
  have hsim : Option.Rel (LoadState.Holds loader)
      (loadMatchFilesRecursively loader fuel rootPaths {})
      (walk loader.importGraph fuel rootPaths []) :=
    loadMatchFilesRecursively_walk fuel rootPaths {} [] LoadState.holds_empty
  rw [hwalk] at hsim
  unfold MatchStore.load
  generalize loadMatchFilesRecursively loader fuel rootPaths {} = result at hsim ⊢
  cases hsim with
  | some h => exact ⟨_, _, _, paths, rfl, hpre, h.indexes⟩

section Indexes

variable {store : MatchStore} {fileMap : HashMap PathBuf MatchFileRef} {paths : List PathBuf}

/-- The file of a path, at its slot. -/
theorem MatchStore.Indexes.file (h : store.Indexes loader fileMap paths) {path : PathBuf}
    {ref : MatchFileRef} (href : fileMap.lookup path = some ref) :
    ∃ file group, store.indexedFiles.files[ref.idx]? = some file ∧ loader.Loads path group
      ∧ file.imports = group.importPaths.filterMap (fun path => fileMap.lookup path)
      ∧ file.content = group.content := by
  rw [h.lookup] at href
  by_cases hmem : path ∈ paths
  · rw [if_pos hmem, Option.some.injEq] at href
    subst href
    have hidx : paths.idxOf path < paths.length := List.idxOf_lt_length_iff.mpr hmem
    have hidx' := hidx
    rw [h.files.length_eq] at hidx'
    obtain ⟨group, hloads, himports, hcontent, _⟩ := h.files.get hidx hidx'
    rw [List.get_eq_getElem, List.getElem_idxOf] at hloads
    exact ⟨_, group, List.getElem?_eq_getElem hidx', hloads, himports, hcontent⟩
  · simp [hmem] at href

/-- Different paths have different slots. -/
theorem MatchStore.Indexes.injective (h : store.Indexes loader fileMap paths)
    (path path' : PathBuf) (ref : MatchFileRef) (href : fileMap.lookup path = some ref)
    (href' : fileMap.lookup path' = some ref) : path = path' := by
  rw [h.lookup] at href href'
  -- a slot is the position of its path
  by_cases hmem : path ∈ paths
  · by_cases hmem' : path' ∈ paths
    · rw [if_pos hmem] at href
      rw [if_pos hmem', ← href] at href'
      exact ((List.idxOf_inj hmem').mp (by simpa using href')).symm
    · simp [hmem'] at href'
  · simp [hmem] at href

/-- **The slots are a renaming of the paths**: a slot imports the slots of those imports of
its file that were loaded. -/
theorem MatchStore.Indexes.importGraph_eq (h : store.Indexes loader fileMap paths)
    (path : PathBuf) (ref : MatchFileRef) (href : fileMap.lookup path = some ref) :
    store.indexedFiles.importGraph ref
      = (loader.importGraph path).map (·.filterMap fun path => fileMap.lookup path) := by
  obtain ⟨file, group, hfile, hloads, himports, _⟩ := h.file href
  simp [FileStore.importGraph, hfile, hloads.importGraph_eq, himports]

theorem MatchStore.Indexes.contentAt_eq (h : store.Indexes loader fileMap paths)
    {path : PathBuf} {ref : MatchFileRef} (href : fileMap.lookup path = some ref) :
    store.indexedFiles.contentAt ref = loader.contentOf path := by
  obtain ⟨file, group, hfile, hloads, _, hcontent⟩ := h.file href
  simp [FileStore.contentAt, hfile, hloads.contentOf_eq, hcontent]

end Indexes

/-! ## §4. Querying walks the store graph. -/

/-- Everything that the slots lead to is a slot of the store. -/
def FileStore.InBounds (store : FileStore ResolvedMatchFile) (refs : List MatchFileRef) : Prop :=
  ∀ root ∈ refs, ∀ ref, Reaches store.importGraph root ref → (store.importGraph ref).isSome

/-- The state has taken over the files in the slots `refs`, in that order. -/
structure QueryState.Holds (store : FileStore ResolvedMatchFile) (st : QueryState)
    (refs : List MatchFileRef) : Prop where
  visited : st.visitedPaths = refs.reverse
  contents : (⟨st.visitedTriggerMatches, st.visitedRegexMatches, st.visitedGlobalVars⟩ :
    MatchesAndGlobalVars) = collectContents (refs.map store.contentAt)

theorem QueryState.holds_empty (store : FileStore ResolvedMatchFile) :
    QueryState.Holds store {} [] := ⟨rfl, rfl⟩

theorem QueryState.Holds.visit {store : FileStore ResolvedMatchFile} {st : QueryState}
    {refs : List MatchFileRef} (h : st.Holds store refs) (ref : MatchFileRef) :
    (st.visit ref (store.contentAt ref)).Holds store (refs ++ [ref]) where
  visited := by simp [QueryState.visit, h.visited]
  contents := by
    have hcontents := h.contents
    simp only [collectContents, MatchesAndGlobalVars.mk.injEq] at hcontents ⊢
    simp [QueryState.visit, hcontents]

/-- The query returned without a panic, with the files of `refs`. -/
def Queried (store : FileStore ResolvedMatchFile) (result : Except Panic QueryState)
    (refs : List MatchFileRef) : Prop :=
  ∃ st, result = .ok st ∧ st.Holds store refs

/-- The loop simulates that of the search, given that the recursions do. -/
theorem queryEach_walkEach {store : FileStore ResolvedMatchFile}
    {recurse : List MatchFileRef → QueryState → Option (Except Panic QueryState)}
    {walk : List MatchFileRef → List MatchFileRef → Option (List MatchFileRef)}
    (hrec : ∀ imports st visited, store.InBounds imports → st.Holds store visited →
      Option.Rel (Queried store) (recurse imports st) (walk imports visited)) :
    ∀ (refs : List MatchFileRef) (st : QueryState) (visited : List MatchFileRef),
      store.InBounds refs → st.Holds store visited →
        Option.Rel (Queried store) (queryEach store recurse refs st)
          (walkEach store.importGraph walk refs visited)
  | [], st, visited, _, h => .some ⟨st, rfl, h⟩
  | ref :: refs, st, visited, hrefs, h => by
      obtain ⟨hbelow, hrefs⟩ := List.forall_mem_cons.mp hrefs
      unfold queryEach walkEach
      have hmem : ref ∈ st.visitedPaths ↔ ref ∈ visited := by rw [h.visited, List.mem_reverse]
      by_cases hseen : ref ∈ visited
      · rw [if_pos (hmem.mpr hseen), if_pos hseen]
        exact queryEach_walkEach hrec refs st visited hrefs h
      rw [if_neg (fun hin => hseen (hmem.mp hin)), if_neg hseen]
      -- the slot is one of the store, and so are the slots that its file imports
      obtain ⟨imports, hnode⟩ := Option.isSome_iff_exists.mp (hbelow ref .refl)
      have himported : store.InBounds imports := fun root hroot ref' hreach =>
        hbelow ref' (.head (.of_mem hnode hroot) hreach)
      obtain ⟨file, hfile, himports⟩ := Option.map_eq_some_iff.mp hnode
      have hget : store.get ref = .ok file := by simp [FileStore.get, hfile]
      have hcontent : store.contentAt ref = file.content := by
        simp [FileStore.contentAt, hfile]
      have hsim := hrec imports _ _ himported (h.visit ref)
      rw [hcontent, ← himports] at hsim
      simp only [hget, hnode, ← himports]
      generalize recurse file.imports (st.visit ref file.content) = result at hsim ⊢
      generalize walk file.imports (visited ++ [ref]) = visited' at hsim ⊢
      cases hsim with
      | none => exact .none
      | some hqueried =>
          obtain ⟨st', rfl, h'⟩ := hqueried
          exact queryEach_walkEach hrec refs st' _ hrefs h'

/-- **Querying is the search**, as long as no slot out of bounds is reached. -/
theorem queryMatchesForPaths_walk {store : FileStore ResolvedMatchFile} :
    ∀ (fuel : Nat) (refs : List MatchFileRef) (st : QueryState) (visited : List MatchFileRef),
      store.InBounds refs → st.Holds store visited →
        Option.Rel (Queried store) (queryMatchesForPaths store fuel refs st)
          (walk store.importGraph fuel refs visited)
  | 0, _, _, _, _, _ => .none
  | fuel + 1, refs, st, visited, hrefs, h =>
      queryEach_walkEach (queryMatchesForPaths_walk fuel) refs st visited hrefs h

/-- The slots of a store, one after another. -/
def FileStore.slots (store : FileStore ResolvedMatchFile) : List MatchFileRef :=
  (List.range store.files.length).map MatchFileRef.mk

theorem FileStore.mem_slots {store : FileStore ResolvedMatchFile} (ref : MatchFileRef)
    (href : (store.importGraph ref).isSome) : ref ∈ store.slots := by
  rw [FileStore.importGraph, Option.isSome_map, Option.isSome_iff_exists] at href
  obtain ⟨file, hfile⟩ := href
  obtain ⟨hidx, _⟩ := List.getElem?_eq_some_iff.mp hfile
  exact List.mem_map.mpr ⟨ref.idx, List.mem_range.mpr hidx, rfl⟩

/-- Fuel for every slot is enough at the start. -/
theorem FileStore.unseen_slots_lt {store : FileStore ResolvedMatchFile} {fuel : Nat}
    (hfuel : store.files.length < fuel) : unseen store.slots [] < fuel :=
  Nat.lt_of_le_of_lt (unseen_le_length _ _) (by simpa [FileStore.slots] using hfuel)

/-- A query returns the files in pre-order of their slots. -/
theorem MatchStore.collect_preorder {store : MatchStore} {fuel : Nat}
    (hfuel : store.indexedFiles.files.length < fuel) {refs : List MatchFileRef}
    (hrefs : store.indexedFiles.InBounds refs) :
    ∃ visited, Preorder store.indexedFiles.importGraph refs [] visited
      ∧ store.collectMatchesAndGlobalVars fuel refs
        = some (.ok (collectContents (visited.map store.indexedFiles.contentAt))) := by
  obtain ⟨visited, hpre, hwalk⟩ := walk_eq FileStore.mem_slots fuel refs []
    (FileStore.unseen_slots_lt hfuel)
  refine ⟨visited, hpre, ?_⟩
  have hsim := queryMatchesForPaths_walk fuel refs {} [] hrefs (QueryState.holds_empty _)
  rw [hwalk] at hsim
  unfold MatchStore.collectMatchesAndGlobalVars
  generalize queryMatchesForPaths store.indexedFiles fuel refs {} = result at hsim ⊢
  cases hsim with
  | some hqueried =>
      obtain ⟨st, rfl, h⟩ := hqueried
      have hcontents := h.contents
      simp only [List.nil_append] at hcontents
      simp [Except.map, hcontents]

/-! ## §5. Slots out of bounds. -/

/-- From `st` to `st'` a query has visited `refs`, and what everything newly visited imports. -/
structure Covers (store : FileStore ResolvedMatchFile) (st : QueryState)
    (refs : List MatchFileRef) (st' : QueryState) : Prop where
  mono : ∀ ref ∈ st.visitedPaths, ref ∈ st'.visitedPaths
  start : ∀ ref ∈ refs, ref ∈ st'.visitedPaths
  closed : ∀ ref ∈ st'.visitedPaths, ref ∉ st.visitedPaths →
    ∃ imports, store.importGraph ref = some imports ∧ ∀ ref' ∈ imports, ref' ∈ st'.visitedPaths

/-- A file, then what it imports, then the other files. -/
theorem Covers.cons {store : FileStore ResolvedMatchFile} {st st₁ st' : QueryState}
    {ref : MatchFileRef} {imports refs : List MatchFileRef} {content : MatchFile}
    (hnode : store.importGraph ref = some imports)
    (hbelow : Covers store (st.visit ref content) imports st₁)
    (hrest : Covers store st₁ refs st') : Covers store st (ref :: refs) st' := by
  have hvisit : ∀ x ∈ (st.visit ref content).visitedPaths, x ∈ st'.visitedPaths :=
    fun x hx => hrest.mono x (hbelow.mono x hx)
  refine ⟨fun x hx => hvisit x (List.mem_cons_of_mem _ hx), ?_, ?_⟩
  · intro x hx
    cases List.mem_cons.mp hx with
    | inl heq => exact hvisit x (heq ▸ List.mem_cons_self)
    | inr hx => exact hrest.start x hx
  · intro x hx hnew
    by_cases hx₁ : x ∈ st₁.visitedPaths
    · -- what was visited before the rest is the file itself, or below it
      by_cases heq : x = ref
      · exact ⟨imports, heq ▸ hnode, fun y hy => hrest.mono y (hbelow.start y hy)⟩
      · have hnot : x ∉ (st.visit ref content).visitedPaths := by
          simp [QueryState.visit, heq, hnew]
        obtain ⟨imports', hnode', hclosed⟩ := hbelow.closed x hx₁ hnot
        exact ⟨imports', hnode', fun y hy => hrest.mono y (hclosed y hy)⟩
    · exact hrest.closed x hx hx₁

/-- The loop returns, given that the recursion does, and covers its slots if it does not
panic. -/
theorem queryEach_returns {store : FileStore ResolvedMatchFile} {fuel : Nat}
    {recurse : List MatchFileRef → QueryState → Option (Except Panic QueryState)}
    (hrec : ∀ imports st, unseen store.slots st.visitedPaths < fuel →
      ∃ result, recurse imports st = some result
        ∧ ∀ st', result = .ok st' → Covers store st imports st') :
    ∀ (refs : List MatchFileRef) (st : QueryState), unseen store.slots st.visitedPaths ≤ fuel →
      ∃ result, queryEach store recurse refs st = some result
        ∧ ∀ st', result = .ok st' → Covers store st refs st'
  | [], st, _ => by
      refine ⟨.ok st, rfl, ?_⟩
      intro st' h
      obtain rfl := Except.ok.inj h
      exact ⟨fun _ h => h, by simp, fun _ h hnot => absurd h hnot⟩
  | ref :: refs, st, hfuel => by
      unfold queryEach
      by_cases hseen : ref ∈ st.visitedPaths
      · rw [if_pos hseen]
        obtain ⟨result, hresult, hcovers⟩ := queryEach_returns hrec refs st hfuel
        refine ⟨result, hresult, ?_⟩
        intro st' h
        obtain ⟨hmono, hstart, hclosed⟩ := hcovers st' h
        exact ⟨hmono, List.forall_mem_cons.mpr ⟨hmono ref hseen, hstart⟩, hclosed⟩
      rw [if_neg hseen]
      cases hfile : store.files[ref.idx]? with
      | none =>
          -- the only panic: the slot is out of bounds
          simp only [FileStore.get, hfile]
          exact ⟨_, rfl, fun _ h => nomatch h⟩
      | some file =>
          have hnode : store.importGraph ref = some file.imports := by
            simp [FileStore.importGraph, hfile]
          have hlt : unseen store.slots (st.visit ref file.content).visitedPaths
              < unseen store.slots st.visitedPaths :=
            unseen_lt (fun _ => List.mem_cons_of_mem _)
              (FileStore.mem_slots ref (by simp [hnode])) hseen List.mem_cons_self
          obtain ⟨result, hresult, hbelow⟩ :=
            hrec file.imports (st.visit ref file.content) (by omega)
          simp only [FileStore.get, hfile, hresult]
          cases result with
          | error panic => exact ⟨_, rfl, fun _ h => nomatch h⟩
          | ok st₁ =>
              have hbelow := hbelow st₁ rfl
              have hle : unseen store.slots st₁.visitedPaths ≤ fuel :=
                Nat.le_trans (unseen_mono hbelow.mono) (by omega)
              obtain ⟨result, hresult, hrest⟩ := queryEach_returns hrec refs st₁ hle
              exact ⟨result, hresult, fun st' h => .cons hnode hbelow (hrest st' h)⟩

theorem queryMatchesForPaths_returns {store : FileStore ResolvedMatchFile} :
    ∀ (fuel : Nat) (refs : List MatchFileRef) (st : QueryState),
      unseen store.slots st.visitedPaths < fuel →
      ∃ result, queryMatchesForPaths store fuel refs st = some result
        ∧ ∀ st', result = .ok st' → Covers store st refs st'
  | 0, _, _, hfuel => by omega
  | fuel + 1, refs, st, hfuel =>
      queryEach_returns (fun imports st hlt => queryMatchesForPaths_returns fuel imports st hlt)
        refs st (by omega)

/-- **A query that leads out of bounds panics**, and any other returns. -/
theorem MatchStore.collect_panics {store : MatchStore} {fuel : Nat}
    (hfuel : store.indexedFiles.files.length < fuel) {refs : List MatchFileRef}
    (hrefs : ¬ store.indexedFiles.InBounds refs) :
    ∃ panic, store.collectMatchesAndGlobalVars fuel refs = some (.error panic) := by
  obtain ⟨result, hresult, hcovers⟩ := queryMatchesForPaths_returns fuel refs {}
    (FileStore.unseen_slots_lt hfuel)
  unfold MatchStore.collectMatchesAndGlobalVars
  rw [hresult]
  cases result with
  | error panic => exact ⟨panic, rfl⟩
  | ok st =>
      -- what has been visited is in bounds, and everything reached has been visited
      have h := hcovers st rfl
      refine absurd ?_ hrefs
      intro root hroot ref hreach
      have hvisited : ref ∈ st.visitedPaths := by
        refine hreach.mem_of_closed (p := (· ∈ st.visitedPaths)) (h.start root hroot) ?_
        intro x y hx hedge
        obtain ⟨imports, hnode, hclosed⟩ := h.closed x hx (by simp)
        obtain ⟨imports', hnode', hy⟩ := hedge
        obtain rfl := Option.some.inj (hnode.symm.trans hnode')
        exact hclosed y hy
      obtain ⟨imports, hnode, _⟩ := h.closed ref hvisited (by simp)
      simp [hnode]

/-! ## §6. What a profile sees. -/

section Indexes

variable {store : MatchStore} {fileMap : HashMap PathBuf MatchFileRef} {paths : List PathBuf}

/-- **No slot out of bounds is reached** from slots that the map names: each is the slot of a
file, whose imports have been replaced by slots that the map names. -/
theorem MatchStore.Indexes.inBounds (h : store.Indexes loader fileMap paths)
    (sources : List PathBuf) :
    store.indexedFiles.InBounds (sources.filterMap fun path => fileMap.lookup path) := by
  intro root hroot ref hreach
  -- being the slot of some path is closed under imports
  have hnamed : ∃ path, fileMap.lookup path = some ref := by
    refine hreach.mem_of_closed (p := fun ref => ∃ path, fileMap.lookup path = some ref) ?_ ?_
    · obtain ⟨path, _, hlookup⟩ := List.mem_filterMap.mp hroot
      exact ⟨path, hlookup⟩
    · intro x y hx hedge
      obtain ⟨path, hlookup⟩ := hx
      obtain ⟨imports, hnode, hy⟩ := hedge
      rw [h.importGraph_eq path x hlookup] at hnode
      obtain ⟨importPaths, _, rfl⟩ := Option.map_eq_some_iff.mp hnode
      obtain ⟨path', _, hlookup'⟩ := List.mem_filterMap.mp hy
      exact ⟨path', hlookup'⟩
  obtain ⟨path, hlookup⟩ := hnamed
  obtain ⟨file, group, hfile, _⟩ := h.file hlookup
  simp [FileStore.importGraph, hfile]

/-- The slots of loaded files hold their contents. -/
theorem MatchStore.Indexes.map_contentAt (h : store.Indexes loader fileMap paths) :
    ∀ sources : List PathBuf, (∀ path ∈ sources, path ∈ paths) →
      (sources.filterMap fun path => fileMap.lookup path).map store.indexedFiles.contentAt
        = sources.map loader.contentOf
  | [], _ => rfl
  | path :: sources, hsources => by
      obtain ⟨hmem, hsources⟩ := List.forall_mem_cons.mp hsources
      have hlookup := h.lookup path
      rw [if_pos hmem] at hlookup
      rw [List.filterMap_cons_some (f := fun path => fileMap.lookup path) hlookup,
        List.map_cons, List.map_cons, h.contentAt_eq hlookup, h.map_contentAt sources hsources]

/-- **The walk over the slots is the walk over the paths**, as far as all files that it
visits have been loaded. -/
theorem MatchStore.Indexes.preorder (h : store.Indexes loader fileMap paths)
    {sources visited : List PathBuf}
    (hpre : Preorder loader.importGraph sources [] visited)
    (hloaded : ∀ path ∈ visited, path ∈ paths) :
    Preorder store.indexedFiles.importGraph
      (sources.filterMap fun path => fileMap.lookup path) []
      (visited.filterMap fun path => fileMap.lookup path) :=
  hpre.rename (f := fun path => fileMap.lookup path) h.injective h.importGraph_eq
    fun path hpath => ⟨⟨paths.idxOf path⟩, by rw [h.lookup, if_pos (hloaded path hpath)]⟩

theorem MatchStore.Indexes.length_le (h : store.Indexes loader fileMap paths) :
    store.indexedFiles.files.length ≤ loader.files.length := by
  have hsub : paths ⊆ loader.files := by
    intro path hmem
    have hlookup := h.lookup path
    rw [if_pos hmem] at hlookup
    obtain ⟨_, group, _, ⟨errors, hload⟩, _⟩ := h.file hlookup
    exact loader.mem_files path group errors hload
  rw [← h.files.length_eq]
  exact (List.subperm_of_subset h.nodup hsub).length_le

/-- **A query sees the files that its paths reach**: the slots of paths whose files have
been loaded give the contents of the files in pre-order of the import graph. -/
theorem MatchStore.Indexes.collect_eq (h : store.Indexes loader fileMap paths)
    {fuel : Nat} (hfuel : loader.files.length < fuel) {sources visited : List PathBuf}
    (hpre : Preorder loader.importGraph sources [] visited)
    (hloaded : ∀ path ∈ visited, path ∈ paths) :
    store.collectMatchesAndGlobalVars fuel
        (sources.filterMap fun path => fileMap.lookup path)
      = some (.ok (collectContents (visited.map loader.contentOf))) := by
  obtain ⟨refs, hrefs, hcollect⟩ := MatchStore.collect_preorder
    (Nat.lt_of_le_of_lt h.length_le hfuel) (h.inBounds sources)
  -- the query visits the slots of the paths that a walk over the paths visits
  obtain rfl := (h.preorder hpre hloaded).unique hrefs
  rw [hcollect, h.map_contentAt visited hloaded]

end Indexes

/-- `load` returns a store that indexes the files that any of the profiles reaches. -/
theorem load_indexes {fuel : Nat} (hfuel : loader.files.length < fuel) (order : PathOrder)
    (profileStore : LoadedProfileStore) (nonFatalConfigErrors : List (NonFatalErrorSet ε)) :
    ∃ store fileMap errors paths,
      load loader order fuel profileStore nonFatalConfigErrors
          = some (.resolvePaths profileStore fileMap, store, errors)
        ∧ store.Indexes loader fileMap paths
        ∧ ∀ path, path ∈ paths ↔ (loader.importGraph path).isSome
          ∧ ∃ loaded ∈ profileStore.profiles, ∃ root ∈ loaded.matchFilePaths,
            Reaches loader.importGraph root path := by
  obtain ⟨store, fileMap, errors, paths, hload, hpre, hindexes⟩ :=
    MatchStore.load_eq hfuel (profileStore.getAllMatchFilePaths order)
  refine ⟨store, fileMap, nonFatalConfigErrors ++ errors, paths, by simp [load, hload],
    hindexes, fun path => ?_⟩
  -- the root paths from which everything is loaded are the paths of all profiles
  have hroot : ∀ root, root ∈ profileStore.getAllMatchFilePaths order
      ↔ ∃ loaded ∈ profileStore.profiles, root ∈ loaded.matchFilePaths := by
    intro root
    unfold LoadedProfileStore.getAllMatchFilePaths
    rw [(order.perm _).mem_iff, List.mem_dedup, List.mem_flatMap]
  rw [(preorder_spec hpre).2 path]
  simp only [hroot]
  grind

theorem ProfileStore.resolvePaths_profiles (profileStore : LoadedProfileStore)
    (fileMap : HashMap PathBuf MatchFileRef) :
    (ProfileStore.resolvePaths profileStore fileMap).profiles
      = profileStore.profiles.map (ProfileFile.fromLoadedProfile · fileMap) := rfl

/-- Every list of paths has a pre-order. -/
theorem MatchLoader.exists_preorder (loader : MatchLoader ε) (sources : List PathBuf) :
    ∃ visited, Preorder loader.importGraph sources [] visited := by
  obtain ⟨visited, hvisited, _⟩ := walk_eq MatchLoader.importGraph_mem_files
    (loader.files.length + 1) sources [] (Nat.lt_succ_of_le (unseen_le_length _ _))
  exact ⟨visited, hvisited⟩

/-- In the store, the profile sees exactly the files that `loaded` reaches: a query for its
slots returns, without a slot out of bounds, the contents of the files that its paths reach
through files that load, each once and in depth-first pre-order. -/
def SeesReachable (loader : MatchLoader ε) (fuel : Nat) (store : MatchStore)
    (loaded : LoadedProfileFile) (profile : ProfileFile) : Prop :=
  ∃ visited, Preorder loader.importGraph loaded.matchFilePaths [] visited
    ∧ visited.Nodup
    ∧ (∀ path, path ∈ visited ↔ (loader.importGraph path).isSome
        ∧ ∃ root ∈ loaded.matchFilePaths, Reaches loader.importGraph root path)
    ∧ store.collectMatchesAndGlobalVars fuel profile.matchFilePaths
      = some (.ok (collectContents (visited.map loader.contentOf)))

/-- **Every profile sees exactly its reachable match files**, with fuel for every file that
loads, whatever the imports and in whatever order the root paths are loaded. -/
theorem load_collects (loader : MatchLoader ε) (order : PathOrder) (fuel : Nat)
    (hfuel : loader.files.length < fuel) (profileStore : LoadedProfileStore)
    (nonFatalConfigErrors : List (NonFatalErrorSet ε)) :
    ∃ profiles store errors,
      load loader order fuel profileStore nonFatalConfigErrors
          = some (profiles, store, errors)
        ∧ List.Forall₂ (SeesReachable loader fuel store) profileStore.profiles
          profiles.profiles := by
  obtain ⟨store, fileMap, errors, paths, hload, hindexes, hpaths⟩ :=
    load_indexes hfuel order profileStore nonFatalConfigErrors
  refine ⟨_, store, errors, hload, ?_⟩
  rw [ProfileStore.resolvePaths_profiles, List.forall₂_map_right_iff, List.forall₂_same]
  intro loaded hprofile
  obtain ⟨visited, hvisited⟩ := loader.exists_preorder loaded.matchFilePaths
  obtain ⟨hnodup, hmem⟩ := preorder_spec hvisited
  refine ⟨visited, hvisited, hnodup, hmem, ?_⟩
  -- what one profile reaches, the root paths of all profiles reach
  refine hindexes.collect_eq hfuel hvisited fun path hpath => ?_
  obtain ⟨hnode, hreach⟩ := (hmem path).mp hpath
  exact (hpaths path).mpr ⟨hnode, loaded, hprofile, hreach⟩

/-- Two files that import each other; one imports itself as well, the other one a file that
does not exist. -/
def mutualImports : MatchLoader String where
  loadMatchFile path :=
    if path = "a.yml" then .ok (⟨["gone.yml", "b.yml"], {}, path⟩, none)
    else if path = "b.yml" then .ok (⟨["b.yml", "a.yml"], {}, path⟩, none)
    else .error "unable to load match group"
  sourcePath := by
    intro path group errors h
    split at h
    · cases h
      rfl
    · split at h
      · cases h
        rfl
      · cases h
  files := ["a.yml", "b.yml"]
  mem_files := by
    intro path group errors h
    by_cases ha : path = "a.yml"
    · simp [ha]
    · by_cases hb : path = "b.yml"
      · simp [hb]
      · simp [ha, hb] at h

theorem load_collects_mutual :
    mutualImports.files.length < 3
      ∧ ∃ profiles store errors,
        load mutualImports .canonical 3
            ⟨{ sourcePath := "default.yml", matchFilePaths := ["b.yml"] }, []⟩ []
          = some (profiles, store, errors)
          ∧ List.Forall₂ (SeesReachable mutualImports 3 store)
            [{ sourcePath := "default.yml", matchFilePaths := ["b.yml"] }] profiles.profiles :=
  ⟨by decide, load_collects mutualImports .canonical 3 (by decide) _ _⟩

end Shinran
