/-
  Shinran.Config.ErrorReports
  ───────────────────────────
  **HOW OFTEN A BROKEN MATCH FILE IS REPORTED.**

  A file that loads is entered into the map of match files, so that its
  warnings are reported when it is first met and never again.  A file that
  does not load leaves nothing behind in the map: it is read again, and
  reported again, wherever else a path leads to it.

    • `LoadState.Reports`      — what a part of the search adds to the reports,
    • `MatchStore.load_reports` — the reports of a whole load, counted,
    • `LedToOnce`              — one path leads to a file, and no other one,
    • `reportedOnce_iff`       — every broken file is reported once if and only
                                 if one path leads to each of them.
-/
import Shinran.Config.Load
import Shinran.Config.MatchIndex

namespace Shinran

open DepthFirst

/-! ## §1. What is reported where. -/

section Reports

variable {ε : Type*} {loader : MatchLoader ε}

/-- The paths that a file imports; none, if it does not load. -/
def MatchLoader.importsOf (loader : MatchLoader ε) (path : PathBuf) : List PathBuf :=
  (loader.importGraph path).getD []

/-- The file does not load. -/
def MatchLoader.fails (loader : MatchLoader ε) (path : PathBuf) : Bool :=
  (loader.importGraph path).isNone

/-- The file loads, with errors that are not fatal. -/
def MatchLoader.warns (loader : MatchLoader ε) (path : PathBuf) : Bool :=
  match loader.loadMatchFile path with
  | .ok (_, errors) => errors.isSome
  | .error _ => false

/-- The errors of a file that loads are reported under its own path. -/
def MatchLoader.ReportsItself (loader : MatchLoader ε) : Prop :=
  ∀ path group errors, loader.loadMatchFile path = .ok (group, some errors) → errors.file = path

/-- The files that the error sets are about. -/
def reportedFiles (errors : List (NonFatalErrorSet ε)) : List PathBuf := errors.map (·.file)

theorem MatchLoader.fails_iff {path : PathBuf} :
    loader.fails path ↔ loader.importGraph path = none := by
  simp [MatchLoader.fails]

/-- The error set of a file that loads names that file, once. -/
theorem MatchLoader.ReportsItself.reportedFiles_toList (hself : loader.ReportsItself)
    {path : PathBuf} {group : LoadedMatchFile} {errors : Option (NonFatalErrorSet ε)}
    (hload : loader.loadMatchFile path = .ok (group, errors)) :
    reportedFiles errors.toList = [path].filter loader.warns := by
  cases errors with
  | none => simp [reportedFiles, MatchLoader.warns, hload]
  | some set =>
      have hfile : set.file = path := hself path group set hload
      simp [reportedFiles, MatchLoader.warns, hload, hfile]

/-- What the search holds has loaded. -/
theorem LoadState.Holds.isSome {st : LoadState ε} {visited : List PathBuf}
    (h : st.Holds loader visited) {path : PathBuf} (hmem : path ∈ visited) :
    (loader.importGraph path).isSome := by
  obtain ⟨idx, hlt, rfl⟩ := List.getElem_of_mem hmem
  exact MatchLoader.importGraph_isSome.mpr
    ⟨_, h.files.get hlt (by rwa [← h.files.length_eq])⟩

/-- From `st` to `st'` the search has followed `paths` and met `new`.  It has reported every path
that failed, wherever that path was listed, and every new file that has warnings. -/
structure LoadState.Reports (loader : MatchLoader ε) (paths : List PathBuf) (st st' : LoadState ε)
    (visited new : List PathBuf) : Prop where
  holds : st'.Holds loader (visited ++ new)
  count : ∀ path, (reportedFiles st'.nonFatalErrorSets).count path
    = (reportedFiles st.nonFatalErrorSets).count path
      + ((paths ++ new.flatMap loader.importsOf).filter loader.fails).count path
      + (new.filter loader.warns).count path

theorem LoadState.Reports.nil {st : LoadState ε} {visited : List PathBuf}
    (h : st.Holds loader visited) : LoadState.Reports loader [] st st visited [] where
  holds := by simpa using h
  count path := by simp

/-- A path that leads to a file loaded before is not a reason to report anything. -/
theorem LoadState.Reports.seen {path : PathBuf} {paths : List PathBuf} {st st' : LoadState ε}
    {visited new : List PathBuf} (hloads : (loader.importGraph path).isSome)
    (h : LoadState.Reports loader paths st st' visited new) :
    LoadState.Reports loader (path :: paths) st st' visited new where
  holds := h.holds
  count file := by
    have hfails : loader.fails path = false := by
      simpa [MatchLoader.fails, ← Option.isSome_iff_ne_none] using hloads
    rw [h.count file, List.cons_append, List.filter_cons_of_neg (by simp [hfails])]

/-- A path that fails is reported, and then forgotten. -/
theorem LoadState.Reports.failing {path : PathBuf} {paths : List PathBuf} {st st' : LoadState ε}
    {visited new : List PathBuf} {err : ε} (hload : loader.loadMatchFile path = .error err)
    (h : LoadState.Reports loader paths { st with
      nonFatalErrorSets := st.nonFatalErrorSets ++ [.singleError path err] } st' visited new) :
    LoadState.Reports loader (path :: paths) st st' visited new where
  holds := h.holds
  count file := by
    have hfails : loader.fails path = true := by
      simp [MatchLoader.fails, MatchLoader.importGraph, hload]
    rw [h.count file, List.cons_append, List.filter_cons_of_pos hfails, List.count_cons]
    simp only [reportedFiles, NonFatalErrorSet.singleError, List.map_append, List.map_cons,
      List.map_nil, List.count_append, List.count_cons, List.count_nil]
    omega

/-- A file that loads: its own warnings, what is below it, and the paths behind it. -/
theorem LoadState.Reports.loading (hself : loader.ReportsItself) {path : PathBuf}
    {paths : List PathBuf} {st below st' : LoadState ε} {visited new₁ new₂ : List PathBuf}
    {group : LoadedMatchFile} {errors : Option (NonFatalErrorSet ε)}
    (hload : loader.loadMatchFile path = .ok (group, errors))
    (h₁ : LoadState.Reports loader group.importPaths (st.add path group errors) below
      (visited ++ [path]) new₁)
    (h₂ : LoadState.Reports loader paths below st' (visited ++ [path] ++ new₁) new₂) :
    LoadState.Reports loader (path :: paths) st st' visited (path :: (new₁ ++ new₂)) where
  holds := by simpa using h₂.holds
  count file := by
    have hnode : loader.importGraph path = some group.importPaths := by
      simp [MatchLoader.importGraph, hload]
    have hfails : loader.fails path = false := by simp [MatchLoader.fails, hnode]
    have hskip : ∀ files, (path :: files).filter loader.fails = files.filter loader.fails :=
      fun files => List.filter_cons_of_neg (by simp [hfails])
    have himports : loader.importsOf path = group.importPaths := by
      simp [MatchLoader.importsOf, hnode]
    have hadd : (reportedFiles (st.add path group errors).nonFatalErrorSets).count file
        = (reportedFiles st.nonFatalErrorSets).count file
          + ([path].filter loader.warns).count file := by
      rw [← hself.reportedFiles_toList hload]
      simp [LoadState.add, reportedFiles]
    have hwarns : ((path :: (new₁ ++ new₂)).filter loader.warns).count file
        = ([path].filter loader.warns).count file + (new₁.filter loader.warns).count file
          + (new₂.filter loader.warns).count file := by
      rw [← List.singleton_append, List.filter_append, List.filter_append, List.count_append,
        List.count_append]
      omega
    rw [h₂.count file, h₁.count file, hadd, hwarns, List.cons_append, hskip, List.flatMap_cons,
      List.flatMap_append, himports]
    simp only [List.filter_append, List.count_append]
    omega

/-- The loop, given that the recursions report what they should. -/
theorem loadEach_reports (hself : loader.ReportsItself)
    {recurse : List PathBuf → LoadState ε → Option (LoadState ε)}
    (hrec : ∀ {imports st st' visited}, st.Holds loader visited → recurse imports st = some st' →
      ∃ new, LoadState.Reports loader imports st st' visited new) :
    ∀ (paths : List PathBuf) (st : LoadState ε) {st' : LoadState ε} {visited : List PathBuf},
      st.Holds loader visited → loadEach loader recurse paths st = some st' →
        ∃ new, LoadState.Reports loader paths st st' visited new
  | [], st, st', visited, h, hrun => by
      cases hrun
      exact ⟨[], .nil h⟩
  | path :: paths, st, st', visited, h, hrun => by
      unfold loadEach at hrun
      by_cases hseen : (st.matchFileMap.lookup path).isSome
      · rw [if_pos hseen] at hrun
        obtain ⟨new, hnew⟩ := loadEach_reports hself hrec paths st h hrun
        exact ⟨new, hnew.seen (h.isSome ((h.isSome_iff path).mp hseen))⟩
      rw [if_neg hseen] at hrun
      cases hload : loader.loadMatchFile path with
      | error err =>
          simp only [hload] at hrun
          obtain ⟨new, hnew⟩ := loadEach_reports hself hrec paths _ (h.report _) hrun
          exact ⟨new, hnew.failing hload⟩
      | ok result =>
          obtain ⟨group, errors⟩ := result
          have hnew : path ∉ visited := fun hmem => hseen ((h.isSome_iff path).mpr hmem)
          simp only [hload] at hrun
          cases hbelow : recurse group.importPaths (st.add path group errors) with
          | none => simp [hbelow] at hrun
          | some below =>
              simp only [hbelow] at hrun
              obtain ⟨new₁, h₁⟩ := hrec (h.add hnew hload) hbelow
              obtain ⟨new₂, h₂⟩ := loadEach_reports hself hrec paths below h₁.holds hrun
              exact ⟨_, .loading hself hload h₁ h₂⟩

theorem loadMatchFilesRecursively_reports (hself : loader.ReportsItself) :
    ∀ (fuel : Nat) {paths : List PathBuf} {st st' : LoadState ε} {visited : List PathBuf},
      st.Holds loader visited → loadMatchFilesRecursively loader fuel paths st = some st' →
        ∃ new, LoadState.Reports loader paths st st' visited new
  | 0, _, _, _, _, _, hrun => by cases hrun
  | fuel + 1, paths, st, _, _, h, hrun =>
      loadEach_reports hself (loadMatchFilesRecursively_reports hself fuel) paths st h hrun

/-! ## §2. The reports of a whole load. -/

/-- The root paths lead to the file, by way of files that load. -/
def MatchLoader.Reached (loader : MatchLoader ε) (rootPaths : List PathBuf) (file : PathBuf) :
    Prop :=
  ∃ root ∈ rootPaths, Reaches loader.importGraph root file

/-- `loaded` are the files that the root paths lead to and that load, each once. -/
structure MatchLoader.LoadedFrom (loader : MatchLoader ε) (rootPaths loaded : List PathBuf) :
    Prop where
  nodup : loaded.Nodup
  mem : ∀ file, file ∈ loaded ↔
    (loader.importGraph file).isSome ∧ loader.Reached rootPaths file

/-- **The reports of a whole load**: a path that fails, as often as the root paths and the loaded
files list it; a file that loads with warnings, once. -/
theorem MatchStore.load_reports (hself : loader.ReportsItself) {fuel : Nat}
    (hfuel : loader.files.length < fuel) (rootPaths : List PathBuf) :
    ∃ store fileMap errors loaded,
      MatchStore.load loader fuel rootPaths = some (store, fileMap, errors)
        ∧ loader.LoadedFrom rootPaths loaded
        ∧ (∀ file, (fileMap.lookup file).isSome ↔ file ∈ loaded)
        ∧ ∀ path, (reportedFiles errors).count path
          = ((rootPaths ++ loaded.flatMap loader.importsOf).filter loader.fails).count path
            + (loaded.filter loader.warns).count path := by
  obtain ⟨st, hruns, hfaithful⟩ := loadMatchFilesRecursively_faithful loader rootPaths
  obtain ⟨hrun, hload⟩ := hruns fuel hfuel
  obtain ⟨loaded, hreports⟩ :=
    loadMatchFilesRecursively_reports hself fuel LoadState.holds_empty hrun
  have hholds : st.Holds loader loaded := hreports.holds
  refine ⟨_, _, _, loaded, hload, ⟨hholds.nodup, fun file => ?_⟩, hholds.isSome_iff, ?_⟩
  · rw [← hholds.isSome_iff, hfaithful.reached]
    rfl
  · intro path
    simpa [reportedFiles] using hreports.count path

/-! ## §3. Paths that lead to a file once. -/

/-- **At most one path leads to the file**, given that the root paths are distinct. -/
structure LedToOnce (loader : MatchLoader ε) (rootPaths : List PathBuf) (path : PathBuf) :
    Prop where
  /-- A root path is not imported as well, -/
  root : path ∈ rootPaths → ∀ file, loader.Reached rootPaths file →
    path ∉ loader.importsOf file
  /-- no file imports the path twice, -/
  import_ : ∀ file, loader.Reached rootPaths file → (loader.importsOf file).count path ≤ 1
  /-- and no two files import it. -/
  file : ∀ file file', loader.Reached rootPaths file → loader.Reached rootPaths file' →
    path ∈ loader.importsOf file → path ∈ loader.importsOf file' → file = file'

/-- An element of several lists in a row is in one of them, once. -/
theorem count_flatMap_le_one_iff {α β : Type*} [DecidableEq β] {f : α → List β} {b : β} :
    ∀ {l : List α}, l.Nodup → ((l.flatMap f).count b ≤ 1 ↔
      (∀ a ∈ l, (f a).count b ≤ 1) ∧ ∀ a ∈ l, ∀ a' ∈ l, b ∈ f a → b ∈ f a' → a = a')
  | [], _ => by simp
  | a :: l, hnodup => by
      obtain ⟨ha, hl⟩ := List.nodup_cons.mp hnodup
      have ih := @count_flatMap_le_one_iff α β _ f b l hl
      have hzero : (l.flatMap f).count b = 0 ↔ ∀ a' ∈ l, b ∉ f a' := by
        simp [List.count_eq_zero]
      have hmem : b ∈ f a ↔ 0 < (f a).count b := List.count_pos_iff.symm
      rw [List.flatMap_cons, List.count_append]
      constructor
      · intro h
        obtain ⟨hcounts, hsame⟩ := ih.mp (by omega)
        refine ⟨List.forall_mem_cons.mpr ⟨by omega, hcounts⟩, ?_⟩
        -- what is in the first list is in none of the others
        have hapart : b ∈ f a → ∀ a' ∈ l, b ∉ f a' := fun hb => hzero.mp (by
          have := hmem.mp hb
          omega)
        intro x hx y hy hbx hby
        obtain rfl | hxl := List.mem_cons.mp hx <;> obtain rfl | hyl := List.mem_cons.mp hy
        · rfl
        · exact absurd hby (hapart hbx y hyl)
        · exact absurd hbx (hapart hby x hxl)
        · exact hsame x hxl y hyl hbx hby
      · rintro ⟨hcounts, hsame⟩
        obtain ⟨hcount, hcounts⟩ := List.forall_mem_cons.mp hcounts
        by_cases hb : b ∈ f a
        · have hnone : (l.flatMap f).count b = 0 := hzero.mpr fun a' ha' hb' =>
            ha (hsame a List.mem_cons_self a' (List.mem_cons_of_mem _ ha') hb hb' ▸ ha')
          omega
        · have hnone : (f a).count b = 0 := List.count_eq_zero.mpr hb
          have hrest := ih.mpr ⟨hcounts, fun x hx y hy =>
            hsame x (List.mem_cons_of_mem _ hx) y (List.mem_cons_of_mem _ hy)⟩
          omega

/-- A file that does not load imports nothing. -/
theorem MatchLoader.importsOf_eq_nil {file : PathBuf} (h : loader.importGraph file = none) :
    loader.importsOf file = [] := by
  simp [MatchLoader.importsOf, h]

/-- The path is listed at most once, by the root paths and the loaded files together. -/
theorem MatchLoader.LoadedFrom.count_le_one_iff {rootPaths loaded : List PathBuf}
    (h : loader.LoadedFrom rootPaths loaded) (hroots : rootPaths.Nodup) (path : PathBuf) :
    (rootPaths ++ loaded.flatMap loader.importsOf).count path ≤ 1
      ↔ LedToOnce loader rootPaths path := by
  -- a file that does not load is not among the loaded ones, and imports nothing
  have hall : ∀ {p : PathBuf → Prop}, (∀ file, loader.importGraph file = none → p file) →
      ((∀ file ∈ loaded, p file) ↔ ∀ file, loader.Reached rootPaths file → p file) := by
    intro p hnone
    constructor
    · intro hp file hreached
      cases hnode : loader.importGraph file with
      | none => exact hnone file hnode
      | some imports => exact hp file ((h.mem file).mpr ⟨by simp [hnode], hreached⟩)
    · exact fun hp file hfile => hp file ((h.mem file).mp hfile).2
  have hroot : rootPaths.count path ≤ 1 := List.nodup_iff_count_le_one.mp hroots path
  have hmem : path ∈ rootPaths ↔ 0 < rootPaths.count path := List.count_pos_iff.symm
  have hzero : (loaded.flatMap loader.importsOf).count path = 0
      ↔ ∀ file, loader.Reached rootPaths file → path ∉ loader.importsOf file := by
    rw [← hall fun file hnode => by simp [MatchLoader.importsOf_eq_nil hnode]]
    simp [List.count_eq_zero]
  have hcounts := hall (p := fun file => (loader.importsOf file).count path ≤ 1)
    fun file hnode => by simp [MatchLoader.importsOf_eq_nil hnode]
  have hsame : (∀ a ∈ loaded, ∀ a' ∈ loaded, path ∈ loader.importsOf a →
      path ∈ loader.importsOf a' → a = a') ↔ ∀ file file', loader.Reached rootPaths file →
        loader.Reached rootPaths file' → path ∈ loader.importsOf file →
        path ∈ loader.importsOf file' → file = file' := by
    rw [hall fun file hnode => by simp [MatchLoader.importsOf_eq_nil hnode]]
    constructor
    · intro hp file file' hfile hfile'
      exact (hall fun file' hnode => by simp [MatchLoader.importsOf_eq_nil hnode]).mp
        (hp file hfile) file' hfile'
    · exact fun hp file hfile file' hfile' => hp file file' hfile ((h.mem file').mp hfile').2
  rw [List.count_append]
  constructor
  · intro hle
    obtain ⟨himports, hfiles⟩ := (count_flatMap_le_one_iff h.nodup).mp
      (Nat.le_trans (Nat.le_add_left _ _) hle)
    refine ⟨fun hin => hzero.mp ?_, hcounts.mp himports, hsame.mp hfiles⟩
    have := hmem.mp hin
    omega
  · intro hled
    have hle := (count_flatMap_le_one_iff h.nodup).mpr
      ⟨hcounts.mpr hled.import_, hsame.mpr hled.file⟩
    by_cases hin : path ∈ rootPaths
    · have := hzero.mpr (hled.root hin)
      omega
    · have := List.count_eq_zero.mpr hin
      omega

end Reports

/-! ## §4. Each broken file once. -/

/-- **Each broken file is reported once**: no path has two error sets, and a path that fails has
one if it is a root path or a loaded file imports it. -/
structure ReportedOnce {ε : Type*} (loader : MatchLoader ε) (rootPaths : List PathBuf)
    (fileMap : HashMap PathBuf MatchFileRef) (errors : List (NonFatalErrorSet ε)) : Prop where
  atMostOnce : ∀ path, (reportedFiles errors).count path ≤ 1
  failing : ∀ path, loader.importGraph path = none →
    (path ∈ rootPaths ∨ ∃ file, (fileMap.lookup file).isSome ∧ path ∈ loader.importsOf file) →
    (reportedFiles errors).count path = 1

/-- The errors of a match file are reported under the path that it was read from. -/
theorem matchLoader_reportsItself {ε : Type} (libs : Libraries ε) (fs : FileSystem) :
    (matchLoader libs fs).ReportsItself := by
  intro path group errors hload
  have hload : loadMatchFile libs fs path = .ok (group, some errors) := hload
  unfold loadMatchFile at hload
  split at hload
  · cases hload
  split at hload
  · cases hload
  -- the error set is put together by the last step of `load_file`
  unfold loadFile at hload
  simp only [bind, Except.bind] at hload
  split at hload
  · cases hload
  split at hload
  · cases hload
  split at hload
  · cases hload
  simp only [Except.ok.injEq, Prod.mk.injEq] at hload
  obtain ⟨_, hset⟩ := hload
  split at hset
  · cases hset
  · cases hset
    rfl

/-- **Reported once**, for every import graph, list of distinct root paths and amount of fuel that
covers the files: exactly if at most one path leads to each file that fails. -/
theorem reportedOnce_iff {ε : Type} (libs : Libraries ε) (fs : FileSystem) {fuel : Nat}
    (hfuel : fs.files.keys.length < fuel) {rootPaths : List PathBuf}
    (hroots : rootPaths.Nodup) :
    ∃ store fileMap errors,
      MatchStore.load (matchLoader libs fs) fuel rootPaths = some (store, fileMap, errors)
        ∧ (ReportedOnce (matchLoader libs fs) rootPaths fileMap errors
          ↔ ∀ path, (matchLoader libs fs).importGraph path = none →
              LedToOnce (matchLoader libs fs) rootPaths path) := by
  obtain ⟨store, fileMap, errors, loaded, hload, hloaded, hmap, hcount⟩ :=
    MatchStore.load_reports (matchLoader_reportsItself libs fs) hfuel rootPaths
  refine ⟨store, fileMap, errors, hload, ?_⟩
  -- a path that fails is counted where it is listed
  have hfailing : ∀ path, (matchLoader libs fs).importGraph path = none →
      (reportedFiles errors).count path
        = (rootPaths ++ loaded.flatMap (matchLoader libs fs).importsOf).count path := by
    intro path hnode
    have hnot : path ∉ loaded := fun hmem => by simpa [hnode] using ((hloaded.mem path).mp hmem).1
    have hnot' : path ∉ loaded.filter (matchLoader libs fs).warns :=
      fun hmem => hnot (List.mem_of_mem_filter hmem)
    rw [hcount path, List.count_filter (MatchLoader.fails_iff.mpr hnode),
      List.count_eq_zero.mpr hnot', Nat.add_zero]
  constructor
  · intro h path hnode
    rw [← hloaded.count_le_one_iff hroots, ← hfailing path hnode]
    exact h.atMostOnce path
  · intro hled
    have hle : ∀ path, (matchLoader libs fs).importGraph path = none →
        (reportedFiles errors).count path ≤ 1 := by
      intro path hnode
      rw [hfailing path hnode, hloaded.count_le_one_iff hroots]
      exact hled path hnode
    refine ⟨fun path => ?_, fun path hnode hlisted => ?_⟩
    · cases hnode : (matchLoader libs fs).importGraph path with
      | none => exact hle path hnode
      | some imports =>
          have hnot : path ∉ (rootPaths ++ loaded.flatMap (matchLoader libs fs).importsOf).filter
              (matchLoader libs fs).fails := by
            simp [MatchLoader.fails, hnode]
          rw [hcount path, List.count_eq_zero.mpr hnot, Nat.zero_add]
          exact List.nodup_iff_count_le_one.mp (hloaded.nodup.filter _) path
    · have hmem : path ∈ rootPaths ++ loaded.flatMap (matchLoader libs fs).importsOf := by
        rw [List.mem_append, List.mem_flatMap]
        exact hlisted.imp_right fun ⟨file, hfile, himport⟩ => ⟨file, (hmap file).mp hfile, himport⟩
      have hpos := List.count_pos_iff.mpr hmem
      have := hle path hnode
      rw [← hfailing path hnode] at hpos
      omega

/-- The libraries, on the two kinds of match files below. -/
def brokenLibraries : Libraries String where
  parseConfig _ := .ok {}
  parseMatchFile text :=
    if text = "imports: [_broken.yml]" then .ok { imports := ["_broken.yml"] }
    else .error "invalid match file"
  compileRegex _ := .ok ()
  globMatches _ _ := false
  canonical path := path

/-- A broken file, and two files that import it. -/
def brokenDirectory : FileSystem where
  files := HashMap.insertEntries ∅ [("/match/a.yml", ⟨"imports: [_broken.yml]", 1⟩),
    ("/match/b.yml", ⟨"imports: [_broken.yml]", 1⟩), ("/match/_broken.yml", ⟨"- invalid", 1⟩)]
  directories := ["/match"]

/-- **Two imports of one broken file**: it is reported twice. -/
theorem brokenFile_reported_twice :
    ∃ store fileMap errors,
      MatchStore.load (matchLoader brokenLibraries brokenDirectory) 4
          ["/match/a.yml", "/match/b.yml"] = some (store, fileMap, errors)
        ∧ reportedFiles errors = ["/match/_broken.yml", "/match/_broken.yml"]
        ∧ ¬ ReportedOnce (matchLoader brokenLibraries brokenDirectory)
            ["/match/a.yml", "/match/b.yml"] fileMap errors := by
  refine ⟨_, _, _, rfl, rfl, fun h => ?_⟩
  have htwice := h.atMostOnce "/match/_broken.yml"
  revert htwice
  decide

/-- One import of it. -/
theorem reportedOnce_iff_broken :
    ∃ store fileMap errors,
      MatchStore.load (matchLoader brokenLibraries brokenDirectory) 4 ["/match/a.yml"]
          = some (store, fileMap, errors)
        ∧ (ReportedOnce (matchLoader brokenLibraries brokenDirectory) ["/match/a.yml"] fileMap
            errors
          ↔ ∀ path, (matchLoader brokenLibraries brokenDirectory).importGraph path = none →
              LedToOnce (matchLoader brokenLibraries brokenDirectory) ["/match/a.yml"] path) :=
  reportedOnce_iff brokenLibraries brokenDirectory (by decide) (by decide)

end Shinran
