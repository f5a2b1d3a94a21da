/-
  Shinran.Backend.Paths
  ─────────────────────
  **WHERE A START FINDS ITS FILES** (`shinran_backend::path`).

  A start looks for its directories among candidates, the preferred ones
  first, and creates a directory where it finds none.  What it creates comes
  with its ancestors, and one of these may be what the next start prefers.

    • `Paths.resolvePaths`, `startPaths` — the directories of a start,
    • `NextDirs`                   — the directories that the next start takes,
    • `startPaths_outcome`         — what a start does to the file system,
    • `paths_of_run`               — from the second start on the directories
                                     are the same.

  A path is known by one spelling, as everywhere in `Shinran.Config.FileSystem`.
-/
import Shinran.Config.FileSystem
import Shinran.Fallible
import Shinran.Machine
import Shinran.Render.VarRegex

namespace Shinran

open Machine

/-! ## §1. Paths and directories. -/

/-- `PathBuf::from`: separators at the end make no difference to what is at the path. -/
def PathBuf.from_ (text : String) : PathBuf :=
  match text.toList.reverse.dropWhile (· = '/') with
  -- only separators are the root
  | [] => if text = "" then "" else "/"
  | path => String.ofList path.reverse

/-- `Path::ancestors`: the path, its parent, and so on. -/
def PathBuf.ancestorsWithin : Nat → PathBuf → List PathBuf
  | 0, _ => []
  | fuel + 1, path => path :: (PathBuf.parent path).elim [] (PathBuf.ancestorsWithin fuel)

/-- A parent is shorter, so there are no more ancestors than characters, and one. -/
def PathBuf.ancestors (path : PathBuf) : List PathBuf :=
  PathBuf.ancestorsWithin (path.length + 1) path

example : PathBuf.ancestors "/home/.cache/shinran"
    = ["/home/.cache/shinran", "/home/.cache", "/home", "/"] := by decide

/-- `path.is_dir()`, and then `Some(path)`. -/
def FileSystem.dirAt (fs : FileSystem) (path : PathBuf) : Option PathBuf :=
  if fs.isDir path then some path else none

/-- How a start ends early: `expect`, or an error message and `std::process::exit(1)`. -/
inductive Abort where
  | expect (message : String)
  | exit (message : String)
  deriving DecidableEq, Repr

/-- What a start does while it looks for its directories. -/
abbrev PathSearch := EStateM Abort FileSystem

/-- A question about the file system of now. -/
def ask {α : Type} (question : FileSystem → Except Abort α) : PathSearch α := fun fs =>
  match question fs with
  | .ok answer => .ok answer fs
  | .error abort => .error abort fs

/-- `mkdir`, where the system allows it and no file is in its place. -/
def mkdir (allows : PathBuf → Bool) (path : PathBuf) : EStateM Unit FileSystem Unit := fun fs =>
  if fs.isFile path || !allows path then .error () fs
  else .ok () { fs with directories := path :: fs.directories }

/-- `create_dir_all`: the ancestors that are missing, from the outermost one on. -/
def createDirAll (allows : PathBuf → Bool) (path : PathBuf) : EStateM Unit FileSystem Unit :=
  fun fs =>
    let missing := (PathBuf.ancestors path).takeWhile fun ancestor =>
      ancestor ≠ "" && (PathBuf.parent ancestor).isSome && !fs.isDir ancestor
    missing.reverse.forM (mkdir allows) fs

/-- `Result::expect`. -/
def expectCreated (created : EStateM Unit FileSystem Unit) (message : String) : PathSearch Unit :=
  fun fs =>
    match created fs with
    | .ok _ fs' => .ok () fs'
    | .error _ fs' => .error (.expect message) fs'

/-! ## §2. The directories of a start. -/

/-- What `std::env` and `dirs` tell a process, and its command line. -/
structure Surroundings where
  currentExe : Option PathBuf
  homeDir : Option PathBuf
  configDir : Option PathBuf
  cacheDir : Option PathBuf
  cliOverrides : HashMap String String
  vars : HashMap String String

structure Paths where
  config : PathBuf
  runtime : PathBuf
  packages : PathBuf
  deriving DecidableEq, Repr

/-- `Option::expect`. -/
def expect {α : Type} (value : Option α) (message : String) : Except Abort α :=
  value.elim (.error (.expect message)) .ok

/-- The directory of the executable, which may have none. -/
def exeDir (env : Surroundings) : Except Abort (Option PathBuf) := do
  let shinranExePath ← expect env.currentExe "unable to obtain executable path"
  pure (PathBuf.parent shinranExePath)

def getPortableConfigDir (env : Surroundings) (fs : FileSystem) :
    Except Abort (Option PathBuf) := do
  let parent ← exeDir env
  pure (parent.bind fun parent => fs.dirAt (PathBuf.join parent ".shinran"))

def getHomeShinranDir (env : Surroundings) (fs : FileSystem) : Option PathBuf :=
  env.homeDir.bind fun homeDir => fs.dirAt (PathBuf.join homeDir ".shinran")

def getHomeConfigShinranDir (env : Surroundings) (fs : FileSystem) : Option PathBuf :=
  env.homeDir.bind fun homeDir =>
    fs.dirAt (PathBuf.join (PathBuf.join homeDir ".config") "shinran")

def getDefaultConfigPath (env : Surroundings) : Except Abort PathBuf := do
  let configDir ← expect env.configDir "unable to obtain dirs::config_dir()"
  pure (PathBuf.join configDir "shinran")

def getDefaultConfigDir (env : Surroundings) (fs : FileSystem) : Except Abort (Option PathBuf) := do
  let configPath ← getDefaultConfigPath env
  pure (fs.dirAt configPath)

def getConfigDir (env : Surroundings) (fs : FileSystem) : Except Abort (Option PathBuf) := do
  match ← getPortableConfigDir env fs with
  | some portableDir => pure (some portableDir)
  | none =>
      match getHomeShinranDir env fs with
      | some configDir => pure (some configDir)
      | none =>
          match getHomeConfigShinranDir env fs with
          | some configDir => pure (some configDir)
          | none => getDefaultConfigDir env fs

def getPortableRuntimePath (env : Surroundings) : Except Abort (Option PathBuf) := do
  let parent ← exeDir env
  pure (parent.map fun parent => PathBuf.join parent ".shinran-runtime")

def getPortableRuntimeDir (env : Surroundings) (fs : FileSystem) :
    Except Abort (Option PathBuf) := do
  let runtimeDir ← getPortableRuntimePath env
  pure (runtimeDir.bind fs.dirAt)

def getDefaultRuntimePath (env : Surroundings) : Except Abort PathBuf := do
  let runtimeDir ← expect env.cacheDir "unable to obtain dirs::cache_dir()"
  pure (PathBuf.join runtimeDir "shinran")

def getDefaultRuntimeDir (env : Surroundings) (fs : FileSystem) :
    Except Abort (Option PathBuf) := do
  let defaultDir ← getDefaultRuntimePath env
  pure (fs.dirAt defaultDir)

def getRuntimeDir (env : Surroundings) (fs : FileSystem) : Except Abort (Option PathBuf) := do
  match ← getPortableRuntimeDir env fs with
  | some runtimeDir => pure (some runtimeDir)
  | none => getDefaultRuntimeDir env fs

def isPortableMode (env : Surroundings) (fs : FileSystem) : Except Abort Bool := do
  let parent ← exeDir env
  pure (parent.any fun parent => fs.isDir (PathBuf.join parent ".shinran"))

/-- The runtime directory that is created if there is none. -/
def getNewRuntimePath (env : Surroundings) (fs : FileSystem) : Except Abort PathBuf := do
  if ← isPortableMode env fs then
    let runtimeDir ← getPortableRuntimePath env
    expect runtimeDir "unable to obtain runtime directory path"
  else getDefaultRuntimePath env

def getDefaultPackagesPath (configDir : PathBuf) : PathBuf :=
  PathBuf.join (PathBuf.join configDir "match") "packages"

/-- `get_packages_dir` and `get_default_packages_dir`. -/
def getPackagesDir (configDir : PathBuf) (fs : FileSystem) : Except Abort (Option PathBuf) :=
  pure (fs.dirAt (getDefaultPackagesPath configDir))

/-- The forced directory, else the one that is found, else the one that is created. -/
def resolveDir (allows : PathBuf → Bool) (force : Option PathBuf)
    (find : FileSystem → Except Abort (Option PathBuf))
    (default : FileSystem → Except Abort PathBuf) (message : String) : PathSearch PathBuf :=
  match force with
  | some dir => pure dir
  | none => do
      match ← ask find with
      | some dir => pure dir
      | none => do
          let dir ← ask default
          expectCreated (createDirAll allows dir) message
          pure dir

def Paths.resolvePaths (env : Surroundings) (allows : PathBuf → Bool)
    (forceConfigDir forcePackageDir forceRuntimeDir : Option PathBuf) : PathSearch Paths := do
  let configDir ← resolveDir allows forceConfigDir (getConfigDir env)
    (fun _ => getDefaultConfigPath env) "unable to create config directory"
  let runtimeDir ← resolveDir allows forceRuntimeDir (getRuntimeDir env)
    (getNewRuntimePath env) "unable to create runtime directory"
  let packagesDir ← resolveDir allows forcePackageDir (getPackagesDir configDir)
    (fun _ => pure (getDefaultPackagesPath configDir)) "unable to create packages directory"
  pure ⟨configDir, runtimeDir, packagesDir⟩

section Overrides

variable [UnicodeTables]

/-- `get_path_override`. -/
def getPathOverride (env : Surroundings) (argument envVar : String) (fs : FileSystem) :
    Except Abort (Option PathBuf) :=
  let overridden (text what : String) : Except Abort (Option PathBuf) :=
    let path := PathBuf.from_ (trim text)
    if fs.isDir path then .ok (some path)
    else .error (.exit (what ++ " was specified, but it doesn't point to a valid directory. "
      ++ "Make sure to create it first."))
  match env.cliOverrides.lookup argument with
  | some path => overridden path (argument ++ " argument")
  | none =>
      match env.vars.lookup envVar with
      | some path => overridden path (envVar ++ " env variable")
      | none => .ok none

/-- The first lines of `Configuration::new`. -/
def startPaths (env : Surroundings) (allows : PathBuf → Bool) : PathSearch Paths := do
  let forceConfigPath ← ask (getPathOverride env "config_dir" "SHINRAN_CONFIG_DIR")
  let forcePackagePath ← ask (getPathOverride env "package_dir" "SHINRAN_PACKAGE_DIR")
  let forceRuntimePath ← ask (getPathOverride env "runtime_dir" "SHINRAN_RUNTIME_DIR")
  Paths.resolvePaths env allows forceConfigPath forcePackagePath forceRuntimePath

end Overrides

/-! ## §3. Names of directories. -/

/-- A path without a separator at its end. -/
def PathBuf.Plain (path : PathBuf) : Prop := path = "/" ∨ path.toList.getLast? ≠ some '/'

/-- The path ends with the name. -/
def PathBuf.Named (path : PathBuf) (name : String) : Prop :=
  (PathBuf.splitName path).2 = name.toList.reverse

/-- A name of a file: not empty, and without separators. -/
def IsName (name : String) : Prop := name.toList ≠ [] ∧ '/' ∉ name.toList

instance (name : String) : Decidable (IsName name) := inferInstanceAs (Decidable (_ ∧ _))

theorem splitName_append {front name : List Char} (hname : '/' ∉ name)
    (hfront : front = [] ∨ front.getLast? = some '/') :
    PathBuf.splitName (String.ofList (front ++ name)) = (front.reverse, name.reverse) := by
  have hall : ∀ c ∈ name.reverse, (fun c : Char => decide (c ≠ '/')) c = true := by
    intro c hc
    refine decide_eq_true fun heq => hname ?_
    rw [← heq]
    exact List.mem_reverse.mp hc
  have hstop : front.reverse.takeWhile (fun c => decide (c ≠ '/')) = [] := by
    rcases hfront with rfl | hlast
    · rfl
    · rw [List.getLast?_eq_head?_reverse] at hlast
      obtain ⟨rest, hrest⟩ := List.head?_eq_some_iff.mp hlast
      rw [hrest]
      rfl
  unfold PathBuf.splitName
  rw [String.toList_ofList, List.reverse_append, List.takeWhile_append_of_pos hall, hstop,
    List.append_nil]
  show ((name.reverse ++ front.reverse).drop name.reverse.length, name.reverse) = _
  rw [List.drop_left]

/-- What stands in front of a name that is joined to a directory. -/
theorem exists_join (dir : PathBuf) {name : String} (hname : IsName name) :
    ∃ front, PathBuf.join dir name = String.ofList (front ++ name.toList)
      ∧ (front = [] ∨ front.getLast? = some '/')
      ∧ (PathBuf.Plain dir → (front = [] ∧ dir = "") ∨ (front = ['/'] ∧ dir = "/")
        ∨ (front = dir.toList ++ ['/'] ∧ dir ≠ "")) := by
  have habsolute : name.toList.head? ≠ some '/' := fun h =>
    hname.2 (List.mem_of_mem_head? h)
  unfold PathBuf.join
  rw [if_neg habsolute]
  by_cases hdir : dir = "" ∨ dir.toList.getLast? = some '/'
  · rw [if_pos hdir]
    refine ⟨dir.toList, by rw [String.ofList_append, String.ofList_toList, String.ofList_toList],
      ?_, ?_⟩
    · exact hdir.imp (fun h => by rw [h]; rfl) id
    · rintro (rfl | hplain)
      · exact .inr (.inl ⟨rfl, rfl⟩)
      · obtain rfl := hdir.resolve_right hplain
        exact .inl ⟨rfl, rfl⟩
  · rw [if_neg hdir]
    refine ⟨dir.toList ++ ['/'], ?_, .inr (by simp), fun _ => .inr (.inr ⟨rfl, fun h =>
      hdir (.inl h)⟩)⟩
    apply String.toList_injective
    simp

theorem join_named (dir : PathBuf) {name : String} (hname : IsName name) :
    PathBuf.Named (PathBuf.join dir name) name := by
  obtain ⟨front, heq, hfront, -⟩ := exists_join dir hname
  unfold PathBuf.Named
  rw [heq, splitName_append hname.2 hfront]

/-- What has a name has a parent and is not empty. -/
theorem PathBuf.Named.isSome_parent {path : PathBuf} {name : String}
    (h : PathBuf.Named path name) (hname : IsName name) : (PathBuf.parent path).isSome := by
  have hback : (PathBuf.splitName path).2 ≠ [] := by
    rw [h]
    exact List.reverse_eq_nil_iff.not.mpr hname.1
  unfold PathBuf.parent
  split <;> simp_all

theorem PathBuf.Named.ne_empty {path : PathBuf} {name : String}
    (h : PathBuf.Named path name) (hname : IsName name) : path ≠ "" := by
  rintro rfl
  exact hname.1 (List.reverse_eq_nil_iff.mp h.symm)

theorem PathBuf.Named.plain {path : PathBuf} {name : String}
    (h : PathBuf.Named path name) (hname : IsName name) : PathBuf.Plain path := by
  refine .inr fun hlast => ?_
  rw [List.getLast?_eq_head?_reverse] at hlast
  obtain ⟨rest, hrest⟩ := List.head?_eq_some_iff.mp hlast
  unfold PathBuf.Named PathBuf.splitName at h
  simp only [hrest] at h
  exact hname.1 (List.reverse_eq_nil_iff.mp h.symm)

theorem PathBuf.Named.unique {path : PathBuf} {name name' : String}
    (h : PathBuf.Named path name) (h' : PathBuf.Named path name') : name = name' :=
  String.toList_injective (List.reverse_injective (h.symm.trans h'))

/-- A name joined to a plain path can be taken off again. -/
theorem parent_join {dir : PathBuf} (hdir : PathBuf.Plain dir) {name : String}
    (hname : IsName name) : PathBuf.parent (PathBuf.join dir name) = some dir := by
  obtain ⟨front, heq, hfront, hdirs⟩ := exists_join dir hname
  obtain ⟨c, back, hback⟩ := List.exists_cons_of_ne_nil
    (List.reverse_eq_nil_iff.not.mpr hname.1)
  unfold PathBuf.parent
  rw [heq, splitName_append hname.2 hfront, hback]
  rcases hdirs hdir with ⟨rfl, rfl⟩ | ⟨rfl, rfl⟩ | ⟨rfl, hne⟩
  · rfl
  · rfl
  · obtain ⟨d, rest, hrest⟩ := List.exists_cons_of_ne_nil
      (List.reverse_eq_nil_iff.not.mpr (String.toList_eq_nil_iff.not.mpr hne))
    have hrev : (dir.toList ++ ['/']).reverse = '/' :: d :: rest := by
      rw [List.reverse_append, hrest]
      rfl
    rw [hrev]
    show some (String.ofList (d :: rest).reverse) = some dir
    rw [← hrest, List.reverse_reverse, String.ofList_toList]

theorem plain_from_ (text : String) : PathBuf.Plain (PathBuf.from_ text) := by
  unfold PathBuf.from_
  split
  · split
    · exact .inr (by decide)
    · exact .inl rfl
  · refine .inr fun hlast => ?_
    have := List.head?_dropWhile_not (fun c : Char => decide (c = '/')) text.toList.reverse
    rw [String.toList_ofList, List.getLast?_reverse] at hlast
    rw [hlast] at this
    simp at this

/-! ## §4. What directories are chosen from. -/

section Candidates

variable {env : Surroundings} {fs fs' : FileSystem}

/-- Where `get_config_dir` looks, the preferred directories first. -/
def Surroundings.configCandidates (env : Surroundings) : List PathBuf :=
  ((env.currentExe.bind PathBuf.parent).map (PathBuf.join · ".shinran")).toList
    ++ (env.homeDir.map (PathBuf.join · ".shinran")).toList
    ++ (env.homeDir.map fun homeDir =>
        PathBuf.join (PathBuf.join homeDir ".config") "shinran").toList
    ++ (env.configDir.map (PathBuf.join · "shinran")).toList

/-- Where `get_runtime_dir` looks. -/
def Surroundings.runtimeCandidates (env : Surroundings) : List PathBuf :=
  ((env.currentExe.bind PathBuf.parent).map (PathBuf.join · ".shinran-runtime")).toList
    ++ (env.cacheDir.map (PathBuf.join · "shinran")).toList

def Surroundings.candidates (env : Surroundings) : List PathBuf :=
  env.configCandidates ++ env.runtimeCandidates

theorem find?_candidate (dir : Option PathBuf) :
    dir.toList.find? fs.isDir = dir.bind fs.dirAt := by
  cases dir with
  | none => rfl
  | some dir =>
      show [dir].find? fs.isDir = fs.dirAt dir
      unfold FileSystem.dirAt
      rw [List.find?_singleton]

theorem find?_congr {α : Type} {p q : α → Bool} {l : List α} (h : ∀ a ∈ l, p a = q a) :
    l.find? p = l.find? q := by
  induction l with
  | nil => rfl
  | cons a l ih =>
      rw [List.find?_cons, List.find?_cons, h a List.mem_cons_self,
        ih fun b hb => h b (List.mem_cons_of_mem _ hb)]

/-- The first of the candidates that exists is the one before which none exists. -/
theorem find?_eq_some_iff_takeWhile {dir : PathBuf} {candidates : List PathBuf}
    (hmem : dir ∈ candidates) (hdir : fs.isDir dir) :
    candidates.find? fs.isDir = some dir
      ↔ ∀ other ∈ candidates.takeWhile (· ≠ dir), ¬ fs.isDir other := by
  induction candidates with
  | nil => cases hmem
  | cons candidate candidates ih =>
      by_cases heq : candidate = dir
      · subst heq
        rw [List.find?_cons_of_pos hdir, List.takeWhile_cons_of_neg (by simp)]
        simp
      · rw [List.takeWhile_cons_of_pos (by simpa using heq), List.forall_mem_cons]
        have htail := ih ((List.mem_cons.mp hmem).resolve_left (Ne.symm heq))
        by_cases hcandidate : fs.isDir candidate
        · rw [List.find?_cons_of_pos hcandidate]
          exact ⟨fun h => absurd (Option.some.inj h) heq, fun h => absurd hcandidate h.1⟩
        · rw [List.find?_cons_of_neg hcandidate, htail]
          exact ⟨fun h => ⟨hcandidate, h⟩, fun h => h.2⟩

theorem expect_eq {α : Type} {value : Option α} {message : String} {a : α}
    (h : expect value message = .ok a) : value = some a := by
  cases value with
  | none => cases h
  | some b => exact congrArg some (Except.ok.inj h)

theorem exeDir_eq {parent : Option PathBuf} (h : exeDir env = .ok parent) :
    env.currentExe.bind PathBuf.parent = parent := by
  obtain ⟨exe, hexe, hparent⟩ := bind_eq_ok_iff.mp h
  rw [expect_eq hexe]
  exact Except.ok.inj hparent

/-- **The config directory that is found is the first candidate that exists.** -/
theorem getConfigDir_eq {found : Option PathBuf} (h : getConfigDir env fs = .ok found) :
    env.configCandidates.find? fs.isDir = found := by
  obtain ⟨portable, hportable, h⟩ := bind_eq_ok_iff.mp h
  obtain ⟨parent, hparent, heq⟩ := bind_eq_ok_iff.mp hportable
  unfold Surroundings.configCandidates
  simp only [List.find?_append, find?_candidate, Option.bind_map]
  rw [exeDir_eq hparent]
  obtain rfl := Except.ok.inj heq
  show (((parent.bind fun parent => fs.dirAt (PathBuf.join parent ".shinran")).or
    (getHomeShinranDir env fs)).or (getHomeConfigShinranDir env fs)).or _ = found
  -- the candidates after the first one that exists are not looked at
  split at h
  · rename_i portableDir hsome
    rw [hsome]
    exact Except.ok.inj h
  · rename_i hnone
    rw [hnone, Option.none_or]
    split at h
    · rename_i configDir hhome
      rw [hhome]
      exact Except.ok.inj h
    · rename_i hhome
      rw [hhome, Option.none_or]
      split at h
      · rename_i configDir hconfig
        rw [hconfig]
        exact Except.ok.inj h
      · rename_i hconfig
        rw [hconfig, Option.none_or]
        obtain ⟨path, hpath, h⟩ := bind_eq_ok_iff.mp h
        obtain ⟨configDir, hdir, hjoin⟩ := bind_eq_ok_iff.mp hpath
        rw [expect_eq hdir, ← Except.ok.inj h, ← Except.ok.inj hjoin]
        rfl

theorem getDefaultConfigPath_mem {dir : PathBuf} (h : getDefaultConfigPath env = .ok dir) :
    dir ∈ env.configCandidates := by
  obtain ⟨configDir, hdir, hjoin⟩ := bind_eq_ok_iff.mp h
  unfold Surroundings.configCandidates
  rw [expect_eq hdir, ← Except.ok.inj hjoin]
  exact List.mem_append_right _ (List.mem_singleton_self _)

theorem getPortableRuntimePath_eq {path : Option PathBuf}
    (h : getPortableRuntimePath env = .ok path) :
    (env.currentExe.bind PathBuf.parent).map (PathBuf.join · ".shinran-runtime") = path := by
  obtain ⟨parent, hparent, hmap⟩ := bind_eq_ok_iff.mp h
  rw [exeDir_eq hparent]
  exact Except.ok.inj hmap

theorem getDefaultRuntimePath_eq {path : PathBuf} (h : getDefaultRuntimePath env = .ok path) :
    env.cacheDir.map (PathBuf.join · "shinran") = some path := by
  obtain ⟨cacheDir, hdir, hjoin⟩ := bind_eq_ok_iff.mp h
  rw [expect_eq hdir]
  exact congrArg some (Except.ok.inj hjoin)

/-- The runtime directory that is found is the first candidate that exists. -/
theorem getRuntimeDir_eq {found : Option PathBuf} (h : getRuntimeDir env fs = .ok found) :
    env.runtimeCandidates.find? fs.isDir = found := by
  obtain ⟨portable, hportable, h⟩ := bind_eq_ok_iff.mp h
  obtain ⟨path, hpath, heq⟩ := bind_eq_ok_iff.mp hportable
  obtain rfl := Except.ok.inj heq
  unfold Surroundings.runtimeCandidates
  rw [getPortableRuntimePath_eq hpath, List.find?_append, find?_candidate, find?_candidate]
  split at h
  · rename_i runtimeDir hsome
    rw [hsome]
    exact Except.ok.inj h
  · rename_i hnone
    rw [hnone, Option.none_or]
    obtain ⟨dir, hdir, h⟩ := bind_eq_ok_iff.mp h
    rw [getDefaultRuntimePath_eq hdir]
    exact Except.ok.inj h

theorem getNewRuntimePath_mem {dir : PathBuf} (h : getNewRuntimePath env fs = .ok dir) :
    dir ∈ env.runtimeCandidates := by
  obtain ⟨portable, -, h⟩ := bind_eq_ok_iff.mp h
  unfold Surroundings.runtimeCandidates
  cases portable with
  | true =>
      obtain ⟨path, hpath, hexpect⟩ := bind_eq_ok_iff.mp h
      rw [getPortableRuntimePath_eq hpath, expect_eq hexpect]
      exact List.mem_append_left _ (List.mem_singleton_self _)
  | false =>
      rw [getDefaultRuntimePath_eq h]
      exact List.mem_append_right _ (List.mem_singleton_self _)

/-- The names of the candidates. -/
def candidateNames : List String := [".shinran", "shinran", ".shinran-runtime"]

theorem isName_of_candidateNames : ∀ name ∈ candidateNames, IsName name := by decide

theorem named_of_mem_map {dir : Option PathBuf} {name : String} (hname : IsName name)
    {path : PathBuf} (h : path ∈ (dir.map (PathBuf.join · name)).toList) :
    PathBuf.Named path name := by
  obtain ⟨parent, -, rfl⟩ := Option.map_eq_some_iff.mp (Option.mem_toList.mp h)
  exact join_named parent hname

theorem named_of_mem_candidates {path : PathBuf} (h : path ∈ env.candidates) :
    ∃ name ∈ candidateNames, PathBuf.Named path name := by
  rcases List.mem_append.mp h with h | h
  · unfold Surroundings.configCandidates at h
    simp only [List.mem_append] at h
    rcases h with ((h | h) | h) | h
    · exact ⟨_, by decide, named_of_mem_map (by decide) h⟩
    · exact ⟨_, by decide, named_of_mem_map (by decide) h⟩
    · obtain ⟨homeDir, -, rfl⟩ := Option.map_eq_some_iff.mp (Option.mem_toList.mp h)
      exact ⟨_, by decide, @join_named _ "shinran" (by decide)⟩
    · exact ⟨_, by decide, named_of_mem_map (by decide) h⟩
  · rcases List.mem_append.mp h with h | h
    · exact ⟨_, by decide, named_of_mem_map (by decide) h⟩
    · exact ⟨_, by decide, named_of_mem_map (by decide) h⟩

end Candidates

/-! ## §5. What a start does to the file system. -/

/-- The directories that there are, and new ones; the files are the same. -/
structure Grown (fs fs' : FileSystem) (new : PathBuf → Prop) : Prop where
  files : fs'.files = fs.files
  keeps : ∀ dir, fs.isDir dir → fs'.isDir dir
  created : ∀ dir, fs'.isDir dir → fs.isDir dir ∨ new dir

section Grown

variable {fs fs' fs'' : FileSystem} {new new' : PathBuf → Prop}

theorem Grown.refl : Grown fs fs new := ⟨rfl, fun _ h => h, fun _ h => .inl h⟩

theorem Grown.trans (h : Grown fs fs' new) (h' : Grown fs' fs'' new) : Grown fs fs'' new :=
  ⟨h'.files.trans h.files, fun dir hdir => h'.keeps dir (h.keeps dir hdir),
    fun dir hdir => (h'.created dir hdir).elim (h.created dir) .inr⟩

theorem Grown.mono (h : Grown fs fs' new) (hnew : ∀ dir, new dir → new' dir) :
    Grown fs fs' new' :=
  ⟨h.files, h.keeps, fun dir hdir => (h.created dir hdir).imp_right (hnew dir)⟩

end Grown

/-- What holds after a computation that returned, and after one that ended early. -/
def Outcome {ε σ α : Type} (returned : α → σ → Prop) (ended : σ → Prop) :
    EStateM.Result ε σ α → Prop
  | .ok a s => returned a s
  | .error _ s => ended s

section Outcome

variable {ε σ α β : Type} {returned returned' : α → σ → Prop} {ended ended' : σ → Prop}

/-- The rule of sequencing. -/
theorem Outcome.bind {then_ : β → σ → Prop} {m : EStateM ε σ α} {k : α → EStateM ε σ β} {s : σ}
    (h : Outcome returned ended (m s))
    (hk : ∀ a s', returned a s' → Outcome then_ ended (k a s')) :
    Outcome then_ ended ((m >>= k) s) := by
  show Outcome then_ ended (match m s with
    | .ok a s' => k a s'
    | .error err s' => .error err s')
  cases hm : m s with
  | ok a s' =>
      rw [hm] at h
      exact hk a s' h
  | error err s' =>
      rw [hm] at h
      exact h

theorem Outcome.mono {result : EStateM.Result ε σ α} (h : Outcome returned ended result)
    (hreturned : ∀ a s, returned a s → returned' a s) (hended : ∀ s, ended s → ended' s) :
    Outcome returned' ended' result := by
  cases result with
  | ok a s => exact hreturned a s h
  | error err s => exact hended s h

end Outcome

section Creation

variable {allows : PathBuf → Bool} {fs : FileSystem}

theorem mkdir_outcome (path : PathBuf) :
    Outcome (fun _ fs' => Grown fs fs' (· = path) ∧ fs'.isDir path) (fun fs' => fs' = fs)
      (mkdir allows path fs) := by
  unfold mkdir
  split
  · rfl
  · refine ⟨⟨rfl, fun dir h => ?_, fun dir h => ?_⟩, ?_⟩
    · simp only [FileSystem.isDir, decide_eq_true_eq] at h ⊢
      exact List.mem_cons_of_mem _ h
    · simp only [FileSystem.isDir, decide_eq_true_eq] at h ⊢
      exact (List.mem_cons.mp h).symm
    · simp [FileSystem.isDir]

theorem forM_mkdir_outcome (paths : List PathBuf) :
    Outcome (fun _ fs' => Grown fs fs' (· ∈ paths) ∧ ∀ path ∈ paths, fs'.isDir path)
      (fun fs' => Grown fs fs' (· ∈ paths)) (paths.forM (mkdir allows) fs) := by
  induction paths generalizing fs with
  | nil => exact ⟨.refl, fun _ h => nomatch h⟩
  | cons path paths ih =>
      have hhead : ∀ fs', Grown fs fs' (· = path) → Grown fs fs' (· ∈ path :: paths) :=
        fun fs' h => h.mono fun _ heq => heq ▸ List.mem_cons_self
      refine Outcome.bind ((mkdir_outcome path).mono (fun _ _ h => h) ?_) fun _ fs' h => ?_
      · rintro _ rfl
        exact .refl
      · have htail : ∀ fs'', Grown fs' fs'' (· ∈ paths) → Grown fs fs'' (· ∈ path :: paths) :=
          fun fs'' h' => (hhead fs' h.1).trans (h'.mono fun _ => List.mem_cons_of_mem _)
        refine ih.mono (fun _ fs'' h' => ⟨htail fs'' h'.1, fun dir hdir => ?_⟩) htail
        rcases List.mem_cons.mp hdir with rfl | hdir
        · exact h'.1.keeps _ h.2
        · exact h'.2 dir hdir

/-- The ancestors that `create_dir_all` creates. -/
def missingAncestors (fs : FileSystem) (path : PathBuf) : List PathBuf :=
  (PathBuf.ancestors path).takeWhile fun ancestor =>
    ancestor ≠ "" && (PathBuf.parent ancestor).isSome && !fs.isDir ancestor

/-- **A directory is created with its missing ancestors**, and nothing else is changed. -/
theorem createDirAll_outcome {path : PathBuf} {name : String} (hpath : PathBuf.Named path name)
    (hname : IsName name) :
    Outcome (fun _ fs' => Grown fs fs' (· ∈ missingAncestors fs path) ∧ fs'.isDir path)
      (fun fs' => Grown fs fs' (· ∈ missingAncestors fs path)) (createDirAll allows path fs) := by
  refine (forM_mkdir_outcome (missingAncestors fs path).reverse).mono ?_ fun fs' h =>
    h.mono fun _ => List.mem_reverse.mp
  rintro _ fs' ⟨hgrown, hdirs⟩
  refine ⟨hgrown.mono fun _ => List.mem_reverse.mp, ?_⟩
  -- it was there before, or it is the first that is missing
  by_cases hdir : fs.isDir path
  · exact hgrown.keeps path hdir
  · refine hdirs path (List.mem_reverse.mpr ?_)
    unfold missingAncestors PathBuf.ancestors PathBuf.ancestorsWithin
    rw [List.takeWhile_cons_of_pos]
    · exact List.mem_cons_self
    · simp [hpath.ne_empty hname, hpath.isSome_parent hname, hdir]

theorem missingAncestors_subset {path ancestor : PathBuf}
    (h : ancestor ∈ missingAncestors fs path) :
    ancestor ∈ PathBuf.ancestors path :=
  List.takeWhile_subset _ h

theorem takeWhile_ancestorsWithin {p : PathBuf → Bool} {fuel : Nat} {dir path : PathBuf}
    (h : path ∈ (PathBuf.ancestorsWithin fuel dir).takeWhile p) :
    p dir ∧ (path = dir ∨ ∃ parent fuel', PathBuf.parent dir = some parent
      ∧ path ∈ (PathBuf.ancestorsWithin fuel' parent).takeWhile p) := by
  cases fuel with
  | zero => cases h
  | succ fuel =>
      unfold PathBuf.ancestorsWithin at h
      by_cases hp : p dir
      · rw [List.takeWhile_cons_of_pos hp] at h
        refine ⟨hp, (List.mem_cons.mp h).imp_right fun h => ?_⟩
        cases hparent : PathBuf.parent dir with
        | none =>
            rw [hparent] at h
            cases h
        | some parent =>
            rw [hparent] at h
            exact ⟨parent, fuel, rfl, h⟩
      · rw [List.takeWhile_cons_of_neg hp] at h
        cases h

/-- **Where the configuration is a directory, only `match` and `packages` can be missing.** -/
theorem missingAncestors_packages {configDir path : PathBuf} (hplain : PathBuf.Plain configDir)
    (hdir : fs.isDir configDir)
    (h : path ∈ missingAncestors fs (getDefaultPackagesPath configDir)) :
    PathBuf.Named path "match" ∨ PathBuf.Named path "packages" := by
  have hmatch : IsName "match" := by decide
  have hnamed := join_named configDir hmatch
  have hpackages : IsName "packages" := by decide
  rcases (takeWhile_ancestorsWithin h).2 with rfl | ⟨parent, fuel, hparent, h⟩
  · exact .inr (join_named _ hpackages)
  · obtain rfl := Option.some.inj ((parent_join (hnamed.plain hmatch) hpackages).symm.trans hparent)
    rcases (takeWhile_ancestorsWithin h).2 with rfl | ⟨parent, fuel, hparent, h⟩
    · exact .inl hnamed
    · -- the next one is the configuration, which is there
      obtain rfl := Option.some.inj ((parent_join hplain hmatch).symm.trans hparent)
      have := (takeWhile_ancestorsWithin h).1
      simp [hdir] at this

theorem ask_outcome {α : Type} {question : FileSystem → Except Abort α} :
    Outcome (fun a fs' => fs' = fs ∧ question fs = .ok a) (fun fs' => fs' = fs)
      (ask question fs) := by
  unfold ask
  split
  · rename_i hanswer
    exact ⟨rfl, hanswer⟩
  · rfl

theorem expectCreated_outcome {created : EStateM Unit FileSystem Unit} {message : String}
    {returned : Unit → FileSystem → Prop} {ended : FileSystem → Prop}
    (h : Outcome returned ended (created fs)) :
    Outcome returned ended (expectCreated created message fs) := by
  unfold expectCreated
  split
  · rename_i hcreated
    rw [hcreated] at h
    exact h
  · rename_i hcreated
    rw [hcreated] at h
    exact h

/-- **What `resolve_paths` does for each of its directories.**  The directory is forced, or it is
one of the candidates: the first one that exists, or else a new one. -/
structure ResolvedDir (force : Option PathBuf) (candidates : List PathBuf) (fs : FileSystem)
    (dir : PathBuf) (fs' : FileSystem) : Prop where
  grown : Grown fs fs' (· ∈ missingAncestors fs dir)
  origin : force = some dir ∨ force = none ∧ dir ∈ candidates ∧ fs'.isDir dir
  next : ∀ next, force.or (candidates.find? fs.isDir) = some next → dir = next ∧ fs' = fs

theorem resolveDir_outcome {force : Option PathBuf}
    {find : FileSystem → Except Abort (Option PathBuf)}
    {default : FileSystem → Except Abort PathBuf} {message : String} {candidates : List PathBuf}
    (hfind : ∀ found, find fs = .ok found → candidates.find? fs.isDir = found)
    (hdefault : ∀ dir, default fs = .ok dir → dir ∈ candidates)
    (hnames : ∀ dir ∈ candidates, ∃ name, IsName name ∧ PathBuf.Named dir name) :
    Outcome (ResolvedDir force candidates fs)
      (fun fs' => fs' = fs ∨ force.or (candidates.find? fs.isDir) = none
        ∧ ∃ dir ∈ candidates, Grown fs fs' (· ∈ missingAncestors fs dir))
      (resolveDir allows force find default message fs) := by
  unfold resolveDir
  cases force with
  | some dir => exact ⟨.refl, .inl rfl, fun next h => ⟨Option.some.inj h, rfl⟩⟩
  | none =>
      refine (ask_outcome.mono (fun _ _ h => h) fun _ => .inl).bind ?_
      rintro found fs ⟨rfl, hfound⟩
      have hfirst := hfind found hfound
      cases found with
      | some dir =>
          refine ⟨.refl, .inr ⟨rfl, List.mem_of_find?_eq_some hfirst, List.find?_some hfirst⟩,
            fun next h => ⟨?_, rfl⟩⟩
          rw [hfirst] at h
          exact Option.some.inj h
      | none =>
          refine (ask_outcome.mono (fun _ _ h => h) fun _ => .inl).bind ?_
          rintro dir fs ⟨rfl, hdir⟩
          have hmem := hdefault dir hdir
          obtain ⟨name, hname, hnamed⟩ := hnames dir hmem
          have hcreated := @createDirAll_outcome allows fs _ _ hnamed hname
          refine ((expectCreated_outcome hcreated).mono (fun _ _ h => h) ?_).bind ?_
          · exact fun fs' h => .inr ⟨by rw [hfirst]; rfl, dir, hmem, h⟩
          · rintro _ fs' ⟨hgrown, hexists⟩
            refine ⟨hgrown, .inr ⟨rfl, hmem, hexists⟩, fun next h => ?_⟩
            rw [hfirst] at h
            cases h

/-- The packages have one candidate, which is found or created. -/
theorem resolvePackages_outcome {force : Option PathBuf} {configDir : PathBuf} {message : String} :
    Outcome (ResolvedDir force [getDefaultPackagesPath configDir] fs)
      (fun fs' => fs' = fs
        ∨ Grown fs fs' (· ∈ missingAncestors fs (getDefaultPackagesPath configDir)))
      (resolveDir allows force (getPackagesDir configDir)
        (fun _ => pure (getDefaultPackagesPath configDir)) message fs) := by
  refine (resolveDir_outcome (fun found h => ?_) (fun dir h => ?_) fun dir h => ?_).mono
    (fun _ _ h => h) ?_
  · rw [← Except.ok.inj h]
    exact find?_candidate (some (getDefaultPackagesPath configDir))
  · exact List.mem_singleton.mpr (Except.ok.inj h).symm
  · obtain rfl := List.mem_singleton.mp h
    exact ⟨"packages", by decide, join_named _ (by decide)⟩
  · rintro fs' (h | ⟨-, dir, hdir, hgrown⟩)
    · exact .inl h
    · obtain rfl := List.mem_singleton.mp hdir
      exact .inr hgrown

end Creation

section Start

variable [UnicodeTables] {env : Surroundings} {allows : PathBuf → Bool} {fs fs' : FileSystem}

/-- The directory that the command line or the environment forces. -/
def Surroundings.forced (env : Surroundings) (argument envVar : String) : Option PathBuf :=
  ((env.cliOverrides.lookup argument).or (env.vars.lookup envVar)).map
    fun text => PathBuf.from_ (trim text)

def Surroundings.forcedConfig (env : Surroundings) : Option PathBuf :=
  env.forced "config_dir" "SHINRAN_CONFIG_DIR"

def Surroundings.forcedPackages (env : Surroundings) : Option PathBuf :=
  env.forced "package_dir" "SHINRAN_PACKAGE_DIR"

def Surroundings.forcedRuntime (env : Surroundings) : Option PathBuf :=
  env.forced "runtime_dir" "SHINRAN_RUNTIME_DIR"

/-- An override is taken as it is, if it is a directory. -/
theorem getPathOverride_eq {argument envVar : String} {force : Option PathBuf}
    (h : getPathOverride env argument envVar fs = .ok force) :
    env.forced argument envVar = force ∧ ∀ dir ∈ force, fs.isDir dir := by
  unfold getPathOverride at h
  unfold Surroundings.forced
  dsimp only at h
  split at h
  · rename_i path hpath
    rw [hpath]
    split at h
    · rename_i hdir
      obtain rfl := Except.ok.inj h
      exact ⟨rfl, fun dir hmem => Option.some.inj hmem ▸ hdir⟩
    · cases h
  · rename_i hnone
    rw [hnone, Option.none_or]
    split at h
    · rename_i path hpath
      rw [hpath]
      split at h
      · rename_i hdir
        obtain rfl := Except.ok.inj h
        exact ⟨rfl, fun dir hmem => Option.some.inj hmem ▸ hdir⟩
      · cases h
    · rename_i hnone'
      rw [hnone']
      obtain rfl := Except.ok.inj h
      exact ⟨rfl, fun _ hmem => nomatch hmem⟩

/-- The config directory that the next start takes, if it is there now. -/
def Surroundings.nextConfig (env : Surroundings) (fs : FileSystem) : Option PathBuf :=
  env.forcedConfig.or (env.configCandidates.find? fs.isDir)

def Surroundings.nextRuntime (env : Surroundings) (fs : FileSystem) : Option PathBuf :=
  env.forcedRuntime.or (env.runtimeCandidates.find? fs.isDir)

/-- The packages belong to the configuration, unless they are forced to be elsewhere. -/
def Surroundings.packages (env : Surroundings) (config : PathBuf) : PathBuf :=
  env.forcedPackages.getD (getDefaultPackagesPath config)

omit [UnicodeTables] in
theorem isName_of_candidate {path : PathBuf} (h : path ∈ env.candidates) :
    ∃ name, IsName name ∧ PathBuf.Named path name := by
  obtain ⟨name, hname, hnamed⟩ := named_of_mem_candidates h
  exact ⟨name, isName_of_candidateNames name hname, hnamed⟩

/-- A directory that belongs to the packages. -/
def PackageDir (dir : PathBuf) : Prop := PathBuf.Named dir "match" ∨ PathBuf.Named dir "packages"

/-- The forced directories are there. -/
def Surroundings.ForcedExist (env : Surroundings) (fs : FileSystem) : Prop :=
  (∀ dir ∈ env.forcedConfig, fs.isDir dir) ∧ (∀ dir ∈ env.forcedPackages, fs.isDir dir)
    ∧ ∀ dir ∈ env.forcedRuntime, fs.isDir dir

/-- The three directories of a start, one after another. -/
structure Started (env : Surroundings) (fs : FileSystem) (paths : Paths) (fs' : FileSystem) :
    Prop where
  forced : env.ForcedExist fs
  resolved : ∃ fs₁ fs₂,
    ResolvedDir env.forcedConfig env.configCandidates fs paths.config fs₁
      ∧ ResolvedDir env.forcedRuntime env.runtimeCandidates fs₁ paths.runtime fs₂
      ∧ ResolvedDir env.forcedPackages [getDefaultPackagesPath paths.config] fs₂ paths.packages fs'

/-- Nothing is created but directories of the packages, if the others are there. -/
def SettledGrowth (env : Surroundings) (fs fs' : FileSystem) : Prop :=
  (env.nextConfig fs).isSome → (env.nextRuntime fs).isSome → Grown fs fs' PackageDir

theorem Surroundings.plain_nextConfig {dir : PathBuf} (h : env.nextConfig fs = some dir) :
    PathBuf.Plain dir := by
  rcases Option.or_eq_some_iff.mp h with h | ⟨-, h⟩
  · obtain ⟨text, -, rfl⟩ := Option.map_eq_some_iff.mp h
    exact plain_from_ _
  · obtain ⟨name, hname, hnamed⟩ := isName_of_candidate (List.mem_append_left _
      (List.mem_of_find?_eq_some h))
    exact hnamed.plain hname

theorem Surroundings.isDir_nextConfig {dir : PathBuf} (hforced : env.ForcedExist fs)
    (h : env.nextConfig fs = some dir) : fs.isDir dir := by
  rcases Option.or_eq_some_iff.mp h with h | ⟨-, h⟩
  · exact hforced.1 dir h
  · exact List.find?_some h

theorem override_outcome {argument envVar : String} :
    Outcome (fun force fs' => fs' = fs ∧ env.forced argument envVar = force
        ∧ ∀ dir ∈ env.forced argument envVar, fs.isDir dir) (· = fs)
      (ask (getPathOverride env argument envVar) fs) := by
  refine ask_outcome.mono ?_ fun _ h => h
  rintro force _ ⟨rfl, hforce⟩
  obtain ⟨rfl, hdirs⟩ := getPathOverride_eq hforce
  exact ⟨rfl, rfl, hdirs⟩

/-- **What a start does**, whether it gets its directories or ends early. -/
theorem startPaths_outcome : Outcome (Started env fs) (SettledGrowth env fs)
    (startPaths env allows fs) := by
  have hquiet : ∀ fs', fs' = fs → SettledGrowth env fs fs' := by
    rintro _ rfl _ _
    exact .refl
  refine (override_outcome.mono (fun _ _ h => h) hquiet).bind ?_
  rintro _ fs ⟨rfl, rfl, hforcedConfig⟩
  refine (override_outcome.mono (fun _ _ h => h) hquiet).bind ?_
  rintro _ fs ⟨rfl, rfl, hforcedPackages⟩
  refine (override_outcome.mono (fun _ _ h => h) hquiet).bind ?_
  rintro _ fs ⟨rfl, rfl, hforcedRuntime⟩
  have hforced : env.ForcedExist fs := ⟨hforcedConfig, hforcedPackages, hforcedRuntime⟩
  -- the config directory
  refine ((resolveDir_outcome (fun _ => getConfigDir_eq) (fun _ => getDefaultConfigPath_mem)
    fun dir h => isName_of_candidate (List.mem_append_left _ h)).mono (fun _ _ h => h) ?_).bind ?_
  · rintro fs' (h | ⟨hnone, -⟩) hsome
    · exact fun hsome' => hquiet fs' h hsome hsome'
    · rw [show env.nextConfig fs = none from hnone] at hsome
      cases hsome
  intro config fs₁ hconfig
  -- the runtime directory
  refine ((resolveDir_outcome (fun _ => getRuntimeDir_eq) (fun _ => getNewRuntimePath_mem)
    fun dir h => isName_of_candidate (List.mem_append_right _ h)).mono (fun _ _ h => h) ?_).bind ?_
  · rintro fs' h hsome hsome'
    obtain ⟨next, hnext⟩ := Option.isSome_iff_exists.mp hsome
    obtain ⟨-, rfl⟩ := hconfig.next next hnext
    rcases h with h | ⟨hnone, -⟩
    · exact hquiet fs' h hsome hsome'
    · rw [show env.nextRuntime _ = none from hnone] at hsome'
      cases hsome'
  intro runtime fs₂ hruntime
  -- the packages
  refine (resolvePackages_outcome.mono (fun _ _ h => h) ?_).bind fun packages fs₃ hpackages =>
    ⟨hforced, fs₁, fs₂, hconfig, hruntime, hpackages⟩
  intro fs' h hsome hsome'
  obtain ⟨next, hnext⟩ := Option.isSome_iff_exists.mp hsome
  obtain ⟨rfl, rfl⟩ := hconfig.next next hnext
  obtain ⟨next', hnext'⟩ := Option.isSome_iff_exists.mp hsome'
  obtain ⟨-, rfl⟩ := hruntime.next next' hnext'
  rcases h with h | hgrown
  · exact hquiet fs' h hsome hsome'
  · exact hgrown.mono fun dir hmissing => missingAncestors_packages
      (env.plain_nextConfig hnext) (env.isDir_nextConfig hforced hnext) hmissing

variable {paths : Paths}

theorem Started.packages (h : Started env fs paths fs') :
    paths.packages = env.packages paths.config := by
  obtain ⟨fs₁, fs₂, -, -, hpackages⟩ := h.resolved
  unfold Surroundings.packages
  rcases hpackages.origin with hforce | ⟨hnone, hmem, -⟩
  · rw [hforce, Option.getD_some]
  · rw [hnone, Option.getD_none]
    exact List.mem_singleton.mp hmem

/-- **What a start creates.**  Directories of its own and their ancestors; the rest stays. -/
theorem Started.grown (h : Started env fs paths fs') :
    Grown fs fs' fun dir => dir ∈ PathBuf.ancestors paths.config
      ∨ dir ∈ PathBuf.ancestors paths.runtime ∨ dir ∈ PathBuf.ancestors paths.packages := by
  obtain ⟨fs₁, fs₂, hconfig, hruntime, hpackages⟩ := h.resolved
  refine ((hconfig.grown.mono fun dir hdir => ?_).trans
    (hruntime.grown.mono fun dir hdir => ?_)).trans (hpackages.grown.mono fun dir hdir => ?_)
  · exact .inl (missingAncestors_subset hdir)
  · exact .inr (.inl (missingAncestors_subset hdir))
  · exact .inr (.inr (missingAncestors_subset hdir))

/-- What a start takes is there after it. -/
theorem Started.exist (h : Started env fs paths fs') :
    fs'.isDir paths.config ∧ fs'.isDir paths.runtime ∧ fs'.isDir paths.packages := by
  have hall := h.grown.keeps
  obtain ⟨fs₁, fs₂, hconfig, hruntime, hpackages⟩ := h.resolved
  refine ⟨?_, ?_, ?_⟩
  · rcases hconfig.origin with hforce | ⟨-, -, hdir⟩
    · exact hall _ (h.forced.1 _ hforce)
    · exact hpackages.grown.keeps _ (hruntime.grown.keeps _ hdir)
  · rcases hruntime.origin with hforce | ⟨-, -, hdir⟩
    · exact hall _ (h.forced.2.2 _ hforce)
    · exact hpackages.grown.keeps _ hdir
  · rcases hpackages.origin with hforce | ⟨-, -, hdir⟩
    · exact hall _ (h.forced.2.1 _ hforce)
    · exact hdir

/-- **Where the next directories are there, a start takes them**, and creates at most directories
of the packages. -/
theorem Started.next {config runtime : PathBuf} (h : Started env fs paths fs')
    (hconfig : env.nextConfig fs = some config) (hruntime : env.nextRuntime fs = some runtime) :
    paths.config = config ∧ paths.runtime = runtime ∧ Grown fs fs' PackageDir := by
  obtain ⟨fs₁, fs₂, hresolved, hresolved', hpackages⟩ := h.resolved
  obtain ⟨rfl, rfl⟩ := hresolved.next config hconfig
  obtain ⟨rfl, rfl⟩ := hresolved'.next runtime hruntime
  refine ⟨rfl, rfl, ?_⟩
  rcases hpackages.origin with hforce | ⟨-, hmem, -⟩
  · obtain ⟨-, rfl⟩ := hpackages.next paths.packages (Option.or_eq_some_iff.mpr (.inl hforce))
    exact .refl
  · have heq := List.mem_singleton.mp hmem
    refine hpackages.grown.mono fun dir hmissing => ?_
    rw [heq] at hmissing
    exact missingAncestors_packages (env.plain_nextConfig hconfig)
      (env.isDir_nextConfig h.forced hconfig) hmissing

end Start

/-! ## §6. One start after another. -/

section Runs

variable [UnicodeTables]

/-- The directories that every start takes from now on, as long as the candidates stay. -/
structure NextDirs (env : Surroundings) (settled : Paths) (fs : FileSystem) : Prop where
  config : env.nextConfig fs = some settled.config
  runtime : env.nextRuntime fs = some settled.runtime
  packages : settled.packages = env.packages settled.config

/-- What happens to the directories: starts, with what the system lets them create, and what
others do. -/
inductive PathEvent where
  | start (allows : PathBuf → Bool)
  | createDir (path : PathBuf)
  | removeDir (path : PathBuf)
  | write (path : PathBuf) (entry : FileEntry)
  | delete (path : PathBuf)

/-- A start emits its directories, unless it ends early. -/
def pathsStep (env : Surroundings) : Step FileSystem PathEvent Paths Empty
  | fs, .start allows =>
      match startPaths env allows fs with
      | .ok paths fs' => .ok (fs', [paths])
      | .error _ fs' => .ok (fs', [])
  | fs, .createDir path => .ok ({ fs with directories := path :: fs.directories }, [])
  | fs, .removeDir path =>
      .ok ({ fs with directories := fs.directories.filter (· ≠ path) }, [])
  | fs, .write path entry => .ok ({ fs with files := fs.files.insert path entry }, [])
  | fs, .delete path => .ok ({ fs with files := fs.files.erase path }, [])

/-- Others leave the candidates alone. -/
def Elsewhere (env : Surroundings) : Guard FileSystem PathEvent := fun _ _ event =>
  match event with
  | .createDir path | .removeDir path => path ∉ env.candidates
  | _ => True

variable {env : Surroundings} {fs fs' : FileSystem} {settled : Paths}

theorem NextDirs.congr (h : NextDirs env settled fs)
    (hsame : ∀ path ∈ env.candidates, fs'.isDir path = fs.isDir path) :
    NextDirs env settled fs' := by
  refine ⟨?_, ?_, h.packages⟩
  · rw [← h.config]
    unfold Surroundings.nextConfig
    rw [find?_congr fun path hpath => hsame path (List.mem_append_left _ hpath)]
  · rw [← h.runtime]
    unfold Surroundings.nextRuntime
    rw [find?_congr fun path hpath => hsame path (List.mem_append_right _ hpath)]

/-- No candidate is among the directories of the packages. -/
theorem NextDirs.grown (h : NextDirs env settled fs) (hgrown : Grown fs fs' PackageDir) :
    NextDirs env settled fs' := by
  refine h.congr fun path hpath => ?_
  obtain ⟨name, hname, hnamed⟩ := named_of_mem_candidates hpath
  have hold : fs'.isDir path → fs.isDir path := fun hdir =>
    (hgrown.created path hdir).resolve_right fun hpackage => by
      rcases hpackage with h' | h'
      · rw [hnamed.unique h'] at hname
        exact absurd hname (by decide)
      · rw [hnamed.unique h'] at hname
        exact absurd hname (by decide)
  exact Bool.eq_iff_iff.mpr ⟨hold, hgrown.keeps path⟩

omit [UnicodeTables] in
theorem exists_next {force : Option PathBuf} {candidates : List PathBuf} {dir : PathBuf}
    (horigin : force = some dir ∨ force = none ∧ dir ∈ candidates) (hdir : fs.isDir dir) :
    ∃ next, force.or (candidates.find? fs.isDir) = some next := by
  rcases horigin with rfl | ⟨rfl, hmem⟩
  · exact ⟨dir, rfl⟩
  · exact Option.isSome_iff_exists.mp (List.find?_isSome.mpr ⟨dir, hmem, hdir⟩)

/-- What would be taken rather than the directory. -/
def preferredTo (force : Option PathBuf) (candidates : List PathBuf) (dir : PathBuf) :
    List PathBuf :=
  if force.isSome then [] else candidates.takeWhile (· ≠ dir)

omit [UnicodeTables] in
theorem next_eq_iff {force : Option PathBuf} {candidates : List PathBuf} {dir : PathBuf}
    (horigin : force = some dir ∨ force = none ∧ dir ∈ candidates) (hdir : fs.isDir dir) :
    force.or (candidates.find? fs.isDir) = some dir
      ↔ ∀ other ∈ preferredTo force candidates dir, ¬ fs.isDir other := by
  rcases horigin with rfl | ⟨rfl, hmem⟩
  · exact ⟨fun _ _ h => (nomatch h), fun _ => rfl⟩
  · rw [Option.none_or]
    exact find?_eq_some_iff_takeWhile hmem hdir

/-- What the next start would take rather than the directories of this one. -/
def Surroundings.preferredTo (env : Surroundings) (paths : Paths) : List PathBuf :=
  Shinran.preferredTo env.forcedConfig env.configCandidates paths.config
    ++ Shinran.preferredTo env.forcedRuntime env.runtimeCandidates paths.runtime

theorem Started.origin {paths : Paths} (h : Started env fs paths fs') :
    (env.forcedConfig = some paths.config
        ∨ env.forcedConfig = none ∧ paths.config ∈ env.configCandidates)
      ∧ (env.forcedRuntime = some paths.runtime
        ∨ env.forcedRuntime = none ∧ paths.runtime ∈ env.runtimeCandidates) := by
  obtain ⟨fs₁, fs₂, hconfig, hruntime, -⟩ := h.resolved
  exact ⟨hconfig.origin.imp_right fun h => ⟨h.1, h.2.1⟩,
    hruntime.origin.imp_right fun h => ⟨h.1, h.2.1⟩⟩

/-- **After a start the next directories are there**, and they are its own unless something is
there that is preferred to them. -/
theorem Started.exists_next {paths : Paths} (h : Started env fs paths fs') :
    ∃ settled, NextDirs env settled fs'
      ∧ (settled = paths ↔ ∀ dir ∈ env.preferredTo paths, ¬ fs'.isDir dir) := by
  obtain ⟨hdir, hdir', -⟩ := h.exist
  obtain ⟨horigin, horigin'⟩ := h.origin
  obtain ⟨config, hconfig⟩ := Shinran.exists_next horigin hdir
  obtain ⟨runtime, hruntime⟩ := Shinran.exists_next horigin' hdir'
  refine ⟨⟨config, runtime, env.packages config⟩, ⟨hconfig, hruntime, rfl⟩, ?_⟩
  unfold Surroundings.preferredTo
  rw [List.forall_mem_append, ← next_eq_iff horigin hdir, ← next_eq_iff horigin' hdir', hconfig,
    hruntime]
  constructor
  · rintro rfl
    exact ⟨rfl, rfl⟩
  · rintro ⟨heq, heq'⟩
    obtain rfl := Option.some.inj heq
    obtain rfl := Option.some.inj heq'
    rw [← h.packages]

/-- A start when the next directories are there. -/
theorem NextDirs.start {allows : PathBuf → Bool} (h : NextDirs env settled fs) :
    Outcome (fun paths fs' => paths = settled ∧ NextDirs env settled fs')
      (NextDirs env settled) (startPaths env allows fs) := by
  refine startPaths_outcome.mono (fun paths fs' hstart => ?_) fun fs' hgrown => ?_
  · obtain ⟨hconfig, hruntime, hgrown⟩ := hstart.next h.config h.runtime
    refine ⟨?_, h.grown hgrown⟩
    have hpackages := hstart.packages
    rw [hconfig, ← h.packages] at hpackages
    cases paths
    cases settled
    simp_all
  · exact h.grown (hgrown (Option.isSome_iff_exists.mpr ⟨_, h.config⟩)
      (Option.isSome_iff_exists.mpr ⟨_, h.runtime⟩))

/-- **The step lemma**: whatever happens elsewhere, the next directories stay, and starts take
them. -/
theorem NextDirs.step {events : List PathEvent} {event : PathEvent} {emitted : List Paths}
    (h : NextDirs env settled fs) (hguard : Elsewhere env events fs event)
    (hstep : pathsStep env fs event = .ok (fs', emitted)) :
    NextDirs env settled fs' ∧ ∀ paths ∈ emitted, paths = settled := by
  cases event with
  | start allows =>
      have hstart := @NextDirs.start _ _ _ _ allows h
      unfold pathsStep at hstep
      dsimp only at hstep
      split at hstep
      · rename_i paths fs₁ hok
        rw [hok] at hstart
        cases hstep
        refine ⟨hstart.2, fun later hmem => ?_⟩
        rw [List.mem_singleton.mp hmem]
        exact hstart.1
      · rename_i abort fs₁ herror
        rw [herror] at hstart
        cases hstep
        exact ⟨hstart, fun _ hmem => nomatch hmem⟩
  | createDir path =>
      cases hstep
      refine ⟨h.congr fun candidate hmem => ?_, fun _ hmem => nomatch hmem⟩
      have hne : candidate ≠ path := fun heq => hguard (heq ▸ hmem)
      simp [FileSystem.isDir, hne]
  | removeDir path =>
      cases hstep
      refine ⟨h.congr fun candidate hmem => ?_, fun _ hmem => nomatch hmem⟩
      have hne : candidate ≠ path := fun heq => hguard (heq ▸ hmem)
      simp [FileSystem.isDir, hne]
  | write path entry =>
      cases hstep
      exact ⟨h.congr fun _ _ => rfl, fun _ hmem => nomatch hmem⟩
  | delete path =>
      cases hstep
      exact ⟨h.congr fun _ _ => rfl, fun _ hmem => nomatch hmem⟩

/-- **From the second start on the directories are the same.**  A start creates its directories
and their ancestors and leaves the files alone.  In every run after it, as long as others leave
the candidates alone, all starts that get their directories get the same ones; and these are the
directories of the first start exactly if nothing that is preferred to them was there after it. -/
theorem paths_of_run {allows : PathBuf → Bool} {paths : Paths} {events : List PathEvent}
    {emitted : List Paths} {st : FileSystem} (hstart : startPaths env allows fs = .ok paths fs')
    (hrun : Run (pathsStep env) (Elsewhere env) fs' events emitted st) :
    (fs'.isDir paths.config ∧ fs'.isDir paths.runtime ∧ fs'.isDir paths.packages)
      ∧ Grown fs fs' (fun dir => dir ∈ PathBuf.ancestors paths.config
        ∨ dir ∈ PathBuf.ancestors paths.runtime ∨ dir ∈ PathBuf.ancestors paths.packages)
      ∧ ∃ settled, (∀ later ∈ emitted, later = settled)
        ∧ (settled = paths ↔ ∀ dir ∈ env.preferredTo paths, ¬ fs'.isDir dir) := by
  have hstarted := @startPaths_outcome _ env allows fs
  rw [hstart] at hstarted
  obtain ⟨settled, hnext, hiff⟩ := hstarted.exists_next
  have hinvariant : NextDirs env settled st ∧ ∀ later ∈ emitted, later = settled := by
    refine hrun.invariant (fun _ emitted fs => NextDirs env settled fs
      ∧ ∀ later ∈ emitted, later = settled) ⟨hnext, fun _ hmem => nomatch hmem⟩ ?_
    intro events emitted fs event fs' more ih hguard hstep
    obtain ⟨hnext', hmore⟩ := ih.1.step hguard hstep
    exact ⟨hnext', List.forall_mem_append.mpr ⟨ih.2, hmore⟩⟩
  exact ⟨hstarted.exist, hstarted.grown, settled, hinvariant.2, hiff⟩

instance (events : List PathEvent) (fs : FileSystem) (event : PathEvent) :
    Decidable (Elsewhere env events fs event) :=
  match event with
  | .createDir path | .removeDir path => inferInstanceAs (Decidable (path ∉ env.candidates))
  | .start _ | .write _ _ | .delete _ => .isTrue trivial

/-- Caches are kept in `.config`, and configurations elsewhere. -/
def mixedSurroundings : Surroundings where
  currentExe := some "/usr/bin/shinran"
  homeDir := some "/home"
  configDir := some "/xdg"
  cacheDir := some "/home/.config"
  cliOverrides := ∅
  vars := ∅

def freshHome : FileSystem := ⟨∅, ["/", "/home", "/usr", "/usr/bin", "/xdg"]⟩

/-- Two more starts, and another directory in between. -/
def laterStarts : List PathEvent :=
  [.start fun _ => true, .createDir "/home/notes", .start fun _ => true]

omit [UnicodeTables] in
/-- The runtime directory of the first start comes with `.config/shinran`, where all later ones
find their configuration. -/
theorem paths_of_run_mixed : ∃ paths fs' emitted st settled,
    @startPaths .ascii mixedSurroundings (fun _ => true) freshHome = .ok paths fs'
      ∧ Run (@pathsStep .ascii mixedSurroundings) (Elsewhere mixedSurroundings) fs' laterStarts
        emitted st
      ∧ emitted.length = 2 ∧ (∀ later ∈ emitted, later = settled) ∧ settled ≠ paths := by
  have htest : (match @startPaths .ascii mixedSurroundings (fun _ => true) freshHome with
      | .ok paths fs' =>
          (exec (@pathsStep .ascii mixedSurroundings) (Elsewhere mixedSurroundings) [] [] fs'
            laterStarts).any (fun result => decide (result.1.length = 2))
            && (@Surroundings.preferredTo .ascii mixedSurroundings paths).any fs'.isDir
      | .error _ _ => false) = true := by decide +kernel
  split at htest
  · rename_i paths fs' hstart
    obtain ⟨hexec, hpreferred⟩ := Bool.and_eq_true_iff.mp htest
    obtain ⟨emitted, st, hrun, hlength⟩ := Run.exists_of_exec
      (fun emitted _ => decide (emitted.length = 2)) hexec fun _ _ _ h => of_decide_eq_true h
    obtain ⟨-, -, settled, hsettled, hiff⟩ := @paths_of_run .ascii _ _ _ _ _ _ _ _ hstart hrun
    refine ⟨paths, fs', emitted, st, settled, hstart, hrun, hlength, hsettled, fun heq => ?_⟩
    obtain ⟨dir, hmem, hdir⟩ := List.any_eq_true.mp hpreferred
    exact hiff.mp heq dir hmem hdir
  · cases htest

end Runs

end Shinran
