/-
  Shinran.Config.FileSystem
  ─────────────────────────
  **THE FILES THAT A LOAD READS.**

  A file system is a finite map from canonical paths, on which there are no
  symbolic links, to contents and modification times, and a set of
  directories.  What the code asks of paths (`std::path`) is computed from
  their text; what it asks of the world is a question to the map.

    • `Edit`, `Edits`     — creating, overwriting and deleting files after a
                            point in time,
    • `Edits.unchanged`   — a file that is not newer than that point is what it
                            was before the edits.
-/
import Mathlib.Data.List.Dedup
import Mathlib.Logic.Relation
import Shinran.Config.MatchStore

namespace Shinran

open Relation

/-! ## §1. Paths. -/

/-- `Path::join`. -/
def PathBuf.join (dir path : PathBuf) : PathBuf :=
  -- an absolute path replaces the directory
  if path.toList.head? = some '/' then path
  else if dir = "" ∨ dir.toList.getLast? = some '/' then dir ++ path
  else dir ++ "/" ++ path

/-- The characters up to the last `/`, and those behind it, both in reverse. -/
def PathBuf.splitName (path : PathBuf) : List Char × List Char :=
  let name := path.toList.reverse.takeWhile (· ≠ '/')
  (path.toList.reverse.drop name.length, name)

/-- `Path::parent`. -/
def PathBuf.parent (path : PathBuf) : Option PathBuf :=
  match PathBuf.splitName path with
  | ([], []) => none
  | ([], _) => some ""
  -- the root has no parent, and is the parent of what is directly in it
  | (['/'], []) => none
  | (['/'], _) => some "/"
  | (_ :: dir, _) => some (String.ofList dir.reverse)

/-- `Path::extension`. -/
def PathBuf.extension (path : PathBuf) : Option String :=
  let name := (PathBuf.splitName path).2
  let extension := name.takeWhile (· ≠ '.')
  match name.drop extension.length with
  | [] => none
  -- a name that starts with its only dot has no extension
  | ['.'] => none
  | _ => some (String.ofList extension.reverse)

/-- `YAMLImporter::is_supported`. -/
def isSupported (extension : String) : Bool :=
  toAsciiLowercase extension = "yaml" || toAsciiLowercase extension = "yml"

/-- The path has an extension, and the extension is supported. -/
def PathBuf.isSupported (path : PathBuf) : Bool :=
  (PathBuf.extension path).any Shinran.isSupported

example : PathBuf.parent "/shinran/match/base.yml" = some "/shinran/match" := by decide
example : PathBuf.extension "/shinran/match/base.YML" = some "YML" := by decide

/-! ## §2. File systems. -/

structure FileEntry where
  content : String
  modified : Nat
  deriving DecidableEq, Repr

structure FileSystem where
  files : HashMap PathBuf FileEntry
  directories : List PathBuf

namespace FileSystem

/-- `Path::is_file`. -/
def isFile (fs : FileSystem) (path : PathBuf) : Bool := (fs.files.lookup path).isSome

/-- `Path::is_dir`. -/
def isDir (fs : FileSystem) (path : PathBuf) : Bool := path ∈ fs.directories

/-- `Path::exists`. -/
def exists_ (fs : FileSystem) (path : PathBuf) : Bool := fs.isFile path || fs.isDir path

/-- All paths that exist, each once. -/
def paths (fs : FileSystem) : List PathBuf := (fs.files.keys ++ fs.directories).dedup

/-- `std::fs::read_to_string`. -/
def readToString (fs : FileSystem) (path : PathBuf) : Option String :=
  (fs.files.lookup path).map (·.content)

/-- `std::fs::read_dir`: the paths directly in the directory. -/
def readDir (fs : FileSystem) (dir : PathBuf) : Option (List PathBuf) :=
  if fs.isDir dir then some (fs.paths.filter fun path => PathBuf.parent path = some dir)
  else none

theorem isFile_iff {fs : FileSystem} {path : PathBuf} :
    fs.isFile path ↔ ∃ entry, fs.files.lookup path = some entry := by
  unfold isFile
  exact Option.isSome_iff_exists

theorem mem_paths {fs : FileSystem} {path : PathBuf} :
    path ∈ fs.paths ↔ fs.exists_ path := by
  unfold paths exists_ isFile isDir
  rw [List.mem_dedup, List.mem_append, ← AList.mem_keys, ← AList.lookup_isSome]
  simp

/-! ## §3. Edits. -/

/-- Files are written and deleted, after the time `T`. -/
inductive Edit (T : Nat) : FileSystem → FileSystem → Prop
  | write (fs : FileSystem) (path : PathBuf) (entry : FileEntry) : T < entry.modified →
      Edit T fs { fs with files := fs.files.insert path entry }
  | delete (fs : FileSystem) (path : PathBuf) :
      Edit T fs { fs with files := fs.files.erase path }

/-- Any number of edits. -/
def Edits (T : Nat) : FileSystem → FileSystem → Prop := ReflTransGen (Edit T)

/-- No file has been modified after `T`. -/
def NotNewer (fs : FileSystem) (T : Nat) : Prop :=
  ∀ path entry, fs.files.lookup path = some entry → entry.modified ≤ T

/-- A file after an edit is there before it, or it is new. -/
theorem Edit.lookup {T : Nat} {fs fs' : FileSystem} (h : Edit T fs fs') {path : PathBuf}
    {entry : FileEntry} (hentry : fs'.files.lookup path = some entry) :
    fs.files.lookup path = some entry ∨ T < entry.modified := by
  cases h with
  | write path' entry' hnew =>
      by_cases hpath : path = path'
      · subst hpath
        obtain rfl : entry' = entry := by simpa using hentry
        exact .inr hnew
      · rw [AList.lookup_insert_ne hpath] at hentry
        exact .inl hentry
  | delete path' =>
      by_cases hpath : path = path'
      · subst hpath
        simp at hentry
      · rw [AList.lookup_erase_ne hpath] at hentry
        exact .inl hentry

theorem Edit.directories {T : Nat} {fs fs' : FileSystem} (h : Edit T fs fs') :
    fs'.directories = fs.directories := by
  cases h <;> rfl

theorem Edits.directories {T : Nat} {fs fs' : FileSystem} (h : Edits T fs fs') :
    fs'.directories = fs.directories := by
  induction h with
  | refl => rfl
  | tail _ hedit ih => exact hedit.directories.trans ih

/-- **A file that is not newer than the edits is unchanged.** -/
theorem Edits.unchanged {T : Nat} {fs fs' : FileSystem} (h : Edits T fs fs') {path : PathBuf}
    {entry : FileEntry} (hentry : fs'.files.lookup path = some entry)
    (hold : entry.modified ≤ T) : fs.files.lookup path = some entry := by
  -- backwards through the edits: the entry is too old to have been written by one of them
  induction h with
  | refl => exact hentry
  | tail _ hedit ih =>
      cases hedit.lookup hentry with
      | inl hentry => exact ih hentry
      | inr hnew => omega

end FileSystem

end Shinran
