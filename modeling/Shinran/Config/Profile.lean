/-
  Shinran.Config.Profile
  ──────────────────────
  **PROFILES** (`shinran_config::config`, and `load` of `shinran_config`).

  A profile is a configuration file with the match files that its globs
  select.  Its match files are paths when it has been loaded, and slots once
  the store is there.
-/
import Shinran.Config.MatchStore

namespace Shinran

/-! ## §1. Profile files. -/

structure ParsedConfig where
  label : Option String := none
  backend : Option String := none
  enable : Option Bool := none
  clipboardThreshold : Option UInt64 := none
  autoRestart : Option Bool := none
  preserveClipboard : Option Bool := none
  toggleKey : Option String := none
  pasteShortcut : Option String := none
  disableX11FastInject : Option Bool := none
  wordSeparators : Option (List String) := none
  backspaceLimit : Option UInt64 := none
  applyPatch : Option Bool := none
  searchTrigger : Option String := none
  searchShortcut : Option String := none
  undoBackspace : Option Bool := none
  showNotifications : Option Bool := none
  showIcon : Option Bool := none
  secureInputNotification : Option Bool := none
  postFormDelay : Option UInt64 := none
  maxFormWidth : Option UInt64 := none
  maxFormHeight : Option UInt64 := none
  postSearchDelay : Option UInt64 := none
  emulateAltCodes : Option Bool := none
  win32ExcludeOrphanEvents : Option Bool := none
  win32KeyboardLayoutCacheInterval : Option Int64 := none
  x11UseXclipBackend : Option Bool := none
  x11UseXdotoolBackend : Option Bool := none
  prePasteDelay : Option UInt64 := none
  restoreClipboardDelay : Option UInt64 := none
  pasteShortcutEventDelay : Option UInt64 := none
  injectDelay : Option UInt64 := none
  keyDelay : Option UInt64 := none
  keyboardLayout : Option (List (String × String)) := none
  evdevModifierDelay : Option UInt64 := none
  includes : Option (List String) := none
  excludes : Option (List String) := none
  extraIncludes : Option (List String) := none
  extraExcludes : Option (List String) := none
  useStandardIncludes : Option Bool := none
  filterTitle : Option String := none
  filterClass : Option String := none
  filterExec : Option String := none
  filterOs : Option String := none
  deriving DecidableEq, Repr

/-- `inherit`: the fields that the child leaves open are those of the parent. -/
def inherit (child parent : ParsedConfig) : ParsedConfig where
  label := child.label.or parent.label
  backend := child.backend.or parent.backend
  enable := child.enable.or parent.enable
  clipboardThreshold := child.clipboardThreshold.or parent.clipboardThreshold
  autoRestart := child.autoRestart.or parent.autoRestart
  preserveClipboard := child.preserveClipboard.or parent.preserveClipboard
  toggleKey := child.toggleKey.or parent.toggleKey
  pasteShortcut := child.pasteShortcut.or parent.pasteShortcut
  disableX11FastInject := child.disableX11FastInject.or parent.disableX11FastInject
  wordSeparators := child.wordSeparators.or parent.wordSeparators
  backspaceLimit := child.backspaceLimit.or parent.backspaceLimit
  applyPatch := child.applyPatch.or parent.applyPatch
  searchTrigger := child.searchTrigger.or parent.searchTrigger
  searchShortcut := child.searchShortcut.or parent.searchShortcut
  undoBackspace := child.undoBackspace.or parent.undoBackspace
  showNotifications := child.showNotifications.or parent.showNotifications
  showIcon := child.showIcon.or parent.showIcon
  secureInputNotification := child.secureInputNotification.or parent.secureInputNotification
  postFormDelay := child.postFormDelay.or parent.postFormDelay
  maxFormWidth := child.maxFormWidth.or parent.maxFormWidth
  maxFormHeight := child.maxFormHeight.or parent.maxFormHeight
  postSearchDelay := child.postSearchDelay.or parent.postSearchDelay
  emulateAltCodes := child.emulateAltCodes.or parent.emulateAltCodes
  win32ExcludeOrphanEvents := child.win32ExcludeOrphanEvents.or parent.win32ExcludeOrphanEvents
  win32KeyboardLayoutCacheInterval := child.win32KeyboardLayoutCacheInterval.or parent.win32KeyboardLayoutCacheInterval
  x11UseXclipBackend := child.x11UseXclipBackend.or parent.x11UseXclipBackend
  x11UseXdotoolBackend := child.x11UseXdotoolBackend.or parent.x11UseXdotoolBackend
  prePasteDelay := child.prePasteDelay.or parent.prePasteDelay
  restoreClipboardDelay := child.restoreClipboardDelay.or parent.restoreClipboardDelay
  pasteShortcutEventDelay := child.pasteShortcutEventDelay.or parent.pasteShortcutEventDelay
  injectDelay := child.injectDelay.or parent.injectDelay
  keyDelay := child.keyDelay.or parent.keyDelay
  keyboardLayout := child.keyboardLayout.or parent.keyboardLayout
  evdevModifierDelay := child.evdevModifierDelay.or parent.evdevModifierDelay
  includes := child.includes.or parent.includes
  excludes := child.excludes.or parent.excludes
  extraIncludes := child.extraIncludes.or parent.extraIncludes
  extraExcludes := child.extraExcludes.or parent.extraExcludes
  useStandardIncludes := child.useStandardIncludes.or parent.useStandardIncludes
  filterTitle := child.filterTitle.or parent.filterTitle
  filterClass := child.filterClass.or parent.filterClass
  filterExec := child.filterExec.or parent.filterExec
  filterOs := child.filterOs.or parent.filterOs

/-- `Filters`, each given by the text of its regular expression. -/
structure Filters where
  title : Option String := none
  class_ : Option String := none
  exec : Option String := none
  deriving DecidableEq, Repr

structure LoadedProfileFile where
  content : ParsedConfig := {}
  sourcePath : PathBuf
  matchFilePaths : List PathBuf := []
  filter : Filters := {}
  deriving DecidableEq, Repr

structure ProfileFile where
  content : ParsedConfig := {}
  sourcePath : PathBuf
  matchFilePaths : List MatchFileRef := []
  filter : Filters := {}
  deriving DecidableEq, Repr

/-- `ProfileFile::from_loaded_profile`. -/
def ProfileFile.fromLoadedProfile (loaded : LoadedProfileFile)
    (fileMap : HashMap PathBuf MatchFileRef) : ProfileFile where
  content := loaded.content
  sourcePath := loaded.sourcePath
  matchFilePaths := loaded.matchFilePaths.filterMap fun path => fileMap.lookup path
  filter := loaded.filter

/-! ## §2. Profile stores. -/

structure LoadedProfileStore where
  defaultProfile : LoadedProfileFile
  customProfiles : List LoadedProfileFile := []

structure ProfileStore where
  defaultProfile : ProfileFile
  customProfiles : List ProfileFile := []

/-- The order in which hash sets of paths are iterated: any permutation of each. -/
structure PathOrder where
  iter : List PathBuf → List PathBuf
  perm : ∀ paths, (iter paths).Perm paths

def PathOrder.canonical : PathOrder := ⟨id, fun _ => .refl _⟩

/-- All profiles, the default one first. -/
def LoadedProfileStore.profiles (store : LoadedProfileStore) : List LoadedProfileFile :=
  store.defaultProfile :: store.customProfiles

/-- All profiles, the default one first (`get_parsed_configs`). -/
def ProfileStore.profiles (store : ProfileStore) : List ProfileFile :=
  store.defaultProfile :: store.customProfiles

/-- `LoadedProfileStore::get_all_match_file_paths`, a hash set, as it is iterated. -/
def LoadedProfileStore.getAllMatchFilePaths (store : LoadedProfileStore) (order : PathOrder) :
    List PathBuf :=
  order.iter (store.profiles.flatMap (·.matchFilePaths)).dedup

/-- `ProfileStore::resolve_paths`. -/
def ProfileStore.resolvePaths (loaded : LoadedProfileStore)
    (fileMap : HashMap PathBuf MatchFileRef) : ProfileStore where
  defaultProfile := .fromLoadedProfile loaded.defaultProfile fileMap
  customProfiles := loaded.customProfiles.map fun profile =>
    .fromLoadedProfile profile fileMap

/-- `load`, from the profiles that `config::load_store` returns on. -/
def load {ε : Type*} (loader : MatchLoader ε) (order : PathOrder) (fuel : Nat)
    (profileStore : LoadedProfileStore) (nonFatalConfigErrors : List (NonFatalErrorSet ε)) :
    Option (ProfileStore × MatchStore × List (NonFatalErrorSet ε)) :=
  (MatchStore.load loader fuel (profileStore.getAllMatchFilePaths order)).map
    fun (matchStore, fileMap, nonFatalMatchErrors) =>
      (.resolvePaths profileStore fileMap, matchStore,
        nonFatalConfigErrors ++ nonFatalMatchErrors)

end Shinran
