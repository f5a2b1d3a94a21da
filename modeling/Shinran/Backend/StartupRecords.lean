/-
  Shinran.Backend.StartupRecords
  ──────────────────────────────
  **WHAT A LOAD RECORDS.**

  Whatever happens to the files in the course of a load, each content of the
  configuration comes from a text that the load has read from its file.

    • `Records`                 — a configuration against the contents of files,
    • `Startup.records_of_loadConfig` — what is loaded has been read.
-/
import Shinran.Backend.Startup

namespace Shinran

open Inquiry

variable {ε : Type}

/-! ## §1. What a configuration records. -/

/-- The content of a match file is that of a text which `contents` gives the file. -/
def RecordsMatchFile (libs : Libraries ε) (contents : PathBuf → String → Prop)
    (sourcePath : PathBuf) (content : MatchFile) : Prop :=
  ∃ text parsed, contents sourcePath text ∧ libs.parseMatchFile text = .ok parsed
    ∧ content = parsed.content

/-- So is that of a profile, with what it inherits, and so are its filters. -/
def RecordsProfile (libs : Libraries ε) (contents : PathBuf → String → Prop)
    (parent : Option ParsedConfig) (sourcePath : PathBuf) (content : ParsedConfig)
    (filter : Filters) : Prop :=
  ∃ text config, contents sourcePath text ∧ libs.parseConfig text = .ok config
    ∧ content = parent.elim config (inherit config)
    ∧ compileFilters libs content = .ok filter

/-- Every content of the configuration is one that `contents` gives its file. -/
structure Records (libs : Libraries ε) (contents : PathBuf → String → Prop)
    (config : Configuration) : Prop where
  defaultProfile : RecordsProfile libs contents none config.profileStore.defaultProfile.sourcePath
    config.profileStore.defaultProfile.content config.profileStore.defaultProfile.filter
  customProfiles : ∀ profile ∈ config.profileStore.customProfiles,
    RecordsProfile libs contents (some config.profileStore.defaultProfile.content)
      profile.sourcePath profile.content profile.filter
  matchFiles : ∀ file ∈ config.matchStore.indexedFiles.files,
    RecordsMatchFile libs contents file.sourcePath file.content

theorem RecordsMatchFile.mono {libs : Libraries ε} {contents contents' : PathBuf → String → Prop}
    {sourcePath : PathBuf} {content : MatchFile}
    (h : RecordsMatchFile libs contents sourcePath content)
    (himp : ∀ text, contents sourcePath text → contents' sourcePath text) :
    RecordsMatchFile libs contents' sourcePath content := by
  obtain ⟨text, parsed, htext, hparsed⟩ := h
  exact ⟨text, parsed, himp text htext, hparsed⟩

theorem RecordsProfile.mono {libs : Libraries ε} {contents contents' : PathBuf → String → Prop}
    {parent : Option ParsedConfig} {sourcePath : PathBuf} {content : ParsedConfig}
    {filter : Filters} (h : RecordsProfile libs contents parent sourcePath content filter)
    (himp : ∀ text, contents sourcePath text → contents' sourcePath text) :
    RecordsProfile libs contents' parent sourcePath content filter := by
  obtain ⟨text, config, htext, hconfig⟩ := h
  exact ⟨text, config, himp text htext, hconfig⟩

theorem Records.mono {libs : Libraries ε} {contents contents' : PathBuf → String → Prop}
    {config : Configuration} (h : Records libs contents config)
    (himp : ∀ path ∈ config.sourcePaths, ∀ text, contents path text → contents' path text) :
    Records libs contents' config where
  defaultProfile := h.defaultProfile.mono (himp _ (by
    simp [Configuration.sourcePaths, ProfileStore.sourcePaths, ProfileStore.profiles]))
  customProfiles profile hprofile := (h.customProfiles profile hprofile).mono (himp _ (by
    refine List.mem_append_left _ (List.mem_map_of_mem (List.mem_cons_of_mem _ hprofile))))
  matchFiles file hfile := (h.matchFiles file hfile).mono
    (himp _ (List.mem_append_right _ (List.mem_map_of_mem hfile)))

namespace Startup

/-! ## §2. What a load reads. -/

/-- The text that was read from the file. -/
def readFrom (path : PathBuf) : (Σ question : FsQuestion, question.Answer) → Option String
  | ⟨.readToString path', text⟩ => if path' = path then text else none
  | _ => none

/-- The transcript holds that the text was read from the file. -/
def ReadsFrom (transcript : Transcript FsQuestion FsQuestion.Answer) (path : PathBuf)
    (text : String) : Prop :=
  ∃ entry ∈ transcript, readFrom path entry = some text

section Records

variable {libs : Libraries ε} {contents : PathBuf → String → Prop}
  {transcript : Transcript FsQuestion FsQuestion.Answer}

/-- `contents` has all that the transcript reads. -/
def Covers (contents : PathBuf → String → Prop)
    (transcript : Transcript FsQuestion FsQuestion.Answer) : Prop :=
  ∀ path text, ReadsFrom transcript path text → contents path text

theorem covers_append {first second : Transcript FsQuestion FsQuestion.Answer} :
    Covers contents (first ++ second) ↔ Covers contents first ∧ Covers contents second := by
  unfold Covers ReadsFrom
  simp only [List.mem_append, or_and_right, exists_or, or_imp, forall_and]

theorem returns_lift_iff {α : Type} {result : Except (LoadError ε) α} {a : α} :
    (lift result).run.Returns transcript (.ok a) ↔ transcript = [] ∧ result = .ok a :=
  Program.returns_pure_iff

theorem returns_readToString_iff {path : PathBuf} {text : Option String} :
    (readToString path).Returns transcript text ↔ transcript = [⟨.readToString path, text⟩] :=
  Program.returns_question_iff

/-- A file that is read, and parsed. -/
theorem readToString_covers {path : PathBuf} {first : Transcript FsQuestion FsQuestion.Answer}
    {text : Option String} {content : String}
    (hread : (readToString path).Returns first text)
    (hcontent : text.elim (.error .io) .ok = (.ok content : Except (LoadError ε) String))
    (hcovers : Covers contents first) : contents path content := by
  rw [returns_readToString_iff.mp hread] at hcovers
  cases text with
  | none => cases hcontent
  | some text =>
      cases hcontent
      exact hcovers path content ⟨_, List.mem_singleton_self _, if_pos rfl⟩

theorem fromLibrary_eq_ok {α : Type} {result : Except ε α} {a : α} :
    Except.fromLibrary result = .ok a ↔ result = .ok a := mapError_eq_ok_iff

/-! ## §3. Match files. -/

theorem records_of_loadFile {path : PathBuf} {group : LoadedMatchFile}
    {errors : Option (NonFatalErrorSet (LoadError ε))}
    (h : (loadFile libs path).run.Returns transcript (.ok (group, errors)))
    (hcovers : Covers contents transcript) :
    RecordsMatchFile libs contents group.sourcePath group.content := by
  obtain ⟨_, _, text, rfl, hread, h⟩ := Program.returns_ok_bind_iff.mp h
  obtain ⟨_, _, content, rfl, hcontent, h⟩ := Program.returns_ok_bind_iff.mp h
  obtain ⟨_, _, parsed, rfl, hparsed, h⟩ := Program.returns_ok_bind_iff.mp h
  obtain ⟨_, _, imports, rfl, _, h⟩ := Program.returns_ok_bind_iff.mp h
  obtain ⟨_, hresult⟩ := Program.returns_pure_iff.mp h
  cases hresult
  exact ⟨content, parsed, readToString_covers (Program.returns_liftM_iff.mp hread)
    (returns_lift_iff.mp hcontent).2 (covers_append.mp hcovers).1,
    fromLibrary_eq_ok.mp (returns_lift_iff.mp hparsed).2, rfl⟩

theorem records_of_loadMatchFile {path : PathBuf} {group : LoadedMatchFile}
    {errors : Option (NonFatalErrorSet (LoadError ε))}
    (h : (loadMatchFile libs path).run.Returns transcript (.ok (group, errors)))
    (hcovers : Covers contents transcript) :
    RecordsMatchFile libs contents group.sourcePath group.content := by
  unfold loadMatchFile at h
  split at h
  · cases (returns_lift_iff.mp h).2
  · split at h
    · cases (returns_lift_iff.mp h).2
    · exact records_of_loadFile h hcovers

/-- Every file that has been loaded so far records a text of its own. -/
def RecordsLoaded (libs : Libraries ε) (contents : PathBuf → String → Prop)
    (st : LoadState (LoadError ε)) : Prop :=
  ∀ file ∈ st.loadedFiles.files, RecordsMatchFile libs contents file.sourcePath file.content

theorem RecordsLoaded.add {st : LoadState (LoadError ε)} {path : PathBuf}
    {group : LoadedMatchFile} {errors : Option (NonFatalErrorSet (LoadError ε))}
    (h : RecordsLoaded libs contents st)
    (hgroup : RecordsMatchFile libs contents group.sourcePath group.content) :
    RecordsLoaded libs contents (st.add path group errors) := by
  intro file hfile
  cases List.mem_append.mp hfile with
  | inl hfile => exact h file hfile
  | inr hfile =>
      obtain rfl := List.mem_singleton.mp hfile
      exact hgroup

theorem records_of_loadEach
    {recurse : List PathBuf → LoadState (LoadError ε) → Startup (Option (LoadState (LoadError ε)))}
    (hrecurse : ∀ {paths st st' transcript}, (recurse paths st).Returns transcript (some st') →
      Covers contents transcript → RecordsLoaded libs contents st →
        RecordsLoaded libs contents st')
    {paths : List PathBuf} {st st' : LoadState (LoadError ε)}
    (h : (loadEach libs recurse paths st).Returns transcript (some st'))
    (hcovers : Covers contents transcript) (hst : RecordsLoaded libs contents st) :
    RecordsLoaded libs contents st' := by
  induction paths generalizing st transcript with
  | nil =>
      obtain ⟨_, hresult⟩ := Program.returns_pure_iff.mp h
      cases hresult
      exact hst
  | cons path paths ih =>
      unfold loadEach at h
      split at h
      · exact ih h hcovers hst
      · obtain ⟨first, second, result, rfl, hfile, h⟩ := Program.returns_bind_iff.mp h
        obtain ⟨hfirst, hsecond⟩ := covers_append.mp hcovers
        cases result with
        | error err => exact ih h hsecond hst
        | ok result =>
            obtain ⟨group, errors⟩ := result
            have hadd : RecordsLoaded libs contents (st.add path group errors) :=
              hst.add (records_of_loadMatchFile hfile hfirst)
            obtain ⟨_, _, result, rfl, hnested, h⟩ := Program.returns_bind_iff.mp h
            obtain ⟨hnestedCovers, hrest⟩ := covers_append.mp hsecond
            cases result with
            | none => cases (Program.returns_pure_iff.mp h).2
            | some _ => exact ih h hrest (hrecurse hnested hnestedCovers hadd)

theorem records_of_loadMatchFilesRecursively {fuel : Nat} {paths : List PathBuf}
    {st st' : LoadState (LoadError ε)}
    (h : (loadMatchFilesRecursively libs fuel paths st).Returns transcript (some st'))
    (hcovers : Covers contents transcript) (hst : RecordsLoaded libs contents st) :
    RecordsLoaded libs contents st' := by
  induction fuel generalizing paths st st' transcript with
  | zero => cases (Program.returns_pure_iff.mp h).2
  | succ fuel ih => exact records_of_loadEach (fun h => ih h) h hcovers hst

/-! ## §4. Profiles, and the whole load. -/

theorem records_of_loadFromPath {order : PathOrder} {sourcePath : PathBuf}
    {parent : Option LoadedProfileFile} {profile : LoadedProfileFile}
    (h : (loadFromPath libs order sourcePath parent).run.Returns transcript (.ok profile))
    (hcovers : Covers contents transcript) :
    RecordsProfile libs contents (parent.map (·.content)) profile.sourcePath profile.content
      profile.filter := by
  obtain ⟨_, _, text, rfl, hread, h⟩ := Program.returns_ok_bind_iff.mp h
  obtain ⟨_, _, content, rfl, hcontent, h⟩ := Program.returns_ok_bind_iff.mp h
  obtain ⟨_, _, config, rfl, hconfig, h⟩ := Program.returns_ok_bind_iff.mp h
  obtain ⟨_, _, generated, rfl, _, h⟩ := Program.returns_ok_bind_iff.mp h
  obtain ⟨_, _, matchPaths, rfl, _, h⟩ := Program.returns_ok_bind_iff.mp h
  obtain ⟨_, _, filter, rfl, hfilter, h⟩ := Program.returns_ok_bind_iff.mp h
  obtain ⟨_, hresult⟩ := Program.returns_pure_iff.mp h
  cases hresult
  refine ⟨content, config, readToString_covers (Program.returns_liftM_iff.mp hread)
    (returns_lift_iff.mp hcontent).2 (covers_append.mp hcovers).1,
    fromLibrary_eq_ok.mp (returns_lift_iff.mp hconfig).2, ?_,
    fromLibrary_eq_ok.mp (returns_lift_iff.mp hfilter).2⟩
  cases parent <;> rfl

theorem records_of_loadCustom {order : PathOrder} {configDir configFile : PathBuf}
    {defaultProfile profile : LoadedProfileFile}
    (h : (loadCustom libs order configDir defaultProfile configFile).Returns transcript
      (some (.ok profile)))
    (hcovers : Covers contents transcript) :
    RecordsProfile libs contents (some defaultProfile.content) profile.sourcePath profile.content
      profile.filter := by
  unfold loadCustom at h
  split at h
  · cases (Program.returns_pure_iff.mp h).2
  · obtain ⟨_, _, regular, rfl, _, h⟩ := Program.returns_bind_iff.mp h
    split at h
    · obtain ⟨_, _, result, rfl, hprofile, h⟩ := Program.returns_bind_iff.mp h
      obtain ⟨rfl, hresult⟩ := Program.returns_pure_iff.mp h
      cases result with
      | error err => cases hresult
      | ok profile' =>
          cases hresult
          exact records_of_loadFromPath hprofile
            (covers_append.mp (covers_append.mp hcovers).2).1
    · cases (Program.returns_pure_iff.mp h).2

/-- The profiles record texts of their files. -/
structure RecordsProfiles (libs : Libraries ε) (contents : PathBuf → String → Prop)
    (store : LoadedProfileStore) : Prop where
  defaultProfile : RecordsProfile libs contents none store.defaultProfile.sourcePath
    store.defaultProfile.content store.defaultProfile.filter
  customProfiles : ∀ profile ∈ store.customProfiles,
    RecordsProfile libs contents (some store.defaultProfile.content) profile.sourcePath
      profile.content profile.filter

theorem records_of_loadProfileStore {order : PathOrder} {configDir : PathBuf}
    {store : LoadedProfileStore} {errors : List (NonFatalErrorSet (LoadError ε))}
    (h : (loadProfileStore libs order configDir).run.Returns transcript (.ok (store, errors)))
    (hcovers : Covers contents transcript) : RecordsProfiles libs contents store := by
  obtain ⟨_, _, directory, rfl, _, h⟩ := Program.returns_ok_bind_iff.mp h
  obtain ⟨_, _, _, rfl, _, h⟩ := Program.returns_ok_bind_iff.mp h
  obtain ⟨_, _, regular, rfl, _, h⟩ := Program.returns_ok_bind_iff.mp h
  obtain ⟨_, _, _, rfl, _, h⟩ := Program.returns_ok_bind_iff.mp h
  obtain ⟨_, _, defaultProfile, rfl, hdefault, h⟩ := Program.returns_ok_bind_iff.mp h
  obtain ⟨_, _, entries, rfl, _, h⟩ := Program.returns_ok_bind_iff.mp h
  obtain ⟨_, _, configFiles, rfl, _, h⟩ := Program.returns_ok_bind_iff.mp h
  obtain ⟨_, _, results, rfl, hresults, h⟩ := Program.returns_ok_bind_iff.mp h
  obtain ⟨_, hresult⟩ := Program.returns_pure_iff.mp h
  cases hresult
  simp only [covers_append] at hcovers
  obtain ⟨_, _, _, _, hdefaultCovers, _, _, hresultsCovers, _⟩ := hcovers
  refine ⟨records_of_loadFromPath hdefault hdefaultCovers, ?_⟩
  intro profile hprofile
  obtain ⟨result, hresult, hok⟩ := List.mem_filterMap.mp hprofile
  obtain rfl : result = some (.ok profile) := by
    rcases result with _ | _ | _ <;> simp_all [Except.toOption]
  obtain ⟨configFile, _, part, hpart, hcustom⟩ :=
    Program.exists_of_returns_mapM (Program.returns_liftM_iff.mp hresults) _ hresult
  refine records_of_loadCustom hcustom fun path text hreads => ?_
  obtain ⟨entry, hentry, htext⟩ := hreads
  exact hresultsCovers path text ⟨entry, hpart hentry, htext⟩

theorem records_of_loadMatchStore {fuel : Nat} {rootPaths : List PathBuf}
    {matchStore : MatchStore} {fileMap : HashMap PathBuf MatchFileRef}
    {errors : List (NonFatalErrorSet (LoadError ε))}
    (h : (loadMatchStore libs fuel rootPaths).Returns transcript
      (some (matchStore, fileMap, errors)))
    (hcovers : Covers contents transcript) : ∀ file ∈ matchStore.indexedFiles.files,
      RecordsMatchFile libs contents file.sourcePath file.content := by
  obtain ⟨_, _, result, rfl, hloaded, h⟩ := Program.returns_bind_iff.mp h
  obtain ⟨rfl, hresult⟩ := Program.returns_pure_iff.mp h
  obtain ⟨st, rfl, hst⟩ := Option.map_eq_some_iff.mp hresult
  cases hst
  have hrecords := records_of_loadMatchFilesRecursively hloaded (covers_append.mp hcovers).1
    (fun file hfile => absurd hfile List.not_mem_nil)
  -- resolving changes only the imports
  intro file hfile
  obtain ⟨loaded, hloaded, rfl⟩ := List.mem_map.mp hfile
  exact hrecords loaded hloaded

/-- **What is loaded has been read**, in the course of the load. -/
theorem records_of_loadConfig {order : PathOrder} {fuel : Nat} {basePath : PathBuf}
    {config : Configuration}
    (h : (loadConfig libs order fuel basePath).Returns transcript (some (.ok config)))
    (hcovers : Covers contents transcript) : Records libs contents config := by
  obtain ⟨_, _, result, rfl, hfiles, hend⟩ := Program.returns_bind_iff.mp h
  obtain ⟨rfl, hmap⟩ := Program.returns_pure_iff.mp hend
  obtain ⟨loaded, rfl, hconfig⟩ := Option.map_eq_some_iff.mp hmap
  obtain ⟨_, _, directory, rfl, _, hfiles⟩ := Program.returns_bind_iff.mp hfiles
  split at hfiles
  · obtain ⟨_, hloaded⟩ := Program.returns_pure_iff.mp hfiles
    cases hloaded
    cases hconfig
  · obtain ⟨_, _, profiles, rfl, hprofiles, hfiles⟩ := Program.returns_bind_iff.mp hfiles
    cases profiles with
    | error err =>
        obtain ⟨_, hloaded⟩ := Program.returns_pure_iff.mp hfiles
        cases hloaded
        cases hconfig
    | ok profiles =>
        obtain ⟨profileStore, errors⟩ := profiles
        obtain ⟨_, _, store, rfl, hstore, hend⟩ := Program.returns_bind_iff.mp hfiles
        obtain ⟨rfl, hmap⟩ := Program.returns_pure_iff.mp hend
        obtain ⟨⟨matchStore, fileMap, errors'⟩, rfl, hloaded⟩ := Option.map_eq_some_iff.mp hmap
        cases hloaded
        cases hconfig
        simp only [covers_append] at hcovers
        obtain ⟨⟨_, hprofileCovers, hmatchCovers, _⟩, _⟩ := hcovers
        have hrecords := records_of_loadProfileStore hprofiles hprofileCovers
        refine ⟨hrecords.defaultProfile, ?_, records_of_loadMatchStore hstore hmatchCovers⟩
        intro profile hprofile
        obtain ⟨loaded, hloaded, rfl⟩ := List.mem_map.mp hprofile
        exact hrecords.customProfiles loaded hloaded

end Records
end Startup
end Shinran
